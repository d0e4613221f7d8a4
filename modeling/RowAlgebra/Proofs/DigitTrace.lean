import Mathlib.Tactic.NormNum
import RowAlgebra.Json.Number
import RowAlgebra.Proofs.NearestDouble

/-! One more digit behind very many of them. A point half-way between two doubles has at most as many
significant digits as the digit limit says, so the trace of a digit behind more digits than those
leads past none of these points; it only leads away from the one that the digits may stand for. To
round with the trace is then to round the digits themselves, where a tie goes away from zero. -/

namespace RowAlgebra.Float64
open Json.NumberPart (digitLimit)

theorem unitsOfRank_neighbours (rank : Nat) : ∃ leading shift, leading < 2 ^ 53 ∧
    unitsOfRank rank = leading * 2 ^ shift ∧ unitsOfRank (rank + 1) = (leading + 1) * 2 ^ shift := by
  by_cases small : rank < 2 ^ 52
  · have lower := unitsOfRank_binade rank 0 (.inl rfl) (by omega)
    have upper := unitsOfRank_binade (rank + 1) 0 (.inl rfl) (by omega)
    exact ⟨rank, 0, by omega, lower, upper⟩
  · obtain ⟨shift, place, inside, rfl⟩ := normal_rank (Nat.le_of_not_lt small)
    have lower := unitsOfRank_binade (2 ^ 52 + place) shift (.inr (by omega)) (by omega)
    have upper := unitsOfRank_binade (2 ^ 52 + place + 1) shift (.inr (by omega)) (by omega)
    have sameLower : (shift + 1) * 2 ^ 52 + place = 2 ^ 52 + place + shift * 2 ^ 52 := by omega
    have sameUpper : 2 ^ 52 + place + shift * 2 ^ 52 + 1 = 2 ^ 52 + place + 1 + shift * 2 ^ 52 := by omega
    refine ⟨2 ^ 52 + place, shift, by omega, ?_, ?_⟩
    · rw [sameLower, lower]
    · rw [sameLower, sameUpper, upper]

/-- Ranks and the points half-way between them, in half units: at most 54 binary digits before a
power of two. -/
def IsMark (halves : Nat) : Prop := ∃ leading shift, leading < 2 ^ 54 ∧ halves = leading * 2 ^ shift

theorem isMark_rank (rank : Nat) : IsMark (2 * unitsOfRank rank) := by
  obtain ⟨leading, shift, bounded, lower, -⟩ := unitsOfRank_neighbours rank
  exact ⟨2 * leading, shift, by omega, by rw [lower, Nat.mul_assoc]⟩

theorem isMark_middle (rank : Nat) : IsMark (unitsOfRank rank + unitsOfRank (rank + 1)) := by
  obtain ⟨leading, shift, bounded, lower, upper⟩ := unitsOfRank_neighbours rank
  exact ⟨leading + (leading + 1), shift, by omega, by rw [lower, upper, ← Nat.add_mul]⟩

/-- A mark beyond so many digits is a whole number in the place of the last of them; the others
lie below all numbers of so many digits. -/
theorem mark_whole {digits halves places : Nat} (long : 10 ^ digitLimit ≤ digits) (mark : IsMark halves)
    (below : digits * (2 * unitsPerOne) < halves * 10 ^ places) : 2 * unitsPerOne ∣ halves * 10 ^ places := by
  obtain ⟨leading, shift, bounded, rfl⟩ := mark
  have factors : leading * 2 ^ shift * 10 ^ places = leading * 5 ^ places * 2 ^ (shift + places) := by
    have tens : 10 ^ places = 5 ^ places * 2 ^ places := Nat.mul_pow 5 2 places
    have twos : 2 ^ (shift + places) = 2 ^ shift * 2 ^ places := Nat.pow_add ..
    rw [tens, twos]
    ac_rfl
  rw [factors] at below ⊢
  by_cases enough : unitPlaces + 1 ≤ shift + places
  · have unit : 2 ^ (unitPlaces + 1) = 2 * unitsPerOne := by rw [Nat.pow_succ', unitsPerOne]
    have divides : 2 ^ (unitPlaces + 1) ∣ 2 ^ (shift + places) := Nat.pow_dvd_pow 2 enough
    rw [unit] at divides
    exact Nat.dvd_mul_left_of_dvd divides _
  · have fives : 5 ^ places ≤ 5 ^ unitPlaces := Nat.pow_le_pow_right (by omega) (by omega)
    have twos : 2 ^ (shift + places) ≤ 2 ^ unitPlaces := Nat.pow_le_pow_right (by omega) (by omega)
    have beneath : leading * 5 ^ places * 2 ^ (shift + places) ≤ 10 ^ digitLimit * (2 * unitsPerOne) := by
      calc leading * 5 ^ places * 2 ^ (shift + places)
        _ ≤ 2 ^ 54 * 5 ^ unitPlaces * 2 ^ unitPlaces := Nat.mul_le_mul (Nat.mul_le_mul bounded.le fives) twos
        _ ≤ 10 ^ digitLimit * (2 * unitsPerOne) := by decide +kernel
    have above : 10 ^ digitLimit * (2 * unitsPerOne) ≤ digits * (2 * unitsPerOne) := Nat.mul_le_mul_right _ long
    exact absurd (Nat.lt_of_lt_of_le below beneath) (Nat.not_lt.mpr above)

private theorem trace_further (digits : Nat) (exponent : ℤ) :
    (digits : ℚ) * 10 ^ exponent < ((digits * 10 + 1 : Nat) : ℚ) * 10 ^ (exponent - 1) := by
  have shifted : (10 : ℚ) ^ exponent = 10 * 10 ^ (exponent - 1) := by
    rw [← zpow_one_add₀ (by norm_num)]
    exact congrArg _ (by omega)
  rw [shifted, ← mul_assoc]
  apply mul_lt_mul_of_pos_right _ (zpow_pos (by norm_num) _)
  rw [Nat.cast_add, Nat.cast_mul, Nat.cast_ofNat, Nat.cast_one]
  exact lt_add_one _

section
variable {digits : Nat} (long : 10 ^ digitLimit ≤ digits)
include long

theorem trace_below {halves places : Nat} (mark : IsMark halves)
    (below : digits * (2 * unitsPerOne) < halves * 10 ^ places) :
    (digits * 10 + 1) * (2 * unitsPerOne) < halves * 10 ^ (places + 1) := by
  obtain ⟨whole, same⟩ := mark_whole long mark below
  have positive : 0 < 2 * unitsPerOne := Nat.mul_pos (by omega) unitsPerOne_pos
  have less : digits < whole := by
    rw [same, Nat.mul_comm] at below
    exact Nat.lt_of_mul_lt_mul_left below
  calc (digits * 10 + 1) * (2 * unitsPerOne)
    _ < whole * 10 * (2 * unitsPerOne) := Nat.mul_lt_mul_of_pos_right (by omega) positive
    _ = 2 * unitsPerOne * whole * 10 := by rw [Nat.mul_comm, Nat.mul_assoc (2 * unitsPerOne)]
    _ = halves * 10 ^ (places + 1) := by rw [← same, Nat.pow_succ, Nat.mul_assoc]

private theorem trace_lt {halves : Nat} (mark : IsMark halves) (places : Nat)
    (below : (digits : ℚ) * 10 ^ (-places : ℤ) < halves / (2 * unitsPerOne : Nat)) :
    ((digits * 10 + 1 : Nat) : ℚ) * 10 ^ (-places - 1 : ℤ) < halves / (2 * unitsPerOne : Nat) := by
  have unit : (0 : ℚ) < (2 * unitsPerOne : Nat) := Nat.cast_pos.mpr (Nat.mul_pos (by omega) unitsPerOne_pos)
  have tens : ∀ places : Nat, (0 : ℚ) < (10 ^ places : Nat) := fun places => Nat.cast_pos.mpr (Nat.pow_pos (by omega))
  have power : ∀ places : Nat, (10 : ℚ) ^ (-places : ℤ) = 1 / (10 ^ places : Nat) := by
    intro places
    rw [zpow_neg, zpow_natCast, one_div, Nat.cast_pow, Nat.cast_ofNat]
  have next : (-places - 1 : ℤ) = -(places + 1 : Nat) := by omega
  rw [power, mul_one_div, div_lt_div_iff₀ (tens _) unit, ← Nat.cast_mul, ← Nat.cast_mul, Nat.cast_lt] at below
  rw [next, power, mul_one_div, div_lt_div_iff₀ (tens _) unit, ← Nat.cast_mul, ← Nat.cast_mul, Nat.cast_lt]
  exact trace_below long mark below

theorem decimalRank_trace (places : Nat) :
    Rounds .away (digits * 10 ^ (-places : ℤ)) (decimalRank (digits * 10 + 1) (-places - 1)) := by
  have halves : ∀ n : Nat, (n : ℚ) / unitsPerOne = (2 * n : Nat) / (2 * unitsPerOne : Nat) := by
    intro n
    rw [Nat.cast_mul, Nat.cast_mul, Nat.cast_ofNat, mul_div_mul_left _ _ two_ne_zero]
  have further := trace_further digits (-places)
  obtain ⟨low, below, above, found⟩ := decimalRank_rounds (digits * 10 + 1) (-places - 1)
  have past := trace_lt long (isMark_rank low) places
  rw [← halves, ← size] at past
  have middle := trace_lt long (isMark_middle low) places
  have sum : size low + size (low + 1) =
      2 * ((unitsOfRank low + unitsOfRank (low + 1) : Nat) / (2 * unitsPerOne : Nat) : ℚ) := by
    rw [size, size, halves, halves, ← add_div, ← Nat.cast_add, ← Nat.mul_add, Nat.cast_mul 2 (_ + _), Nat.cast_ofNat,
      mul_div_assoc]
  refine ⟨low, ?_, further.trans above, ?_⟩
  · by_contra beneath
    exact absurd (past (not_le.mp beneath)) (not_lt.mpr below)
  · rw [found, sum]
    by_cases before : (digits : ℚ) * 10 ^ (-places : ℤ) < (unitsOfRank low + unitsOfRank (low + 1) : Nat) / (2 * unitsPerOne : Nat)
    · rw [if_pos (.inl (by linarith [middle before])), if_pos (.inl (by linarith))]
    · rw [if_neg, if_neg]
      · rintro (less | ⟨-, away, -⟩)
        · linarith
        · cases away
      · rintro (less | ⟨tie, -⟩)
        · linarith
        · linarith

end

private theorem overflow_lt : overflow < (10 ^ digitLimit : Nat) := by
  have bound : 2 ^ 1024 ≤ 10 ^ digitLimit := by decide +kernel
  have cast : ∀ n : Nat, (2 : ℚ) ^ n = (2 ^ n : Nat) := fun n => by rw [Nat.cast_pow, Nat.cast_ofNat]
  calc overflow
    _ < 2 ^ 1024 := sub_lt_self _ (by positivity)
    _ = (2 ^ 1024 : Nat) := cast 1024
    _ ≤ (10 ^ digitLimit : Nat) := Nat.cast_le.mpr bound

/-- Digits with a trace behind them are rounded as the digits themselves, with ties away from zero. -/
theorem ofDecimal?_trace {digits : Nat} (long : 10 ^ digitLimit ≤ digits) (isNegative : Bool) (exponent : Int) :
    IsRounding .away (if isNegative then -(digits * 10 ^ exponent) else digits * 10 ^ exponent)
      (ofDecimal? isNegative (digits * 10 + 1) (exponent - 1)) := by
  rw [ofDecimal?_eq]
  by_cases small : exponent ≤ 0
  · obtain ⟨places, rfl⟩ := Int.exists_eq_neg_ofNat small
    exact ofRank?_isRounding (decimalRank_trace long places) isNegative
  · have large : overflow ≤ digits * 10 ^ exponent := by
      calc overflow
        _ ≤ (10 ^ digitLimit : Nat) := overflow_lt.le
        _ ≤ digits * 1 := by rw [mul_one]; exact Nat.cast_le.mpr long
        _ ≤ digits * 10 ^ exponent :=
          mul_le_mul_of_nonneg_left (one_le_zpow₀ (by norm_num) (by omega)) (Nat.cast_nonneg _)
    have further := large.trans (trace_further digits exponent).le
    have beyond : ∀ q : ℚ, overflow ≤ q → overflow ≤ |if isNegative then -q else q| := by
      intro q large
      rw [abs_signed]
      exact large.trans (le_abs_self q)
    have traced := ofRank?_isRounding (decimalRank_rounds (digits * 10 + 1) (exponent - 1)) isNegative
    rw [traced.none_iff.mpr (beyond _ further)]
    exact isRounding_none _ (beyond _ large)

end RowAlgebra.Float64
