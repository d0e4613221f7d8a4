import RowAlgebra.Float64.Decimal
import RowAlgebra.Json.Number
import RowAlgebra.Proofs.Rounding

/-! The digits that are written for a double read back as that double, for every double and
every way of breaking ties. The full expansion always reads back, so a search that finds
nothing shorter loses nothing; and once its zeros are left out, even that expansion stays
within the digits that a reader takes for exactly what they say. -/

namespace RowAlgebra

namespace Decimal

theorem coefficient_lt (d : Decimal) : d.coefficient < 10 ^ d.digits.length :=
  (Nat.length_toDigits_le_iff (by omega) Nat.length_toDigits_pos).mp (Nat.le_refl _)

theorem trimmed_shift (coefficient : Nat) (exponent : Int) :
    ∃ places : Nat, coefficient = (trimmed coefficient exponent).coefficient * 10 ^ places ∧
      (trimmed coefficient exponent).exponent = exponent + places := by
  induction coefficient, exponent using Decimal.trimmed.induct with
  | case1 coefficient exponent zero hypothesis =>
    obtain ⟨places, same, moved⟩ := hypothesis
    rw [trimmed, if_pos zero]
    refine ⟨places + 1, ?_, by omega⟩
    rw [Nat.pow_succ, ← Nat.mul_assoc, ← same]
    omega
  | case2 coefficient exponent last =>
    rw [trimmed, if_neg last]
    exact ⟨0, by simp only [Nat.pow_zero, Nat.mul_one], by simp only [Int.natCast_zero, Int.add_zero]⟩

theorem trimmed_le {coefficient : Nat} (exponent : Int) (kept places : Nat) (nonzero : coefficient ≠ 0)
    (same : coefficient = kept * 10 ^ places) : (trimmed coefficient exponent).coefficient ≤ kept := by
  induction coefficient, exponent using Decimal.trimmed.induct generalizing kept places with
  | case1 coefficient exponent zero hypothesis =>
    have rest : coefficient / 10 ≠ 0 := by omega
    rw [trimmed, if_pos zero]
    cases places with
    | zero =>
      rw [Nat.pow_zero, Nat.mul_one] at same
      have smaller : (trimmed (coefficient / 10) (exponent + 1)).coefficient ≤ coefficient / 10 :=
        hypothesis _ 0 rest (Nat.mul_one _).symm
      omega
    | succ places =>
      apply hypothesis kept places rest
      have ten : coefficient = kept * 10 ^ places * 10 := by rw [same, Nat.pow_succ, Nat.mul_assoc]
      omega
  | case2 coefficient exponent last =>
    rw [trimmed, if_neg last]
    cases places with
    | zero => exact Nat.le_of_eq (same.trans (Nat.mul_one kept))
    | succ places =>
      rw [Nat.pow_succ, ← Nat.mul_assoc] at same
      omega

end Decimal

namespace Float64

theorem readsFrom_iff (x : Float64) (d : Decimal) :
    x.readsFrom d = true ↔ ofDecimal? x.negative d.coefficient d.exponent = some x := beq_iff_eq

theorem readsFrom_trimmed (x : Float64) (d : Decimal) :
    x.readsFrom (Decimal.trimmed d.coefficient d.exponent) = x.readsFrom d := by
  obtain ⟨places, same, moved⟩ := Decimal.trimmed_shift d.coefficient d.exponent
  unfold readsFrom
  rw [moved, ← ofDecimal?_shift, ← same]

theorem readsFrom_exactDecimal (x : Float64) : x.readsFrom x.exactDecimal = true := by
  have whole : (-(unitPlaces : Int)).toNat = 0 := by omega
  have places : (- -(unitPlaces : Int)).toNat = unitPlaces := by omega
  have ten : 10 ^ unitPlaces = 1 * (5 ^ unitPlaces * unitsPerOne) := by
    rw [Nat.one_mul, unitsPerOne, ← Nat.mul_pow]
  have positive : 0 < 5 ^ unitPlaces * unitsPerOne := Nat.mul_pos (Nat.pow_pos (by omega)) unitsPerOne_pos
  rw [readsFrom_iff, ofDecimal?_eq, exactDecimal, decimalRank, whole, places, Nat.pow_zero, Nat.mul_one, ten,
    natAbs_units, Nat.mul_assoc, nearestRank_scale _ _ positive, nearestRank_unitsOfRank, ofRank?_self]

theorem neighbour?_spec {tie : Tie} {x : Float64} {dropped : Nat} {d : Decimal}
    (found : x.neighbour? tie dropped = some d) :
    x.readsFrom d = true ∧ d.coefficient ≤ x.exactDecimal.coefficient / 10 ^ dropped + 1 := by
  unfold neighbour? at found
  dsimp only at found
  split at found
  next below =>
    have reads := (Bool.and_eq_true_iff.mp below).1
    obtain rfl := Option.some.inj found
    exact ⟨reads, Nat.le_succ _⟩
  next =>
    split at found
    next above =>
      obtain rfl := Option.some.inj found
      exact ⟨above, Nat.le_refl _⟩
    next => cases found

/-- What is found has at most seventeen digits, or is a power of ten behind them. -/
private theorem found_small {tie : Tie} {x : Float64} {kept : Nat} {d : Decimal} (few : kept ≤ mostDigits)
    (found : x.neighbour? tie (x.exactDecimal.digits.length - kept) = some d) : d.coefficient ≤ 10 ^ mostDigits := by
  have bounded := (neighbour?_spec found).2
  have full := x.exactDecimal.coefficient_lt
  have cut : x.exactDecimal.coefficient / 10 ^ (x.exactDecimal.digits.length - kept) < 10 ^ kept := by
    apply Nat.div_lt_of_lt_mul
    rw [← Nat.pow_add]
    exact Nat.lt_of_lt_of_le full (Nat.pow_le_pow_right (by omega) (by omega))
  have most : 10 ^ kept ≤ 10 ^ mostDigits := Nat.pow_le_pow_right (by omega) few
  omega

private theorem twos_and_fives (twos fives : Nat) :
    2 ^ twos * 5 ^ fives = 2 ^ (twos - fives) * 5 ^ (fives - twos) * 10 ^ min twos fives := by
  have even : 2 ^ twos = 2 ^ (twos - fives) * 2 ^ min twos fives := by
    rw [← Nat.pow_add]
    exact congrArg _ (by omega)
  have odd : 5 ^ fives = 5 ^ (fives - twos) * 5 ^ min twos fives := by
    rw [← Nat.pow_add]
    exact congrArg _ (by omega)
  rw [even, odd, Nat.mul_mul_mul_comm, ← Nat.mul_pow]

theorem exists_significand (x : Float64) : ∃ significand shift : Nat, significand < 2 ^ 53 ∧ shift ≤ 2045 ∧
    x.units.natAbs = significand * 2 ^ shift := by
  rw [natAbs_units]
  by_cases small : x.rank.natAbs < 2 ^ 52
  · refine ⟨x.rank.natAbs, 0, by omega, by omega, ?_⟩
    rw [unitsOfRank_subnormal small, Nat.pow_zero, Nat.mul_one]
  · obtain ⟨shift, place, inside, rank⟩ := normal_rank (Nat.le_of_not_lt small)
    have bounded := x.bounded
    unfold rankLimit at bounded
    refine ⟨2 ^ 52 + place, shift, by omega, by omega, ?_⟩
    rw [rank, unitsOfRank_normal inside]

/-- The full expansion is short enough, since either its twos or its fives all go into tens. -/
private theorem exact_small {x : Float64} (nonzero : x.exactDecimal.coefficient ≠ 0) :
    (Decimal.trimmed x.exactDecimal.coefficient x.exactDecimal.exponent).coefficient < 10 ^ Json.NumberPart.digitLimit := by
  obtain ⟨significand, shift, narrow, low, value⟩ := exists_significand x
  have expansion : x.exactDecimal.coefficient =
      significand * (2 ^ (shift - unitPlaces) * 5 ^ (unitPlaces - shift)) * 10 ^ min shift unitPlaces := by
    calc x.units.natAbs * 5 ^ unitPlaces
      _ = significand * (2 ^ shift * 5 ^ unitPlaces) := by rw [value, Nat.mul_assoc]
      _ = _ := by rw [twos_and_fives, ← Nat.mul_assoc]
  have rest : 2 ^ (shift - unitPlaces) * 5 ^ (unitPlaces - shift) ≤ 5 ^ unitPlaces := by
    calc 2 ^ (shift - unitPlaces) * 5 ^ (unitPlaces - shift)
      _ ≤ 5 ^ (shift - unitPlaces) * 5 ^ (unitPlaces - shift) :=
        Nat.mul_le_mul_right _ (Nat.pow_le_pow_left (by omega) _)
      _ = 5 ^ (shift - unitPlaces + (unitPlaces - shift)) := (Nat.pow_add ..).symm
      _ ≤ 5 ^ unitPlaces := Nat.pow_le_pow_right (by omega) (by unfold unitPlaces; omega)
  calc (Decimal.trimmed x.exactDecimal.coefficient x.exactDecimal.exponent).coefficient
    _ ≤ significand * (2 ^ (shift - unitPlaces) * 5 ^ (unitPlaces - shift)) := Decimal.trimmed_le _ _ _ nonzero expansion
    _ ≤ 2 ^ 53 * 5 ^ unitPlaces := Nat.mul_le_mul (Nat.le_of_lt narrow) rest
    _ < 10 ^ Json.NumberPart.digitLimit := by decide +kernel

theorem coefficient_ne_zero {x : Float64} {d : Decimal} (nonzero : x ≠ 0) (reads : x.readsFrom d = true) :
    d.coefficient ≠ 0 := by
  intro zero
  rw [readsFrom_iff, ofDecimal?_eq, zero, decimalRank_zero, ofRank?_zero] at reads
  exact nonzero (Option.some.inj reads).symm

/-- Digits and an exponent that stand for `x`, once they have its sign. -/
structure Written (x : Float64) (d : Decimal) : Prop where
  reads : ofDecimal? x.negative d.coefficient d.exponent = some x
  plain : d.coefficient = 0 → d.exponent = 0
  short : d.coefficient < 10 ^ Json.NumberPart.digitLimit

theorem shortest_written (tie : Tie) (x : Float64) : Written x (x.shortest tie) := by
  rw [shortest]
  split
  next zero =>
    obtain rfl := zero
    exact ⟨rfl, fun _ => rfl, Nat.pow_pos (by omega)⟩
  next nonzero =>
    dsimp only
    generalize search : List.findSome? _ _ = found
    have written : ∀ d, x.readsFrom d = true →
        (Decimal.trimmed d.coefficient d.exponent).coefficient < 10 ^ Json.NumberPart.digitLimit →
        Written x (Decimal.trimmed d.coefficient d.exponent) := by
      intro d reads short
      rw [← readsFrom_trimmed] at reads
      exact ⟨(readsFrom_iff ..).mp reads, fun zero => absurd zero (coefficient_ne_zero nonzero reads), short⟩
    cases found with
    | none =>
      have reads := readsFrom_exactDecimal x
      exact written _ reads (exact_small (coefficient_ne_zero nonzero reads))
    | some d =>
      obtain ⟨kept, tried, found⟩ := List.exists_of_findSome?_eq_some search
      have reads := (neighbour?_spec found).1
      apply written d reads
      have few : kept ≤ mostDigits := by
        have := (List.mem_range'_1.mp tried).2
        omega
      calc (Decimal.trimmed d.coefficient d.exponent).coefficient
        _ ≤ d.coefficient := Decimal.trimmed_le _ _ 0 (coefficient_ne_zero nonzero reads) (Nat.mul_one _).symm
        _ ≤ 10 ^ mostDigits := found_small few found
        _ < 10 ^ Json.NumberPart.digitLimit := by decide +kernel

end Float64

end RowAlgebra
