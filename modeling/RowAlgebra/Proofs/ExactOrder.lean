import Mathlib.Data.Rat.Cast.Order
import Mathlib.Algebra.Order.Field.Power
import Mathlib.Tactic.NormNum
import RowAlgebra.Proofs.BitPattern
import RowAlgebra.Proofs.SortOrder

/-! Numbers compare as the rational numbers that they are. A double is read off its bit
pattern and an integer is itself, so nothing is rounded; the bounds, whole parts and
remainders that the comparison looks at are only a way to that answer. -/

namespace RowAlgebra.Float64

def fractionField (bits : UInt64) : Nat := bits.toNat % 2 ^ 52

/-- The magnitude that exponent and fraction stand for. All exponents but the lowest have a
leading bit, which the pattern leaves out. -/
def magnitude (exponent fraction : Nat) : ℚ :=
  if exponent = 0 then fraction * (2 : ℚ) ^ (-1074 : ℤ)
  else (2 ^ 52 + fraction : Nat) * (2 : ℚ) ^ ((exponent : ℤ) - 1075)

def denoted (bits : UInt64) : ℚ :=
  if 2 ^ 63 ≤ bits.toNat then -magnitude (exponentField bits) (fractionField bits)
  else magnitude (exponentField bits) (fractionField bits)

theorem fields_toBits (x : Float64) :
    exponentField x.toBits = x.rank.natAbs / 2 ^ 52 ∧ fractionField x.toBits = x.rank.natAbs % 2 ^ 52 ∧
      (2 ^ 63 ≤ x.toBits.toNat ↔ x.rank < 0) := by
  have bounded := x.bounded
  unfold rankLimit at bounded
  unfold exponentField fractionField
  rw [toNat_toBits]
  split
  next => refine ⟨?_, ?_, ?_⟩ <;> omega
  next => refine ⟨?_, ?_, ?_⟩ <;> omega

theorem unit_eq : (2 : ℚ) ^ (-1074 : ℤ) = (unitsPerOne : ℚ)⁻¹ := by
  rw [zpow_neg, zpow_ofNat, unitsPerOne, unitPlaces, Nat.cast_pow, Nat.cast_ofNat]

/-- The lowest exponent counts in least positive doubles, and each further one doubles that unit. -/
theorem magnitude_eq (rank : Nat) :
    magnitude (rank / 2 ^ 52) (rank % 2 ^ 52) = (unitsOfRank rank : ℚ) / unitsPerOne := by
  rw [div_eq_mul_inv, ← unit_eq]
  by_cases small : rank < 2 ^ 52
  · rw [unitsOfRank_subnormal small, magnitude, if_pos (Nat.div_eq_of_lt small), Nat.mod_eq_of_lt small]
  · obtain ⟨shift, place, inside, rfl⟩ := normal_rank (Nat.le_of_not_lt small)
    have binade : ((shift + 1) * 2 ^ 52 + place) / 2 ^ 52 = shift + 1 := by omega
    have rest : ((shift + 1) * 2 ^ 52 + place) % 2 ^ 52 = place := by omega
    have exponent : ((shift + 1 : Nat) : ℤ) - 1075 = shift + -1074 := by omega
    have scale : (2 : ℚ) ^ (((shift + 1 : Nat) : ℤ) - 1075) = (2 ^ shift : Nat) * (2 : ℚ) ^ (-1074 : ℤ) := by
      rw [exponent, zpow_add₀ two_ne_zero, zpow_natCast, Nat.cast_pow, Nat.cast_ofNat]
    rw [unitsOfRank_normal inside, binade, rest, magnitude, if_neg (Nat.succ_ne_zero _), scale, ← mul_assoc,
      ← Nat.cast_mul]

theorem denoted_toBits (x : Float64) : denoted x.toBits = (x.units : ℚ) / unitsPerOne := by
  obtain ⟨exponent, fraction, sign⟩ := fields_toBits x
  unfold denoted units
  simp only [exponent, fraction, sign, magnitude_eq]
  split
  next => rw [Int.cast_neg, Int.cast_natCast, neg_div]
  next => rw [Int.cast_natCast]

end RowAlgebra.Float64

namespace RowAlgebra.Proofs.ExactOrder
open Value SortOrder

def rational? : Value → Option ℚ
  | .int n => some n.toInt
  | .float x => some (Float64.denoted x.toBits)
  | _ => none

theorem compare_scaled_down (m n : Int) :
    compare ((m : ℚ) / Float64.unitsPerOne) ((n : ℚ) / Float64.unitsPerOne) = compare m n := by
  have positive : (0 : ℚ) < Float64.unitsPerOne := Nat.cast_pos.mpr Float64.unitsPerOne_pos
  have increasing : StrictMono fun n : Int => (n : ℚ) / Float64.unitsPerOne := by
    intro a b less
    exact div_lt_div_of_pos_right (Int.cast_lt.mpr less) positive
  have same := increasing.cmp_map_eq m n
  rwa [cmp_eq_compare, cmp_eq_compare] at same

theorem rational?_number {a : Value} (numeric : a.isNumeric = true) :
    rational? a = some ((number (some a) : ℚ) / Float64.unitsPerOne) := by
  have positive : (Float64.unitsPerOne : ℚ) ≠ 0 := Nat.cast_ne_zero.mpr Float64.unitsPerOne_pos.ne'
  cases a
  case int n =>
    rw [rational?, number, Int.cast_mul, Int.cast_natCast, mul_div_cancel_right₀ _ positive]
  case float x => rw [rational?, number, Float64.denoted_toBits]
  all_goals cases numeric

theorem compareOrder?_number {a b : Value} (first : a.isNumeric = true) (second : b.isNumeric = true) :
    compareOrder? a b = some (compare (number (some a)) (number (some b))) := by
  cases a
  case int m =>
    cases b
    case int n => rw [compareOrder?, number, number, compare_scaled]
    case float y => rw [compareOrder?, number, number, compareInt_eq]
    all_goals cases second
  case float x =>
    cases b
    case int n => rw [compareOrder?, number, number, compareInt_eq, Int.compare_swap]
    case float y => rw [compareOrder?, number, number, Float64.compare_eq_units]
    all_goals cases second
  all_goals cases first

/-- Outside of numbers, only values of one kind have an order, and it tells all of them apart. -/
theorem compareEq?_of_order {a b : Value} {order : Ordering} (compared : compareOrder? a b = some order) :
    compareEq? a b = some (order == .eq) := by
  rw [compareEq?]
  split
  next => rw [compared, Option.map_some]
  next plain =>
    have level : a.kind = b.kind ∧ (a = b ↔ order = .eq) := by
      cases a
      all_goals cases b
      all_goals cases compared
      all_goals simp [isNumeric, Value.kind] at plain ⊢
    rw [if_pos level.1, Option.some.injEq, Bool.eq_iff_iff, beq_iff_eq, beq_iff_eq]
    exact level.2

/-- Numbers are ordered as the rational numbers that they are, integers and doubles among each
other, and equal where those are equal. -/
theorem numbers_compare_exactly {a b : Value} (first : a.isNumeric = true) (second : b.isNumeric = true) :
    ∃ p q, rational? a = some p ∧ rational? b = some q ∧
      compareOrder? a b = some (compare p q) ∧ compareEq? a b = some (decide (p = q)) := by
  refine ⟨_, _, rational?_number first, rational?_number second, ?_⟩
  have ordered := compareOrder?_number first second
  rw [← compare_scaled_down] at ordered
  refine ⟨ordered, ?_⟩
  rw [compareEq?_of_order ordered, Option.some.injEq, Bool.eq_iff_iff, beq_iff_eq, decide_eq_true_iff]
  exact compare_eq_iff_eq

/-- A negative integer that no double equals, and the double nearest to it. -/
theorem neighbours_compare_exactly :
    let whole : Value := .int (-9007199254740993)
    let nearest : Value := .float (Float64.ofInt64 (-9007199254740993))
    whole.isNumeric = true ∧ nearest.isNumeric = true ∧
      rational? whole = some (-9007199254740993) ∧ rational? nearest = some (-9007199254740992) ∧
      compareOrder? whole nearest = some .lt ∧ compareEq? whole nearest = some false := by
  intro whole nearest
  obtain ⟨p, q, isWhole, isNearest, ordered, equal⟩ := numbers_compare_exactly (a := whole) (b := nearest) rfl rfl
  have wholeNumber : rational? whole = some (-9007199254740993) := by
    have integer : Int64.toInt (-9007199254740993) = -9007199254740993 := by decide
    rw [rational?, integer, Int.cast_neg, Int.cast_ofNat]
  have nearestNumber : rational? nearest = some (-9007199254740992) := by
    have pattern : (Float64.ofInt64 (-9007199254740993)).toBits = 0xC340000000000000 := by decide +kernel
    have exponent : Float64.exponentField 0xC340000000000000 = 1076 := by decide
    have fraction : Float64.fractionField 0xC340000000000000 = 0 := by decide
    rw [rational?, pattern, Float64.denoted, exponent, fraction, if_pos (by decide)]
    norm_num [Float64.magnitude]
  obtain rfl : -9007199254740993 = p := Option.some.inj (wholeNumber.symm.trans isWhole)
  obtain rfl : -9007199254740992 = q := Option.some.inj (nearestNumber.symm.trans isNearest)
  refine ⟨rfl, rfl, wholeNumber, nearestNumber, ordered.trans ?_, equal.trans ?_⟩
  · exact congrArg some (compare_lt_iff_lt.mpr (by norm_num))
  · exact congrArg some (decide_eq_false (by norm_num))

end RowAlgebra.Proofs.ExactOrder
