import RowAlgebra.Proofs.BitPattern
import RowAlgebra.Proofs.Rounding
import RowAlgebra.Update.Evaluation

/-! Arithmetic as the machine does it, with both zeros, infinities and NaNs: the exact result
is rounded once, and a zero keeps its sign. What an update stores is the result of that
arithmetic, if it is finite, and without the sign if it is zero. -/

namespace RowAlgebra

theorem Float64.negative_eq_decide (x : Float64) : x.negative = decide (x.units < 0) := by
  have below : x.units < 0 ↔ x.rank < 0 := units_lt_iff (y := 0)
  rw [negative]
  simp only [below]

theorem Float64.units_inj {x y : Float64} : x.units = y.units ↔ x = y := by
  constructor
  · intro same
    have below := units_lt_iff (x := x) (y := y)
    have above := units_lt_iff (x := y) (y := x)
    exact ext_rank (by omega)
  · exact congrArg units

theorem mul_neg_iff_sign {m n : Int} (left : m ≠ 0) (right : n ≠ 0) :
    (decide (m < 0) != decide (n < 0)) = decide (m * n < 0) := by
  rcases Int.lt_or_gt_of_ne left with negative | positive
  · rcases Int.lt_or_gt_of_ne right with negative' | positive'
    · have product := Int.mul_pos_of_neg_of_neg negative negative'
      rw [decide_eq_true negative, decide_eq_true negative', decide_eq_false (Int.lt_asymm product)]
      rfl
    · have product := Int.mul_neg_of_neg_of_pos negative positive'
      rw [decide_eq_true negative, decide_eq_false (Int.lt_asymm positive'), decide_eq_true product]
      rfl
  · rcases Int.lt_or_gt_of_ne right with negative' | positive'
    · have product := Int.mul_neg_of_pos_of_neg positive negative'
      rw [decide_eq_false (Int.lt_asymm positive), decide_eq_true negative', decide_eq_true product]
      rfl
    · have product := Int.mul_pos positive positive'
      rw [decide_eq_false (Int.lt_asymm positive), decide_eq_false (Int.lt_asymm positive'),
        decide_eq_false (Int.lt_asymm product)]
      rfl

namespace Wire.Double

def nearest (isNegative : Bool) (dividend divisor : Nat) : Double :=
  if within : Float64.nearestRank dividend divisor < Float64.rankLimit then
    if isNegative = true ∧ Float64.nearestRank dividend divisor = 0 then negativeZero
    else finite (Float64.signed isNegative _ within)
  else infinite isNegative

theorem canonical?_nearest (isNegative : Bool) (dividend divisor : Nat) :
    (nearest isNegative dividend divisor).canonical? = Float64.ofRank? isNegative (Float64.nearestRank dividend divisor) := by
  unfold nearest Float64.ofRank?
  split
  next within =>
    split
    next zero =>
      apply congrArg some
      apply Float64.ext_rank
      rw [Float64.signed, if_pos zero.1]
      exact (congrArg (fun rank : Nat => -(rank : Int)) zero.2).symm
    next => rfl
  next => rfl

/-- A quotient is rounded by its magnitude and its sign; the sign of a zero is of no account. -/
theorem ofRatio?_eq_nearest {numerator : Int} {denominator dividend divisor : Nat} (isNegative : Bool)
    (positive : 0 < denominator) (defined : 0 < divisor)
    (magnitude : numerator.natAbs * Float64.unitsPerOne * divisor = dividend * denominator)
    (sign : numerator ≠ 0 → isNegative = decide (numerator < 0)) :
    Float64.ofRatio? numerator denominator = (nearest isNegative dividend divisor).canonical? := by
  rw [canonical?_nearest, Float64.ofRatio?_eq, Float64.nearestRank_congr positive defined magnitude]
  by_cases zero : numerator = 0
  · have nothing : dividend = 0 := by
      rw [zero, Int.natAbs_zero, Nat.zero_mul, Nat.zero_mul] at magnitude
      exact (Nat.mul_eq_zero.mp magnitude.symm).resolve_right (by omega)
    rw [nothing, Float64.nearestRank_eq_zero defined, Float64.ofRank?_zero, Float64.ofRank?_zero]
  · rw [sign zero]

end Wire.Double

namespace Update
open Wire (Double)
open Wire.Double (nearest ofRatio?_eq_nearest)
open Float64 (unitsPerOne unitsPerOne_pos)

/-- Sums and differences that cancel are the positive zero, as no operand is the negative one.
Products and quotients have the sign of their operands even if they are zero. -/
def Operation.double (operation : Operation) (a b : Float64) : Double :=
  match operation with
  | add => nearest (a.units + b.units < 0) (a.units + b.units).natAbs 1
  | subtract => nearest (a.units - b.units < 0) (a.units - b.units).natAbs 1
  | multiply => nearest (a.negative != b.negative) (a.units.natAbs * b.units.natAbs) unitsPerOne
  | divide =>
    if b = 0 then if a = 0 then .nan else .infinite a.negative
    else nearest (a.negative != b.negative) (a.units.natAbs * unitsPerOne) b.units.natAbs

variable (a b : Float64)

theorem add?_eq : a.add? b = (Operation.add.double a b).canonical? := by
  refine ofRatio?_eq_nearest _ unitsPerOne_pos (by omega) ?_ (fun _ => rfl)
  rw [Nat.mul_one]

theorem sub?_eq : a.sub? b = (Operation.subtract.double a b).canonical? := by
  refine ofRatio?_eq_nearest _ unitsPerOne_pos (by omega) ?_ (fun _ => rfl)
  rw [Nat.mul_one]

theorem mul?_eq : a.mul? b = (Operation.multiply.double a b).canonical? := by
  refine ofRatio?_eq_nearest _ (Nat.mul_pos unitsPerOne_pos unitsPerOne_pos) unitsPerOne_pos ?_ ?_
  · rw [Int.natAbs_mul, Nat.mul_assoc _ unitsPerOne]
  · intro nonzero
    obtain ⟨left, right⟩ := Int.mul_ne_zero_iff.mp nonzero
    rw [a.negative_eq_decide, b.negative_eq_decide, mul_neg_iff_sign left right]

theorem div?_eq (nonzero : b ≠ 0) : a.div? b = (Operation.divide.double a b).canonical? := by
  have divisor : b.units ≠ 0 := fun nothing => nonzero (Float64.units_inj.mp nothing)
  have size : b.units.sign.natAbs = 1 := Int.natAbs_sign_of_ne_zero divisor
  have positive : 0 < b.units.natAbs := Int.natAbs_pos.mpr divisor
  rw [Float64.div?, if_neg divisor, Operation.double, if_neg nonzero]
  refine ofRatio?_eq_nearest _ positive positive ?_ ?_
  · rw [Int.natAbs_mul, size, Nat.mul_one]
  · intro some
    obtain ⟨left, right⟩ := Int.mul_ne_zero_iff.mp some
    have sign := mul_neg_iff_sign left right
    simp only [Int.sign_neg_iff] at sign
    rw [a.negative_eq_decide, b.negative_eq_decide, sign]

/-- An update of two numbers stores the result of the machine, less the sign of a zero. It goes
wrong where the machine has no finite result, and division by zero is told from overflow. -/
theorem onFloats_eq (operation : Operation) :
    operation.onFloats a b =
      if operation = .divide ∧ b = 0 then .error .divisionByZero else fitFloat (operation.double a b).canonical? := by
  cases operation with
  | add => rw [if_neg (fun both => nomatch both.1), ← add?_eq, Operation.onFloats]
  | subtract => rw [if_neg (fun both => nomatch both.1), ← sub?_eq, Operation.onFloats]
  | multiply => rw [if_neg (fun both => nomatch both.1), ← mul?_eq, Operation.onFloats]
  | divide =>
    rw [Operation.onFloats]
    by_cases zero : b = 0
    · rw [if_pos zero, if_pos ⟨rfl, zero⟩]
    · rw [if_neg zero, if_neg (fun both => zero both.2), div?_eq a b zero]

theorem canonical?_of_onFloats {operation : Operation} {result : Float64} (done : operation.onFloats a b = .ok result) :
    (operation.double a b).canonical? = some result := by
  rw [onFloats_eq] at done
  split at done
  next => cases done
  next =>
    cases found : (operation.double a b).canonical? with
    | none =>
      rw [found] at done
      cases done
    | some number =>
      rw [found] at done
      exact congrArg some (Except.ok.inj done)

end Update

end RowAlgebra
