import RowAlgebra.Float64.Basic

/-! Rounding exact quotients to doubles: the nearest one, and of two equally near the
one with the even significand. A quotient that rounds past the largest double has no
rounding. Everything is computed in natural numbers, so nothing is lost before the one
rounding step. -/

namespace RowAlgebra

/-- `dividend / divisor` to the nearest natural number, a half going to the even neighbour. -/
def roundQuotient (dividend divisor : Nat) : Nat :=
  let quotient := dividend / divisor
  let twice := 2 * (dividend % divisor)
  if divisor < twice ∨ (twice = divisor ∧ quotient % 2 = 1) then quotient + 1 else quotient

namespace Float64

/-- By how many binary digits a magnitude must be shortened so that `precision` digits
of its whole part remain. -/
def excess (precision dividend divisor : Nat) : Nat :=
  (dividend / divisor).log2 + 1 - precision

/-- The rank nearest to a magnitude given in units. Shortening by `shift` digits moves up
by `shift` binades; a significand that rounds up to a power of two carries into the next
binade by itself. -/
def nearestRank (dividend divisor : Nat) : Nat :=
  let shift := excess 53 dividend divisor
  roundQuotient dividend (divisor * 2 ^ shift) + shift * 2 ^ 52

/-- The double nearest to `numerator / denominator`, or none where that is infinite. -/
def ofRatio? (numerator : Int) (denominator : Nat) : Option Float64 :=
  let rank := nearestRank (numerator.natAbs * unitsPerOne) denominator
  if within : rank < rankLimit then some (signed (numerator < 0) rank within) else none

/-- Beyond these decimal exponents every coefficient overflows, or vanishes. -/
def decimalReach : Nat := 400

/-- The double nearest to `±coefficient * 10 ^ exponent`. Exponents that settle the answer
whatever the digits are not expanded: a coefficient of `b` binary digits is below `10 ^ b`. -/
def ofDecimal? (isNegative : Bool) (coefficient : Nat) (exponent : Int) : Option Float64 :=
  let numerator (n : Nat) : Int := if isNegative then -(n : Int) else n
  if coefficient = 0 then some 0
  else if (decimalReach : Int) < exponent then none
  else if exponent + (coefficient.log2 + 1 : Nat) < -(decimalReach : Int) then some 0
  else if 0 ≤ exponent then ofRatio? (numerator (coefficient * 10 ^ exponent.toNat)) 1
  else ofRatio? (numerator coefficient) (10 ^ (-exponent).toNat)

end Float64

end RowAlgebra
