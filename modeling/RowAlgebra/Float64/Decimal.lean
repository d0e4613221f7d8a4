import RowAlgebra.Float64.Rounding

/-! Decimal text of doubles. The digits are the fewest that read back as the same
number, and among those the nearest to it; a format settles how the digits are laid
out and which way an exact tie between two decimals goes. -/

namespace RowAlgebra

/-- The number `coefficient * 10 ^ exponent`. -/
structure Decimal where
  coefficient : Nat
  exponent : Int
deriving DecidableEq

namespace Decimal

/-- Moves trailing zeros of the coefficient into the exponent. -/
def trimmed (coefficient : Nat) (exponent : Int) : Decimal :=
  if coefficient ≠ 0 ∧ coefficient % 10 = 0 then trimmed (coefficient / 10) (exponent + 1)
  else ⟨coefficient, exponent⟩
termination_by coefficient
decreasing_by omega

def digits (d : Decimal) : List Char := Nat.toDigits 10 d.coefficient

/-- The exponent of the first digit. -/
def leading (d : Decimal) : Int := d.exponent + d.digits.length - 1

end Decimal

/-- Which of two equally near decimals is taken. -/
inductive Tie where
  | even
  | up
deriving DecidableEq

structure FloatFormat where
  tie : Tie
  /-- The exponents of a first digit that are written without an exponent part. -/
  positional : Int → Bool
  /-- What follows a number without fraction digits in positional notation. -/
  wholeMark : List Char

namespace Float64

/-- The magnitude in full: a unit is `5 ^ 1074 * 10 ^ (-1074)`. -/
def exactDecimal (x : Float64) : Decimal := ⟨x.units.natAbs * 5 ^ unitPlaces, -(unitPlaces : Int)⟩

/-- Whether a magnitude reads back as `x`, once it has the sign of `x`. -/
def readsFrom (x : Float64) (d : Decimal) : Bool :=
  ofDecimal? x.negative d.coefficient d.exponent == some x

/-- The better of the two neighbours of `x` among the decimals that leave out the last
`dropped` digits of its full expansion, if one of them reads back. -/
def neighbour? (tie : Tie) (x : Float64) (dropped : Nat) : Option Decimal :=
  let full := x.exactDecimal
  let step := 10 ^ dropped
  let below : Decimal := ⟨full.coefficient / step, full.exponent + dropped⟩
  let above : Decimal := ⟨full.coefficient / step + 1, full.exponent + dropped⟩
  let twice := 2 * (full.coefficient % step)
  let belowIsBetter := twice < step ∨ (twice = step ∧ tie = .even ∧ below.coefficient % 2 = 0)
  if x.readsFrom below && (belowIsBetter || !x.readsFrom above) then some below
  else if x.readsFrom above then some above
  else none

/-- Seventeen digits are enough for every double. -/
def mostDigits : Nat := 17

/-- The magnitude with the fewest digits that reads back as `x`. -/
def shortest (tie : Tie) (x : Float64) : Decimal :=
  if x = 0 then ⟨0, 0⟩
  else
    let length := x.exactDecimal.digits.length
    let found := (List.range' 1 mostDigits).findSome? fun kept => x.neighbour? tie (length - kept)
    let chosen := found.getD x.exactDecimal
    Decimal.trimmed chosen.coefficient chosen.exponent

end Float64

namespace FloatFormat

def layPositional (format : FloatFormat) (d : Decimal) : List Char :=
  let digits := d.digits
  let places := (-d.exponent).toNat
  if 0 ≤ d.exponent then digits ++ List.replicate d.exponent.toNat '0' ++ format.wholeMark
  else if places < digits.length then
    digits.take (digits.length - places) ++ '.' :: digits.drop (digits.length - places)
  else '0' :: '.' :: (List.replicate (places - digits.length) '0' ++ digits)

/-- One digit before the point, and an exponent that always has its sign. -/
def layScientific (d : Decimal) : List Char :=
  let fraction := d.digits.drop 1
  let sign := if d.leading < 0 then '-' else '+'
  d.digits.take 1 ++ (if fraction.isEmpty then [] else '.' :: fraction) ++
    'e' :: sign :: Nat.toDigits 10 d.leading.natAbs

def chars (format : FloatFormat) (x : Float64) : List Char :=
  let d := x.shortest format.tie
  (if x.negative then ['-'] else []) ++ if format.positional d.leading then format.layPositional d else layScientific d

def text (format : FloatFormat) (x : Float64) : String := String.ofList (format.chars x)

end FloatFormat

/-- Plain text never has an exponent, writes whole numbers without a point, and takes
the larger of two equally near decimals. -/
def Float64.plainFormat : FloatFormat := ⟨.up, fun _ => true, []⟩

/-- JSON numbers from `0.00001` up to sixteen whole digits have no exponent; a point or an
exponent always marks them as floats. -/
def Float64.jsonFormat : FloatFormat := ⟨.even, fun leading => -5 ≤ leading && leading ≤ 15, ['.', '0']⟩

end RowAlgebra
