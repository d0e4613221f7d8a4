import RowAlgebra.Float64.Rounding
import RowAlgebra.Json.Error

/-! Number literals, read one character at a time. A literal without fraction and exponent
that 64 bits can hold is an integer; every other one is the double nearest to its exact
decimal value; of a literal with very many digits that value counts as a trace larger. Minus zero
is no integer, and its sign is kept, though no double has it. -/

namespace RowAlgebra.Json

inductive Number where
  | natural (number : UInt64)
  | negative (number : Int64)
  /-- A literal with a minus whose nearest double is zero. -/
  | minusZero
  | float (number : Float64)
deriving DecidableEq

inductive NumberStage where
  | sign
  | zero
  | whole
  | point
  | fraction
  | mark
  | markSign
  | exponent
deriving DecidableEq

/-- A literal in progress: all its digits before the exponent as one number, how many of
them are behind the point, and the exponent. -/
structure NumberPart where
  stage : NumberStage
  isNegative : Bool
  digits : Nat
  places : Nat
  exponentIsNegative : Bool
  exponent : Nat
  isInteger : Bool
deriving DecidableEq

namespace NumberPart

def digitValue (char : Char) : Nat := char.toNat - '0'.toNat

def start? (char : Char) : Option NumberPart :=
  if char = '-' then some ⟨.sign, true, 0, 0, false, 0, true⟩
  else if char = '0' then some ⟨.zero, false, 0, 0, false, 0, true⟩
  else if char.isDigit then some ⟨.whole, false, digitValue char, 0, false, 0, true⟩
  else none

def addWhole (part : NumberPart) (char : Char) : NumberPart :=
  { part with stage := .whole, digits := part.digits * 10 + digitValue char }

def addFraction (part : NumberPart) (char : Char) : NumberPart :=
  { part with stage := .fraction, digits := part.digits * 10 + digitValue char, places := part.places + 1 }

def addExponent (part : NumberPart) (char : Char) : NumberPart :=
  { part with stage := .exponent, exponent := part.exponent * 10 + digitValue char }

/-- What may follow a whole number: a point, an exponent mark, or nothing of the number. -/
def leaveWhole (part : NumberPart) (char : Char) : Option NumberPart :=
  if char = '.' then some { part with stage := .point, isInteger := false }
  else if char = 'e' ∨ char = 'E' then some { part with stage := .mark, isInteger := false }
  else none

/-- The part with one more character, or none if the literal ended before it. -/
def step (part : NumberPart) (char : Char) : Except Error (Option NumberPart) :=
  match part.stage with
  | .sign =>
    if char = '0' then .ok (some { part with stage := .zero })
    else if char.isDigit then .ok (some (part.addWhole char))
    else .error .invalidNumber
  | .zero => if char.isDigit then .error .invalidNumber else .ok (part.leaveWhole char)
  | .whole => if char.isDigit then .ok (some (part.addWhole char)) else .ok (part.leaveWhole char)
  | .point => if char.isDigit then .ok (some (part.addFraction char)) else .error .invalidNumber
  | .fraction =>
    if char.isDigit then .ok (some (part.addFraction char))
    else if char = 'e' ∨ char = 'E' then .ok (some { part with stage := .mark })
    else .ok none
  | .mark =>
    if char = '+' ∨ char = '-' then .ok (some { part with stage := .markSign, exponentIsNegative := char = '-' })
    else if char.isDigit then .ok (some (part.addExponent char))
    else .error .invalidNumber
  | .markSign => if char.isDigit then .ok (some (part.addExponent char)) else .error .invalidNumber
  | .exponent => if char.isDigit then .ok (some (part.addExponent char)) else .ok none

/-- Leaves out zeros at the end of the fraction. -/
def trim : (places digits : Nat) → Nat × Nat
  | 0, digits => (0, digits)
  | places + 1, digits => if digits % 10 = 0 then trim places (digits / 10) else (places + 1, digits)

/-- The most significant digits that are taken for exactly what they say. -/
def digitLimit : Nat := 768

/-- The places and digits to be rounded. Beyond the limit one more digit is put behind
them, so that the value is never half-way between two doubles. -/
def rounded (part : NumberPart) : Nat × Nat :=
  let (places, digits) := trim part.places part.digits
  if digits < 10 ^ digitLimit then (places, digits) else (places + 1, digits * 10 + 1)

def scale (part : NumberPart) (places : Nat) : Int :=
  (if part.exponentIsNegative then -(part.exponent : Int) else part.exponent) - places

def nearest (part : NumberPart) : Except Error Number :=
  let (places, digits) := part.rounded
  match Float64.ofDecimal? part.isNegative digits (part.scale places) with
  | some number => .ok (if part.isNegative ∧ number = 0 then .minusZero else .float number)
  | none => .error .numberOutOfRange

/-- The number of a literal that ended where it may. -/
def number (part : NumberPart) : Except Error Number :=
  if part.isInteger then
    if part.isNegative then
      if part.digits ≠ 0 ∧ part.digits ≤ 2 ^ 63 then .ok (.negative (Int64.ofInt (-part.digits)))
      else part.nearest
    else if part.digits < 2 ^ 64 then .ok (.natural (UInt64.ofNat part.digits))
    else part.nearest
  else part.nearest

def finish (part : NumberPart) : Except Error Number :=
  match part.stage with
  | .zero | .whole | .fraction | .exponent => part.number
  | .sign | .point | .mark | .markSign => .error .eofInValue

end NumberPart

end RowAlgebra.Json
