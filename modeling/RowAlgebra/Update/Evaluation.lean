import RowAlgebra.Row.Basic
import RowAlgebra.Update.Basic

/-! Applying updates to a row. All new values are computed before any is written, each
update seeing what the earlier ones left; so a failing update leaves the row as it was.
Arithmetic on a stored null gives null. -/

namespace RowAlgebra

inductive EvalError where
  | missingField (field : String)
  | nonNumeric (field : String) (kind : Update.Kind) (stored operand : Kind)
  | divisionByZero (field : String)
  | overflow (field : String)
deriving DecidableEq

def EvalError.message : EvalError → String
  | missingField field => s!"field '{field}' is not present on the row"
  | nonNumeric field kind stored operand =>
    s!"cannot {kind.name} a {operand.name} operand into {stored.name} field '{field}'"
  | divisionByZero field => s!"division by zero on field '{field}'"
  | overflow field => s!"arithmetic overflow on field '{field}'"

namespace Update

inductive Operation where
  | add
  | subtract
  | multiply
  | divide
deriving DecidableEq

def Kind.operation? : Kind → Option Operation
  | assign => none
  | add => some .add
  | subtract => some .subtract
  | multiply => some .multiply
  | divide => some .divide

inductive Failure where
  | divisionByZero
  | overflow
deriving DecidableEq

/-- An exact result, if 64 bits hold it. -/
def fitInt (n : Int) : Except Failure Int64 :=
  if within : Int64.minValue.toInt ≤ n ∧ n ≤ Int64.maxValue.toInt then .ok (Int64.ofIntLE n within.1 within.2)
  else .error .overflow

/-- Integers stay integers; a quotient is cut off toward zero. -/
def Operation.onInts (operation : Operation) (a b : Int64) : Except Failure Int64 :=
  match operation with
  | add => fitInt (a.toInt + b.toInt)
  | subtract => fitInt (a.toInt - b.toInt)
  | multiply => fitInt (a.toInt * b.toInt)
  | divide => if b = 0 then .error .divisionByZero else fitInt (a.toInt.tdiv b.toInt)

def fitFloat (result : Option Float64) : Except Failure Float64 :=
  match result with
  | some number => .ok number
  | none => .error .overflow

def Operation.onFloats (operation : Operation) (a b : Float64) : Except Failure Float64 :=
  match operation with
  | add => fitFloat (a.add? b)
  | subtract => fitFloat (a.sub? b)
  | multiply => fitFloat (a.mul? b)
  | divide => if b = 0 then .error .divisionByZero else fitFloat (a.div? b)

/-- Two integers give an integer, two numbers of which one is a float give a float; there
is no result for anything else. -/
def Operation.onValues? (operation : Operation) (stored operand : Value) : Option (Except Failure Value) :=
  match stored, operand with
  | .int a, .int b => some ((operation.onInts a b).map Value.int)
  | stored, operand =>
    match stored.float?, operand.float? with
    | some a, some b => some ((operation.onFloats a b).map Value.float)
    | _, _ => none

def Failure.onField (field : String) : Failure → EvalError
  | divisionByZero => .divisionByZero field
  | overflow => .overflow field

/-- The value an update gives its field, from the value the field has. -/
def next (update : Update) (stored : Value) : Except EvalError Value :=
  match update.kind.operation? with
  | none => .ok update.operand
  | some operation =>
    if stored.isNull then .ok .null
    else match operation.onValues? stored update.operand with
      | some (.ok value) => .ok value
      | some (.error failure) => .error (failure.onField update.field)
      | none => .error (.nonNumeric update.field update.kind stored.kind update.operand.kind)

/-- Computes new values without writing any. A field that was staged before is read from
there, any other from the row. -/
def stage (row : Row) : List Update → Row → Except EvalError Row
  | [], staged => .ok staged
  | update :: rest, staged =>
    match (staged.get? update.field).or (row.get? update.field) with
    | none => .error (.missingField update.field)
    | some stored =>
      match update.next stored with
      | .error error => .error error
      | .ok value => stage row rest (staged.insert update.field value)

/-- Writes staged values in order of their names. Fields that the row lacks or that are
frozen cannot be written; what was written before such a field stays. -/
def commit (frozen : List String) : List (String × Value) → Row → Except EvalError Unit × Row
  | [], row => (.ok (), row)
  | (name, value) :: rest, row =>
    if name ∈ frozen ∨ row.contains name = false then (.error (.missingField name), row)
    else commit frozen rest (row.insert name value)

/-- Applies updates in order to a row of which some fields can be read but not written. -/
def applyAll (frozen : List String) (updates : List Update) (row : Row) : Except EvalError Unit × Row :=
  match stage row updates ∅ with
  | .error error => (.error error, row)
  | .ok staged => commit frozen staged.entries row

end Update

def Row.apply (row : Row) (updates : List Update) : Except EvalError Unit × Row :=
  Update.applyAll [] updates row

end RowAlgebra
