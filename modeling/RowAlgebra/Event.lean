import RowAlgebra.Filter.Basic

/-! What evaluation reports about itself while it goes on: every field filter that was
looked at, every select option that a later one overrides, and every plan applied. -/

namespace RowAlgebra

inductive Event.Level where
  | trace
  | debug
deriving DecidableEq

def Event.Level.name : Event.Level → String
  | trace => "trace"
  | debug => "debug"

/-- The two numbers of a select plan that can be given more than once. -/
inductive Slot where
  | limit
  | offset
deriving DecidableEq

def Slot.name : Slot → String
  | limit => "limit"
  | offset => "offset"

inductive Event where
  | filterEvaluated (field : String) (op : Operator) (matched : Bool)
  | optionOverridden (slot : Slot) (kept dropped : UInt32)
  | planApplied (limit offset : UInt32) (rowsIn rowsOut : Nat)
deriving DecidableEq

namespace Event

def level : Event → Level
  | filterEvaluated .. => .trace
  | optionOverridden .. | planApplied .. => .debug

def message : Event → String
  | filterEvaluated .. => "filter evaluated"
  | optionOverridden .. => "select option overridden"
  | planApplied .. => "select plan applied"

end Event

end RowAlgebra
