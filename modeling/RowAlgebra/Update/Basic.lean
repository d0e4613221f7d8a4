import RowAlgebra.Value.Basic

/-! Updates: a field, what is done to it, and the operand. -/

namespace RowAlgebra

inductive Update.Kind where
  | assign
  | add
  | subtract
  | multiply
  | divide
deriving DecidableEq

namespace Update.Kind

def tag : Kind → Nat
  | assign => 1
  | add => 2
  | subtract => 3
  | multiply => 4
  | divide => 5

def name : Kind → String
  | assign => "assign"
  | add => "add"
  | subtract => "subtract"
  | multiply => "multiply"
  | divide => "divide"

def isArithmetic : Kind → Bool
  | assign => false
  | add | subtract | multiply | divide => true

end Update.Kind

structure Update where
  field : String
  kind : Update.Kind
  operand : Value
deriving DecidableEq

end RowAlgebra
