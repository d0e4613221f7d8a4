import RowAlgebra.Value.Basic

/-! Unsigned integers as values. What the integers of a value cannot hold becomes the
nearest float. -/

namespace RowAlgebra

def Value.ofUInt64 (number : UInt64) : Value :=
  if number.toNat < 2 ^ 63 then .int number.toInt64 else .float (Float64.ofUInt64 number)

end RowAlgebra
