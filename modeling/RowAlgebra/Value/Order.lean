import RowAlgebra.Value.Basic

/-! Comparing values. An integer and a float compare by their exact numbers; no rounding
of the integer takes part. Comparison is partial: values of different kinds, nulls, lists
and maps have no natural order. The order for sorting is total: what is missing comes
first, then null, then everything else, values without a common order going by the tag of
their kind. The tags of the two numeric kinds are neighbours, so numbers stay together. -/

namespace RowAlgebra

/-- An integer against a float. A float beyond the integers of 64 bits settles the answer;
any other one is cut off toward zero, and what was cut off decides where its whole part
does not. -/
def Float64.compareInt (n : Int64) (x : Float64) : Ordering :=
  let bound : Int := (2 ^ 63 * unitsPerOne : Nat)
  if bound ≤ x.units then .lt
  else if x.units < -bound then .gt
  else (compare n.toInt (x.units.tdiv unitsPerOne)).then (compare 0 (x.units.tmod unitsPerOne))

namespace Value

/-- The natural order within a kind, and of the two numeric kinds together. -/
def compareOrder? : Value → Value → Option Ordering
  | int a, int b => some (compare a.toInt b.toInt)
  | float a, float b => some (compare a b)
  | int a, float b => some (Float64.compareInt a b)
  | float a, int b => some (Float64.compareInt b a).swap
  | text a, text b => some (compare a b)
  | bool a, bool b => some (compare a b)
  | blob a, blob b => some (compare a b)
  | _, _ => none

/-- Equality, where the two values can be compared at all. -/
def compareEq? (a b : Value) : Option Bool :=
  if a.isNumeric && b.isNumeric then (compareOrder? a b).map (· == .eq)
  else if a.kind = b.kind then some (a == b)
  else none

/-- The total order by which rows are sorted; `none` stands for a missing field. -/
def sortOrder : Option Value → Option Value → Ordering
  | none, none => .eq
  | none, some _ => .lt
  | some _, none => .gt
  | some null, some null => .eq
  | some null, some _ => .lt
  | some _, some null => .gt
  | some a, some b => (compareOrder? a b).getD (compare a.kind.tag b.kind.tag)

end Value

end RowAlgebra
