import RowAlgebra.Row.Basic
import RowAlgebra.Select.Basic
import RowAlgebra.Value.Order

/-! Shaping a list of rows by select options: a stable sort by all order clauses, the first
one weighing most; then the offset, then the limit. -/

namespace RowAlgebra

/-- How a clause orders two rows. A descending clause turns the whole order around, so
missing fields and nulls come last. -/
def OrderClause.compareRows (clause : OrderClause) (first second : Row) : Ordering :=
  let ordering := Value.sortOrder (first.get? clause.field) (second.get? clause.field)
  match clause.direction with
  | .asc => ordering
  | .desc => ordering.swap

/-- The first clause that tells two rows apart decides. -/
def compareRows : List OrderClause → Row → Row → Ordering
  | [], _, _ => .eq
  | clause :: rest, first, second => (clause.compareRows first second).then (compareRows rest first second)

namespace SelectPlan

def sort (plan : SelectPlan) (rows : List Row) : List Row :=
  rows.mergeSort fun first second => (compareRows plan.order first second).isLE

/-- Leaves out as many rows as the offset says, then keeps as many as the limit says. -/
def page (plan : SelectPlan) (rows : List Row) : List Row :=
  let rest := rows.drop plan.offset.toNat
  match plan.limit? with
  | none => rest
  | some limit => rest.take limit.toNat

end SelectPlan

/-- The rows that options select, with the reports on the options and on the plan. -/
def selectRows (options : List SelectOption) (rows : List Row) : List Row × List Event :=
  let (plan, events) := SelectPlan.ofOptions options
  let selected := plan.page (plan.sort rows)
  (selected, events ++ [.planApplied plan.limit plan.offset rows.length selected.length])

end RowAlgebra
