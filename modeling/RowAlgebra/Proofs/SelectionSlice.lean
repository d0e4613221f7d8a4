import RowAlgebra.Proofs.OptionFold
import RowAlgebra.Proofs.SortOrder
import RowAlgebra.Proofs.StableSort

/-! A selection is a slice of the one stable sort of the rows. Which slice it is, and by
which clauses the rows are sorted, is read off the options. Rows that no clause tells
apart stay in the order of the input, under descending clauses too. -/

namespace RowAlgebra.Proofs.SelectionSlice
open OptionFold StableSort

/-- From the last offset on, as many rows as the last limit says; a limit of 0 says nothing. -/
def slice (options : List SelectOption) (sorted : List Row) : List Row :=
  let rest := sorted.drop (lastOffset options).toNat
  if lastLimit options = 0 then rest else rest.take (lastLimit options).toNat

theorem length_slice (options : List SelectOption) (sorted : List Row) :
    (slice options sorted).length =
      if lastLimit options = 0 then sorted.length - (lastOffset options).toNat
      else min (lastLimit options).toNat (sorted.length - (lastOffset options).toNat) := by
  simp only [slice]
  split
  · rw [List.length_drop]
  · rw [List.length_take, List.length_drop]

theorem slice_beyond {options : List SelectOption} {sorted : List Row}
    (beyond : sorted.length ≤ (lastOffset options).toNat) : slice options sorted = [] := by
  rw [slice, List.drop_eq_nil_of_le beyond, List.take_nil]
  split
  all_goals rfl

theorem page_eq (options : List SelectOption) (rows : List Row) :
    (SelectPlan.ofOptions options).1.page rows = slice options rows := by
  rw [SelectPlan.page, SelectPlan.limit?, ofOptions_plan, slice]
  by_cases unbounded : lastLimit options = 0
  · simp only [unbounded, if_true]
  · simp only [unbounded, if_false]

def arranged (clauses : List OrderClause) (rows : List Row) : List Row :=
  rows.mergeSort fun first second => (compareRows clauses first second).isLE

theorem isStableSort_arranged (clauses : List OrderClause) (rows : List Row) :
    IsStableSort (compareRows clauses) rows (arranged clauses rows) := isStableSort_mergeSort rows

theorem selectRows_rows (options : List SelectOption) (rows : List Row) :
    (selectRows options rows).1 = slice options (arranged (clauses options) rows) := by
  change (SelectPlan.ofOptions options).1.page ((SelectPlan.ofOptions options).1.sort rows) = _
  rw [page_eq, SelectPlan.sort, ofOptions_plan, arranged]

theorem selectRows_events (options : List SelectOption) (rows : List Row) :
    (selectRows options rows).2 = (SelectPlan.ofOptions options).2 ++
      [.planApplied (lastLimit options) (lastOffset options) rows.length (selectRows options rows).1.length] := by
  simp only [selectRows, ofOptions_plan]

theorem selectRows_orderBy (given : List OrderClause) (rows : List Row) :
    (selectRows (given.map .orderBy) rows).1 = arranged given rows := by
  rw [selectRows_rows, slice, lastLimit_orderBy, lastOffset_orderBy, clauses_orderBy]
  rfl

theorem selectRows_of_isStableSort {clauses : List OrderClause} {rows sorted : List Row}
    (stable : IsStableSort (compareRows clauses) rows sorted) :
    (selectRows (clauses.map .orderBy) rows).1 = sorted :=
  (selectRows_orderBy clauses rows).trans ((isStableSort_arranged clauses rows).unique stable)

structure Selects (options : List SelectOption) (rows sorted selected : List Row) (events : List Event) : Prop where
  stable : ∀ other, IsStableSort (compareRows (clauses options)) rows other ↔ other = sorted
  rearranged : sorted.Perm rows
  unsorted : clauses options = [] → sorted = rows
  sliced : selected = slice options sorted
  size : selected.length =
    if lastLimit options = 0 then rows.length - (lastOffset options).toNat
    else min (lastLimit options).toNat (rows.length - (lastOffset options).toNat)
  beyond : rows.length ≤ (lastOffset options).toNat → selected = []
  reports : events = (SelectPlan.ofOptions options).2 ++
    [.planApplied (lastLimit options) (lastOffset options) rows.length selected.length]
  overrides : ∀ event ∈ (SelectPlan.ofOptions options).2, Overrides event

/-- There is one stable sort of the rows by all order clauses, and a selection takes its
slice from it; what the options override is reported first, then the plan, once. -/
theorem selectRows_selects (options : List SelectOption) (rows : List Row) :
    ∃ sorted, Selects options rows sorted (selectRows options rows).1 (selectRows options rows).2 := by
  have stable := isStableSort_arranged (clauses options) rows
  have sameLength := stable.perm.length_eq
  have sliced := selectRows_rows options rows
  refine ⟨arranged (clauses options) rows, ?_⟩
  constructor
  case stable => exact fun other => isStableSort_iff
  case rearranged => exact stable.perm
  case unsorted =>
    intro unordered
    rw [unordered] at stable ⊢
    exact stable.unique (isStableSort_of_level rows fun _ _ => rfl)
  case sliced => exact sliced
  case size => rw [sliced, length_slice, sameLength]
  case beyond =>
    intro beyond
    rw [sliced, slice_beyond (sameLength ▸ beyond)]
  case reports => exact selectRows_events options rows
  case overrides => exact ofOptions_overrides options

/-- Rows that a descending clause does not tell apart keep their order. -/
example :
    let row (number : Value) (note : String) : Row := Row.ofList [("note", .text note), ("number", number)]
    IsStableSort (compareRows [⟨"number", .desc⟩])
      [row (.int 1) "a", row (.int 2) "b", row (.int 1) "c", row (.int 0) "d"]
      [row (.int 2) "b", row (.int 1) "a", row (.int 1) "c", row (.int 0) "d"] := by
  intro row
  exact ⟨[(row (.int 2) "b", 1), (row (.int 1) "a", 0), (row (.int 1) "c", 2), (row (.int 0) "d", 3)],
    by decide, by decide, rfl⟩

end RowAlgebra.Proofs.SelectionSlice
