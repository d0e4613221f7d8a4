import Mathlib.Data.List.Basic
import RowAlgebra.Proofs.SelectionSlice

/-! Pages of a selection. Each page is selected by a run of its own, which folds its options
and sorts the rows from scratch; since there is one stable sort, the pages in turn are that
sort cut into pieces. No row is left out between two pages and none is on both of them, also
where a page ends among rows that no clause tells apart. -/

namespace RowAlgebra.Proofs.PageTiling
open OptionFold SelectionSlice

/-- Options that ask for one page, the first page having the number 0. It does not matter where
the numbers stand among the clauses, nor which other numbers stand in front of them. -/
structure AsksFor (order : List OrderClause) (size : UInt32) (number : Nat) (options : List SelectOption) : Prop where
  sorts : clauses options = order
  limits : lastLimit options = size
  skips : (lastOffset options).toNat = number * size.toNat

def pageOptions (order : List OrderClause) (size : UInt32) (number : Nat) : List SelectOption :=
  order.map .orderBy ++ [.offsetBy (UInt32.ofNat (number * size.toNat)), .limitTo size]

theorem asksFor_pageOptions (order : List OrderClause) {size : UInt32} {number : Nat}
    (fits : number * size.toNat < 2 ^ 32) : AsksFor order size number (pageOptions order size number) := by
  have noLimit : (order.map SelectOption.orderBy).filterMap givenLimit = [] := by simp [givenLimit]
  have noOffset : (order.map SelectOption.orderBy).filterMap givenOffset = [] := by simp [givenOffset]
  refine ⟨?_, ?_, ?_⟩
  · have sorts := clauses_orderBy order
    rw [clauses] at sorts
    rw [clauses, pageOptions, List.filterMap_append, sorts]
    exact List.append_nil order
  · rw [lastLimit, pageOptions, List.filterMap_append, noLimit]
    rfl
  · rw [lastOffset, pageOptions, List.filterMap_append, noOffset]
    exact UInt32.toNat_ofNat_of_lt fits

theorem selectRows_page {order : List OrderClause} {size : UInt32} {number : Nat} {options : List SelectOption}
    (nonempty : 1 ≤ size) (asks : AsksFor order size number options) (rows : List Row) :
    (selectRows options rows).1 = ((arranged order rows).drop (number * size.toNat)).take size.toNat := by
  have bounded : size ≠ 0 := by
    intro zero
    subst zero
    exact absurd nonempty (by decide)
  rw [selectRows_rows, slice, asks.sorts, asks.limits, asks.skips, if_neg bounded]

theorem flatMap_pieces (items : List α) (size count : Nat) :
    ((List.range count).flatMap fun number => (items.drop (number * size)).take size) = items.take (count * size) := by
  induction count with
  | zero => simp
  | succ count ih => rw [List.range_succ, List.flatMap_append, ih, List.flatMap_singleton, Nat.succ_mul, List.take_add]

theorem flatMap_pages {order : List OrderClause} {size : UInt32} (nonempty : 1 ≤ size) {count : Nat}
    {pages : Nat → List SelectOption} (ask : ∀ number < count, AsksFor order size number (pages number)) (rows : List Row) :
    ((List.range count).flatMap fun number => (selectRows (pages number) rows).1) =
      (selectRows (order.map .orderBy) rows).1.take (min rows.length (count * size.toNat)) := by
  have each : ∀ number ∈ List.range count, (selectRows (pages number) rows).1 =
      ((arranged order rows).drop (number * size.toNat)).take size.toNat := by
    intro number member
    exact selectRows_page nonempty (ask number (List.mem_range.mp member)) rows
  have sameLength := (isStableSort_arranged order rows).perm.length_eq
  rw [List.flatMap_congr each, flatMap_pieces, selectRows_orderBy, ← sameLength, Nat.min_comm, ← List.take_eq_take_min]

/-- The first pages of a selection, put together, are its first rows, as many as the pages can
hold. The options of each page may be spelled in any way that asks for the page. -/
theorem pages_tile (rows : List Row) (order : List OrderClause) (size : UInt32) (nonempty : 1 ≤ size) (count : Nat)
    (fits : (count - 1) * size.toNat < 2 ^ 32) :
    ((List.range count).flatMap fun number => (selectRows (pageOptions order size number) rows).1) =
      (selectRows (order.map .orderBy) rows).1.take (min rows.length (count * size.toNat)) ∧
    ∀ pages : Nat → List SelectOption, (∀ number < count, AsksFor order size number (pages number)) →
      ((List.range count).flatMap fun number => (selectRows (pages number) rows).1) =
        (selectRows (order.map .orderBy) rows).1.take (min rows.length (count * size.toNat)) := by
  refine ⟨flatMap_pages nonempty (fun number inside => asksFor_pageOptions order ?_) rows,
    fun pages ask => flatMap_pages nonempty ask rows⟩
  have before : number * size.toNat ≤ (count - 1) * size.toNat := Nat.mul_le_mul_right _ (by omega)
  omega

/-- The first page ends among rows that the clause does not tell apart. The numbers of each page
stand around the clause and override others. -/
theorem pages_split_level_rows :
    let row (number : Value) (note : String) : Row := Row.ofList [("note", .text note), ("number", number)]
    let rows := [row (.int 1) "a", row (.int 2) "b", row (.int 1) "c", row (.int 1) "d", row (.int 0) "e"]
    let order : List OrderClause := [⟨"number", .desc⟩]
    let pages (number : Nat) : List SelectOption :=
      [.limitTo 9, .offsetBy (UInt32.ofNat (number * 2)), .limitTo 0, .orderBy ⟨"number", .desc⟩, .limitTo 2]
    1 ≤ (2 : UInt32) ∧ (2 - 1) * (2 : UInt32).toNat < 2 ^ 32 ∧
      (∀ number < 2, AsksFor order 2 number (pages number)) ∧
      ((List.range 2).flatMap fun number => (selectRows (pages number) rows).1) =
        [row (.int 2) "b", row (.int 1) "a", row (.int 1) "c", row (.int 1) "d"] := by
  intro row rows order pages
  have ask : ∀ number < 2, AsksFor order 2 number (pages number) := by
    intro number inside
    refine ⟨rfl, rfl, ?_⟩
    change (UInt32.ofNat (number * 2)).toNat = number * 2
    exact UInt32.toNat_ofNat_of_lt (show number * 2 < 2 ^ 32 by omega)
  have stable : StableSort.IsStableSort (compareRows order) rows
      [row (.int 2) "b", row (.int 1) "a", row (.int 1) "c", row (.int 1) "d", row (.int 0) "e"] :=
    ⟨[(row (.int 2) "b", 1), (row (.int 1) "a", 0), (row (.int 1) "c", 2), (row (.int 1) "d", 3), (row (.int 0) "e", 4)],
      by decide, by decide, rfl⟩
  have tiled := (pages_tile rows order 2 (by decide) 2 (by decide)).2 pages ask
  rw [selectRows_of_isStableSort stable] at tiled
  exact ⟨by decide, by decide, ask, tiled⟩

end RowAlgebra.Proofs.PageTiling
