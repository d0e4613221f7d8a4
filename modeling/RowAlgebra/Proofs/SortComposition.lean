import Mathlib.Data.List.Perm.Basic
import RowAlgebra.Proofs.SelectionSlice

/-! Sorting twice. A stable sort leaves what its comparator calls equal in the order that an
earlier sort gave it, so two sorts in turn are one sort, by the clauses of the later one and
then by those of the earlier one. A clause on a field that a clause in front sorts by finds
nothing left to decide. -/

namespace RowAlgebra.Proofs.SortComposition
open StableSort SelectionSlice

theorem exists_perm_of_perm_map {f : α → β} {items : List α} {images : List β} (perm : images.Perm (items.map f)) :
    ∃ others : List α, images = others.map f ∧ others.Perm items :=
  (congrFun₂ (List.eq_map_comp_perm f) images items).mpr perm

/-- Sorting by the minor order first leaves its mark where the major one does not decide. Each
element goes with its position among the items and with that after the first sort. -/
theorem isStableSort_compareLex {major minor : α → α → Ordering} {items middle sorted : List α}
    (first : IsStableSort minor items middle) (second : IsStableSort major middle sorted) :
    IsStableSort (compareLex major minor) items sorted := by
  obtain ⟨arranged, rearranged, ordered, rfl⟩ := first
  obtain ⟨positioned, repositioned, reordered, rfl⟩ := second
  rw [List.zipIdx_map] at repositioned
  obtain ⟨located, rfl, relocated⟩ := exists_perm_of_perm_map repositioned
  refine ⟨located.map Prod.fst, ?_, ?_, ?_⟩
  · have stripped := relocated.map Prod.fst
    rw [List.zipIdx_map_fst] at stripped
    exact stripped.trans rearranged
  · refine List.pairwise_map.mpr ((List.pairwise_map.mp reordered).imp_of_mem ?_)
    intro one other memberOne memberOther precedes
    have atOne := List.mem_zipIdx_iff_getElem?.mp (relocated.mem_iff.mp memberOne)
    have atOther := List.mem_zipIdx_iff_getElem?.mp (relocated.mem_iff.mp memberOther)
    obtain ⟨inside, hereOne⟩ := List.getElem?_eq_some_iff.mp atOne
    obtain ⟨inside', hereOther⟩ := List.getElem?_eq_some_iff.mp atOther
    rcases precedes with less | ⟨level, before⟩
    · change major one.1.1 other.1.1 = .lt at less
      exact .inl (by rw [compareLex, less, Ordering.lt_then])
    · change major one.1.1 other.1.1 = .eq at level
      have decided := List.pairwise_iff_getElem.mp ordered _ _ inside inside' before
      rw [hereOne, hereOther] at decided
      rwa [Precedes, compareLex, level, Ordering.eq_then]
  · simp

theorem compareRows_append (major minor : List OrderClause) :
    compareRows (major ++ minor) = compareLex (compareRows major) (compareRows minor) := by
  funext first second
  induction major with
  | nil => rfl
  | cons clause rest ih =>
    rw [List.cons_append, compareRows, ih]
    exact (Ordering.then_assoc _ _ _).symm

theorem arranged_arranged (major minor : List OrderClause) (rows : List Row) :
    arranged major (arranged minor rows) = arranged (major ++ minor) rows := by
  have stable := isStableSort_compareLex (isStableSort_arranged minor rows) (isStableSort_arranged major _)
  rw [← compareRows_append] at stable
  exact stable.unique (isStableSort_arranged _ rows)

theorem level_of_mem {clauses : List OrderClause} {clause : OrderClause} {first second : Row}
    (member : clause ∈ clauses) (level : compareRows clauses first second = .eq) :
    clause.compareRows first second = .eq := by
  induction clauses with
  | nil => cases member
  | cons head rest ih =>
    rw [compareRows, Ordering.then_eq_eq] at level
    rcases List.mem_cons.mp member with rfl | member
    · exact level.1
    · exact ih member level.2

theorem compareRows_append_cons {clauses : List OrderClause} {earlier : OrderClause} (member : earlier ∈ clauses)
    (later : OrderClause) (same : later.field = earlier.field) (behind : List OrderClause) :
    compareRows (clauses ++ later :: behind) = compareRows (clauses ++ behind) := by
  rw [compareRows_append, compareRows_append]
  funext first second
  rw [compareLex, compareLex]
  cases level : compareRows clauses first second with
  | lt | gt => rfl
  | eq =>
    have undecided := SortOrder.clause_level_iff.mp (level_of_mem member level)
    rw [← same] at undecided
    rw [compareRows, SortOrder.clause_level_iff.mpr undecided, Ordering.eq_then]

theorem compareRows_append_self (clauses : List OrderClause) : compareRows (clauses ++ clauses) = compareRows clauses := by
  rw [compareRows_append]
  funext first second
  rw [compareLex]
  cases compareRows clauses first second
  all_goals rfl

theorem arranged_congr {clauses others : List OrderClause} (same : compareRows clauses = compareRows others)
    (rows : List Row) : arranged clauses rows = arranged others rows := by
  rw [arranged, arranged, same]

/-- Rows selected by one list of order clauses and then by another are the rows selected by
both at once: the one stable sort of the rows by both lists, the later one weighing more. So
selecting again by the same clauses changes nothing, and neither does a clause on a field
that a clause in front of it is on. -/
theorem selectRows_twice (rows : List Row) :
    (∀ major minor : List OrderClause,
      let twice := (selectRows (major.map .orderBy) (selectRows (minor.map .orderBy) rows).1).1
      twice = (selectRows (major.map .orderBy ++ minor.map .orderBy) rows).1 ∧
        ∀ other, IsStableSort (compareRows (major ++ minor)) rows other ↔ other = twice) ∧
    (∀ clauses : List OrderClause,
      (selectRows (clauses.map .orderBy) (selectRows (clauses.map .orderBy) rows).1).1 =
        (selectRows (clauses.map .orderBy) rows).1) ∧
    ∀ (field : String) (one other : Direction) (front middle behind : List OrderClause),
      (selectRows ((front ++ ⟨field, one⟩ :: middle ++ ⟨field, other⟩ :: behind).map .orderBy) rows).1 =
        (selectRows ((front ++ ⟨field, one⟩ :: middle ++ behind).map .orderBy) rows).1 := by
  refine ⟨fun major minor => ?_, fun clauses => ?_, fun field one other front middle behind => ?_⟩
  · rw [← List.map_append]
    simp only [selectRows_orderBy, arranged_arranged, true_and]
    exact fun other => isStableSort_iff
  · simp only [selectRows_orderBy]
    rw [arranged_arranged]
    exact arranged_congr (compareRows_append_self clauses) rows
  · simp only [selectRows_orderBy]
    have member : (⟨field, one⟩ : OrderClause) ∈ front ++ ⟨field, one⟩ :: middle := by simp
    exact arranged_congr (compareRows_append_cons member ⟨field, other⟩ rfl behind) rows

/-- Three rows of one group, two of which have one number as well, between a row without a
group and one whose group is a text. -/
theorem mixed_rows_sorted_twice :
    let row (group number : Value) : Row := Row.ofList [("group", group), ("number", number)]
    let a := row (.int 1) (.int 2)
    let b := row (.float (Float64.ofInt64 1)) (.text "x")
    let c := Row.ofList [("number", .null)]
    let d := row (.int 1) (.float (Float64.ofInt64 2))
    let e := row (.text "y") (.int 2)
    let group : OrderClause := ⟨"group", .asc⟩
    let number : OrderClause := ⟨"number", .desc⟩
    (selectRows [.orderBy number] [a, b, c, d, e]).1 = [b, a, d, e, c] ∧
      (selectRows [.orderBy group] [b, a, d, e, c]).1 = [c, b, a, d, e] ∧
      (selectRows [.orderBy group, .orderBy number] [a, b, c, d, e]).1 = [c, b, a, d, e] ∧
      (selectRows [.orderBy group, .orderBy number] [c, b, a, d, e]).1 = [c, b, a, d, e] ∧
      (selectRows [.orderBy group, .orderBy number, .orderBy ⟨"group", .desc⟩] [a, b, c, d, e]).1 = [c, b, a, d, e] := by
  intro row a b c d e group number
  have byNumber : IsStableSort (compareRows [number]) [a, b, c, d, e] [b, a, d, e, c] :=
    ⟨[(b, 1), (a, 0), (d, 3), (e, 4), (c, 2)], by decide +kernel, by decide +kernel, rfl⟩
  have byBoth : IsStableSort (compareRows ([group] ++ [number])) [a, b, c, d, e] [c, b, a, d, e] :=
    ⟨[(c, 2), (b, 1), (a, 0), (d, 3), (e, 4)], by decide +kernel, by decide +kernel, rfl⟩
  obtain ⟨composed, repeated, decided⟩ := selectRows_twice [a, b, c, d, e]
  obtain ⟨both, sole⟩ := composed [group] [number]
  have first : (selectRows [.orderBy number] [a, b, c, d, e]).1 = [b, a, d, e, c] :=
    selectRows_of_isStableSort byNumber
  have second : (selectRows [.orderBy group] [b, a, d, e, c]).1 = [c, b, a, d, e] := by
    rw [← first]
    exact ((sole _).mp byBoth).symm
  have once : (selectRows [.orderBy group, .orderBy number] [a, b, c, d, e]).1 = [c, b, a, d, e] :=
    both.symm.trans ((sole _).mp byBoth).symm
  refine ⟨first, second, once, ?_, (decided "group" .asc .desc [] [number] []).trans once⟩
  simpa only [List.map_cons, List.map_nil, once] using repeated [group, number]

end RowAlgebra.Proofs.SortComposition
