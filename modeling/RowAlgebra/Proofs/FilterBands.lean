import RowAlgebra.Filter.Evaluation
import RowAlgebra.Proofs.SelectionSlice

/-! Sorting and filtering agree. Rows sorted by a field show the comparisons with an
operand as bands: those below it, those equal to it, those above it, and nothing else in
between. The values that compare with the operand are those of its place among the kinds,
and a sort does not leave a place and come back to it. -/

namespace RowAlgebra.Proofs.FilterBands
open Value SortOrder SelectionSlice StableSort

/-- Every row that passes the one test stands before every row that passes the other. -/
def Before (rows : List Row) (one other : Row → Bool) : Prop :=
  ∀ (i j : Nat) (first second : Row), rows[i]? = some first → rows[j]? = some second →
    one first = true → other second = true → i < j

/-- No row that fails the test stands between two that pass it. -/
def Together (rows : List Row) (test : Row → Bool) : Prop :=
  ∀ (i j k : Nat) (first between last : Row), i < j → j < k →
    rows[i]? = some first → rows[j]? = some between → rows[k]? = some last →
    test first = true → test last = true → test between = true

structure Bands (rows : List Row) (low middle high : Row → Bool) : Prop where
  low_middle : Before rows low middle
  middle_high : Before rows middle high
  low_high : Before rows low high
  together : Together rows fun row => low row || middle row || high row

abbrev Rises (one other : Ordering) : Prop := one = .lt ∨ one = other ∨ other = .gt

theorem rises_swap {one other : Ordering} (rises : Rises other one) : Rises one.swap other.swap := by
  rcases rises with rfl | rfl | rfl
  · exact .inr (.inr rfl)
  · exact .inr (.inl rfl)
  · exact .inl rfl

section Levels

variable {rows : List Row} {follows : Row → Row → Prop} {level : Row → Option Ordering}

theorem before_of_rises (sorted : rows.Pairwise follows)
    (rises : ∀ first second one other, follows first second →
      level first = some one → level second = some other → Rises one other)
    {one other : Ordering} (falls : ¬Rises other one) :
    Before rows (fun row => level row == some one) (fun row => level row == some other) := by
  intro i j first second atFirst atSecond onOne onOther
  rw [beq_iff_eq] at onOne onOther
  rcases Nat.lt_trichotomy i j with before | same | behind
  · exact before
  · subst same
    rw [atFirst, Option.some.injEq] at atSecond
    rw [atSecond, onOther, Option.some.injEq] at onOne
    exact absurd (.inr (.inl onOne)) falls
  · obtain ⟨insideSecond, rfl⟩ := List.getElem?_eq_some_iff.mp atSecond
    obtain ⟨insideFirst, rfl⟩ := List.getElem?_eq_some_iff.mp atFirst
    have order := List.pairwise_iff_getElem.mp sorted j i insideSecond insideFirst behind
    exact absurd (rises _ _ _ _ order onOther onOne) falls

theorem together_of_closed (sorted : rows.Pairwise follows)
    (closed : ∀ first between last, follows first between → follows between last →
      (level first).isSome = true → (level last).isSome = true → (level between).isSome = true) :
    Together rows fun row => (level row).isSome := by
  intro i j k first between last before behind atFirst atBetween atLast onFirst onLast
  obtain ⟨insideFirst, rfl⟩ := List.getElem?_eq_some_iff.mp atFirst
  obtain ⟨insideBetween, rfl⟩ := List.getElem?_eq_some_iff.mp atBetween
  obtain ⟨insideLast, rfl⟩ := List.getElem?_eq_some_iff.mp atLast
  have order := List.pairwise_iff_getElem.mp sorted
  exact closed _ _ _ (order i j insideFirst insideBetween before) (order j k insideBetween insideLast behind) onFirst onLast

/-- Rows whose sides rise, without anything in between, stand in bands. -/
theorem bands_of_rises (sorted : rows.Pairwise follows)
    (rises : ∀ first second one other, follows first second →
      level first = some one → level second = some other → Rises one other)
    (closed : ∀ first between last, follows first between → follows between last →
      (level first).isSome = true → (level last).isSome = true → (level between).isSome = true) :
    Bands rows (fun row => level row == some .lt) (fun row => level row == some .eq) (fun row => level row == some .gt) := by
  refine ⟨before_of_rises sorted rises (by decide), before_of_rises sorted rises (by decide),
    before_of_rises sorted rises (by decide), ?_⟩
  have any : (fun row => level row == some .lt || level row == some .eq || level row == some .gt) =
      fun row => (level row).isSome := by
    funext row
    cases level row with
    | none => rfl
    | some side => cases side <;> rfl
  rw [any]
  exact together_of_closed sorted closed

end Levels

def orderedKinds : List Kind := [.int, .float64, .text, .bool, .blob]

def passes (field : String) (op : Comparison) (operand : Value) (row : Row) : Bool :=
  Filter.matchesRow [.field ⟨field, .comparison op operand⟩] row

/-- On which side of the operand a row is, where it compares with it at all. -/
def side (field : String) (operand : Value) (row : Row) : Option Ordering :=
  (row.get? field).bind (compareOrder? · operand)

def asking : Ordering → Comparison
  | .lt => .lt
  | .eq => .eq
  | .gt => .gt

variable {field : String} {operand : Value}

theorem compareEq?_iff (ordered : operand.kind ∈ orderedKinds) (stored : Value) :
    compareEq? stored operand = some true ↔ compareOrder? stored operand = some .eq := by
  cases operand
  case null | list | map => simp [orderedKinds, Value.kind] at ordered
  all_goals cases stored
  all_goals simp [compareEq?, compareOrder?, isNumeric, Value.kind]

theorem compares_iff (ordered : operand.kind ∈ orderedKinds) (stored : Value) :
    (compareOrder? stored operand).isSome = true ↔ place (some stored) = place (some operand) := by
  cases operand
  case null | list | map => simp [orderedKinds, Value.kind] at ordered
  all_goals cases stored
  all_goals simp [compareOrder?, place, Value.kind, Kind.tag]

theorem holds_asking (ordered : operand.kind ∈ orderedKinds) (stored : Value) (wanted : Ordering) :
    (asking wanted).holds stored operand = (compareOrder? stored operand == some wanted) := by
  have present : operand.isNull = false := by
    cases operand
    case null => simp [orderedKinds, Value.kind] at ordered
    all_goals rfl
  cases missing : stored.isNull with
  | true =>
    have incomparable : compareOrder? stored operand = none := by
      cases stored
      case null => cases operand <;> rfl
      all_goals cases missing
    rw [incomparable]
    cases wanted
    all_goals
      simp only [asking, Comparison.holds, missing, present]
      rfl
  | false =>
    cases wanted with
    | lt | gt =>
      simp only [asking, Comparison.holds, missing, present]
      cases compareOrder? stored operand with
      | none => rfl
      | some found => cases found <;> rfl
    | eq =>
      rw [Bool.eq_iff_iff, beq_iff_eq, ← compareEq?_iff ordered]
      simp [asking, Comparison.holds, missing, present]

theorem passes_asking (ordered : operand.kind ∈ orderedKinds) (wanted : Ordering) :
    passes field (asking wanted) operand = fun row => side field operand row == some wanted := by
  funext row
  rw [passes, Filter.matchesRow_field, FieldFilter.holds, side]
  cases row.get? field with
  | none => rfl
  | some stored => exact holds_asking ordered stored wanted

theorem sortOrder_of_side {row : Row} {found : Ordering} (known : side field operand row = some found) :
    sortOrder (row.get? field) (some operand) = found := by
  obtain ⟨stored, held, compared⟩ := Option.bind_eq_some_iff.mp known
  rw [held]
  rcases compareOrder?_eq stored operand with incomparable | sorts
  · rw [incomparable] at compared
    cases compared
  · rw [sorts] at compared
    exact Option.some.inj compared

theorem rises_of_isLE {first second : Row} {one other : Ordering}
    (follows : (sortOrder (first.get? field) (second.get? field)).isLE = true)
    (onOne : side field operand first = some one) (onOther : side field operand second = some other) :
    Rises one other := by
  have fromFirst := sortOrder_of_side onOne
  have fromSecond := sortOrder_of_side onOther
  cases other with
  | gt => exact .inr (.inr rfl)
  | lt =>
    have less := Std.TransCmp.lt_of_isLE_of_lt follows fromSecond
    exact .inl (fromFirst.symm.trans less)
  | eq =>
    have atMost := Std.TransCmp.isLE_trans follows (by rw [fromSecond, Ordering.isLE_eq])
    rw [fromFirst] at atMost
    cases one with
    | lt => exact .inl rfl
    | eq => exact .inr (.inl rfl)
    | gt => cases atMost

theorem place_mono {first second : Option Value} (follows : (sortOrder first second).isLE = true) :
    place first ≤ place second := by
  rw [sortOrder_eq_keyOrder, keyOrder, compareLex, Ordering.isLE_then_iff_and] at follows
  exact Nat.isLE_compare.mp follows.1

/-- The rows that compare with the operand are those that hold a value of its place. -/
theorem side_isSome (ordered : operand.kind ∈ orderedKinds) (row : Row) :
    (side field operand row).isSome = true ↔ place (row.get? field) = place (some operand) := by
  rw [side]
  cases row.get? field with
  | none =>
    cases operand
    all_goals simp [place, Value.kind, Kind.tag]
  | some stored => exact compares_iff ordered stored

theorem side_isSome_between (ordered : operand.kind ∈ orderedKinds) {first between last : Row}
    (before : (sortOrder (first.get? field) (between.get? field)).isLE = true)
    (behind : (sortOrder (between.get? field) (last.get? field)).isLE = true)
    (onFirst : (side field operand first).isSome = true) (onLast : (side field operand last).isSome = true) :
    (side field operand between).isSome = true := by
  rw [side_isSome ordered] at onFirst onLast ⊢
  have low := place_mono before
  have high := place_mono behind
  omega

theorem bands_ascending (ordered : operand.kind ∈ orderedKinds) {rows : List Row}
    (sorted : rows.Pairwise fun first second => (sortOrder (first.get? field) (second.get? field)).isLE = true) :
    Bands rows (fun row => side field operand row == some .lt) (fun row => side field operand row == some .eq)
      (fun row => side field operand row == some .gt) :=
  bands_of_rises sorted (fun _ _ _ _ => rises_of_isLE) (fun _ _ _ => side_isSome_between ordered)

private theorem beq_swap (found : Option Ordering) (wanted : Ordering) :
    (found == some wanted) = (found.map .swap == some wanted.swap) := by
  cases found with
  | none => rfl
  | some order =>
    cases order
    all_goals
      cases wanted
      all_goals rfl

theorem bands_descending (ordered : operand.kind ∈ orderedKinds) {rows : List Row}
    (sorted : rows.Pairwise fun first second => (sortOrder (second.get? field) (first.get? field)).isLE = true) :
    Bands rows (fun row => side field operand row == some .gt) (fun row => side field operand row == some .eq)
      (fun row => side field operand row == some .lt) := by
  have turned (wanted : Ordering) : (fun row => side field operand row == some wanted) =
      fun row => (side field operand row).map .swap == some wanted.swap := funext fun row => beq_swap _ wanted
  rw [turned .gt, turned .eq, turned .lt]
  refine bands_of_rises sorted ?_ ?_
  · intro first second one other follows onOne onOther
    obtain ⟨above, onAbove, rfl⟩ := Option.map_eq_some_iff.mp onOne
    obtain ⟨below, onBelow, rfl⟩ := Option.map_eq_some_iff.mp onOther
    exact rises_swap (rises_of_isLE follows onBelow onAbove)
  · intro first between last before behind onFirst onLast
    rw [Option.isSome_map] at onFirst onLast ⊢
    exact side_isSome_between ordered behind before onLast onFirst

theorem arranged_pairwise (clause : OrderClause) (rest : List OrderClause) (rows : List Row) :
    (arranged (clause :: rest) rows).Pairwise fun first second => (clause.compareRows first second).isLE = true := by
  refine (isStableSort_arranged (clause :: rest) rows).pairwise.imp ?_
  intro first second follows
  exact (Ordering.isLE_then_iff_and.mp follows).1

/-- A sort whose first clause is on a field shows the comparisons of that field as bands,
from below to above if the clause ascends, and from above to below if it descends. -/
theorem selectRows_bands (field : String) (rest : List OrderClause) (rows : List Row) (operand : Value)
    (ordered : operand.kind ∈ orderedKinds) :
    Bands (selectRows (.orderBy ⟨field, .asc⟩ :: rest.map .orderBy) rows).1
      (passes field .lt operand) (passes field .eq operand) (passes field .gt operand) ∧
    Bands (selectRows (.orderBy ⟨field, .desc⟩ :: rest.map .orderBy) rows).1
      (passes field .gt operand) (passes field .eq operand) (passes field .lt operand) := by
  have below : passes field .lt operand = _ := passes_asking ordered .lt
  have equal : passes field .eq operand = _ := passes_asking ordered .eq
  have above : passes field .gt operand = _ := passes_asking ordered .gt
  rw [below, equal, above, ← List.map_cons, ← List.map_cons, selectRows_orderBy, selectRows_orderBy]
  refine ⟨bands_ascending ordered (arranged_pairwise ⟨field, .asc⟩ rest rows), bands_descending ordered ?_⟩
  refine (arranged_pairwise ⟨field, .desc⟩ rest rows).imp ?_
  intro first second follows
  have turned : sortOrder (second.get? field) (first.get? field) =
      (sortOrder (first.get? field) (second.get? field)).swap := Std.OrientedCmp.eq_swap
  rw [turned]
  exact follows

/-- An integer among a missing field, a null, a list and a text. -/
theorem mixed_rows_bands :
    let row (value : Value) : Row := Row.ofList [("n", value)]
    let rows := [row (.text "3"), row (.int 7), ∅, row (.list []), row (.int 3), row .null, row (.int 2)]
    let sorted := [∅, row .null, row (.int 2), row (.int 3), row (.int 7), row (.list []), row (.text "3")]
    Kind.int ∈ orderedKinds ∧ (selectRows [.orderBy ⟨"n", .asc⟩] rows).1 = sorted ∧
      Bands sorted (passes "n" .lt (.int 3)) (passes "n" .eq (.int 3)) (passes "n" .gt (.int 3)) := by
  intro row rows sorted
  have stable : IsStableSort (compareRows [⟨"n", .asc⟩]) rows sorted := by
    refine ⟨[(∅, 2), (row .null, 5), (row (.int 2), 6), (row (.int 3), 4), (row (.int 7), 1), (row (.list []), 3),
      (row (.text "3"), 0)], ?_, ?_, rfl⟩
    · decide
    · decide
  have arrangement : (selectRows [.orderBy ⟨"n", .asc⟩] rows).1 = sorted := selectRows_of_isStableSort stable
  exact ⟨by decide, arrangement, arrangement ▸ (selectRows_bands "n" [] rows (.int 3) (by decide)).1⟩

end RowAlgebra.Proofs.FilterBands
