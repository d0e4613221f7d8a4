import Mathlib.Data.List.Sort
import RowAlgebra.Filter.Evaluation

/-! What evaluating a tree of filters answers and what it reports on the way. The answer is
the Boolean value of the tree, as if all of it were looked at. The reports are those on the
field filters that are reached, from left to right: on every level of the tree all filters
in front hold, and a right branch of a disjunction is entered only if its left one fails. -/

namespace RowAlgebra.Proofs.FilterTrace
open RowAlgebra.Filter

variable (leaf : FieldFilter → Bool)

mutual

def value : Filter → Bool
  | .field test => leaf test
  | .or left right => valueAll left || valueAll right

def valueAll : List Filter → Bool
  | [] => true
  | filter :: rest => value filter && valueAll rest

end

inductive Branch where
  | left
  | right

def Branch.number : Branch → Nat
  | left => 0
  | right => 1

/-- The way to a field filter: its index in its list, after the disjunctions that it is
in, each with an index of its own and the branch to take. -/
inductive Place where
  | here (index : Nat)
  | inside (index : Nat) (branch : Branch) (rest : Place)

namespace Place

/-- The numbers along the way. Their lexicographic order is the order from left to right. -/
def path : Place → List Nat
  | here index => [index]
  | inside index branch rest => index :: branch.number :: rest.path

def index : Place → Nat
  | here index => index
  | inside index _ _ => index

def later : Place → Place
  | here index => here (index + 1)
  | inside index branch rest => inside (index + 1) branch rest

end Place

def test? (filters : List Filter) : Place → Option FieldFilter
  | .here index =>
    match filters[index]? with
    | some (.field test) => some test
    | _ => none
  | .inside index branch rest =>
    match filters[index]?, branch with
    | some (.or left _), .left => test? left rest
    | some (.or _ right), .right => test? right rest
    | _, _ => none

/-- Everything in front of the place holds, on each level of the way to it, and what the
way passes by on the left of a disjunction fails. -/
def Reached (filters : List Filter) : Place → Prop
  | .here index => ∀ filter ∈ filters.take index, value leaf filter = true
  | .inside index branch rest =>
    (∀ filter ∈ filters.take index, value leaf filter = true) ∧
      match filters[index]?, branch with
      | some (.or left _), .left => Reached left rest
      | some (.or left right), .right => valueAll leaf left = false ∧ Reached right rest
      | _, _ => False

/-- A field filter stands at the place, and it is reached. -/
def Meets (filters : List Filter) (place : Place) (test : FieldFilter) : Prop :=
  test? filters place = some test ∧ Reached leaf filters place

/-- The field filters that are reached, each with its place, from left to right. -/
structure IsTrace (filters : List Filter) (reached : List (Place × FieldFilter)) : Prop where
  ascending : reached.Pairwise fun first second => first.1.path < second.1.path
  all : ∀ place test, (place, test) ∈ reached ↔ Meets leaf filters place test

variable {leaf} {filters left right rest : List Filter} {filter : Filter} {place : Place} {test found : FieldFilter}

theorem IsTrace.unique {reached other : List (Place × FieldFilter)}
    (trace : IsTrace leaf filters reached) (again : IsTrace leaf filters other) : reached = other := by
  have : Std.Irrefl fun first second : Place × FieldFilter => first.1.path < second.1.path :=
    ⟨fun entry => List.lt_irrefl entry.1.path⟩
  have : Std.Antisymm fun first second : Place × FieldFilter => first.1.path < second.1.path :=
    ⟨fun first second forward backward => absurd backward (List.lt_asymm forward)⟩
  exact trace.ascending.eq_of_mem_iff again.ascending fun entry =>
    (trace.all entry.1 entry.2).trans (again.all entry.1 entry.2).symm

theorem meets_nil : ¬Meets leaf [] place test := by
  intro ⟨stands, _⟩
  cases place
  all_goals simp [test?] at stands

theorem meets_field : Meets leaf [.field found] place test ↔ place = .here 0 ∧ found = test := by
  cases place with
  | here index =>
    cases index with
    | zero => simp [Meets, test?, Reached]
    | succ index => simp [Meets, test?]
  | inside index branch rest =>
    cases index
    all_goals simp [Meets, test?]

theorem meets_or : Meets leaf [.or left right] place test ↔
    (∃ rest, place = .inside 0 .left rest ∧ Meets leaf left rest test) ∨
      valueAll leaf left = false ∧ ∃ rest, place = .inside 0 .right rest ∧ Meets leaf right rest test := by
  cases place with
  | here index =>
    cases index
    all_goals simp [Meets, test?]
  | inside index branch rest =>
    cases index with
    | zero =>
      cases branch
      · simp [Meets, test?, Reached]
      · simp [Meets, test?, Reached, and_left_comm]
    | succ index => simp [Meets, test?]

theorem meets_later :
    Meets leaf (filter :: rest) place.later test ↔ value leaf filter = true ∧ Meets leaf rest place test := by
  cases place with
  | here index => simp [Place.later, Meets, test?, Reached, and_left_comm]
  | inside index branch deeper => simp [Place.later, Meets, test?, Reached, and_left_comm, and_assoc]

theorem first_or_later (place : Place) : place.index = 0 ∨ ∃ earlier : Place, place = earlier.later := by
  rcases place with (_ | index) | ⟨_ | index, branch, deeper⟩
  case here.zero | inside.zero => exact .inl rfl
  case here.succ => exact .inr ⟨.here index, rfl⟩
  case inside.succ => exact .inr ⟨.inside index branch deeper, rfl⟩

theorem meets_first (first : place.index = 0) :
    Meets leaf (filter :: rest) place test ↔ Meets leaf [filter] place test := by
  cases place
  all_goals
    cases first
    exact .rfl

theorem first_of_meets (met : Meets leaf [filter] place test) : place.index = 0 := by
  rcases first_or_later place with first | ⟨earlier, rfl⟩
  · exact first
  · exact absurd (meets_later.mp met).2 meets_nil

theorem meets_cons : Meets leaf (filter :: rest) place test ↔
    Meets leaf [filter] place test ∨
      value leaf filter = true ∧ ∃ earlier, place = earlier.later ∧ Meets leaf rest earlier test := by
  constructor
  · intro met
    rcases first_or_later place with first | ⟨earlier, rfl⟩
    · exact .inl ((meets_first first).mp met)
    · obtain ⟨holds, met⟩ := meets_later.mp met
      exact .inr ⟨holds, earlier, rfl, met⟩
  · rintro (met | ⟨holds, earlier, rfl, met⟩)
    · exact (meets_first (first_of_meets met)).mpr met
    · exact meets_later.mpr ⟨holds, met⟩

variable {reached more : List (Place × FieldFilter)}

def moved (way : Place → Place) (reached : List (Place × FieldFilter)) : List (Place × FieldFilter) :=
  reached.map (Prod.map way id)

theorem mem_moved {way : Place → Place} :
    (place, test) ∈ moved way reached ↔ ∃ earlier, place = way earlier ∧ (earlier, test) ∈ reached := by
  simp only [moved, List.mem_map, Prod.exists, Prod.map_apply, id_eq, Prod.mk.injEq]
  constructor
  · rintro ⟨earlier, met, member, rfl, rfl⟩
    exact ⟨earlier, rfl, member⟩
  · rintro ⟨earlier, rfl, member⟩
    exact ⟨earlier, test, member, rfl, rfl⟩

theorem ascending_moved {way : Place → Place}
    (monotone : ∀ first second : Place, first.path < second.path → (way first).path < (way second).path)
    (ascending : reached.Pairwise fun first second => first.1.path < second.1.path) :
    (moved way reached).Pairwise fun first second => first.1.path < second.1.path :=
  List.pairwise_map.mpr (ascending.imp fun before => monotone _ _ before)

theorem later_lt_later (first second : Place) (before : first.path < second.path) :
    first.later.path < second.later.path := by
  cases first
  all_goals
    cases second
    all_goals simpa [Place.path, Place.later, List.cons_lt_cons_iff] using before

theorem lt_later (first : place.index = 0) (other : Place) : place.path < other.later.path := by
  cases place
  all_goals
    cases first
    cases other
    all_goals simp [Place.path, Place.later, List.cons_lt_cons_iff]

theorem inside_lt_inside (branch : Branch) (first second : Place) (before : first.path < second.path) :
    (Place.inside 0 branch first).path < (Place.inside 0 branch second).path := by
  simpa [Place.path, List.cons_lt_cons_iff] using before

theorem isTrace_nil : IsTrace leaf [] [] := by
  refine ⟨.nil, fun place test => ?_⟩
  simp only [List.not_mem_nil, meets_nil]

theorem isTrace_field : IsTrace leaf [.field test] [(.here 0, test)] := by
  refine ⟨List.pairwise_singleton _ _, fun place other => ?_⟩
  rw [meets_field, List.mem_singleton, Prod.mk.injEq, eq_comm (a := other)]

theorem isTrace_left (holds : valueAll leaf left = true) (trace : IsTrace leaf left reached) :
    IsTrace leaf [.or left right] (moved (.inside 0 .left) reached) := by
  refine ⟨ascending_moved (inside_lt_inside .left) trace.ascending, fun place test => ?_⟩
  simp only [mem_moved, meets_or, holds, trace.all, reduceCtorEq, false_and, or_false]

theorem isTrace_right (fails : valueAll leaf left = false) (trace : IsTrace leaf left reached)
    (others : IsTrace leaf right more) :
    IsTrace leaf [.or left right] (moved (.inside 0 .left) reached ++ moved (.inside 0 .right) more) := by
  refine ⟨List.pairwise_append.mpr ⟨ascending_moved (inside_lt_inside .left) trace.ascending,
    ascending_moved (inside_lt_inside .right) others.ascending, ?_⟩, fun place test => ?_⟩
  · intro first inLeft second inRight
    obtain ⟨one, same, _⟩ := mem_moved.mp inLeft
    obtain ⟨other, same', _⟩ := mem_moved.mp inRight
    simp [same, same', Place.path, Branch.number, List.cons_lt_cons_iff]
  · simp only [List.mem_append, mem_moved, meets_or, fails, trace.all, others.all, true_and]

theorem isTrace_fails (fails : value leaf filter = false) (trace : IsTrace leaf [filter] reached) :
    IsTrace leaf (filter :: rest) reached := by
  refine ⟨trace.ascending, fun place test => ?_⟩
  rw [meets_cons, trace.all, fails]
  simp only [Bool.false_eq_true, false_and, or_false]

theorem isTrace_holds (holds : value leaf filter = true) (trace : IsTrace leaf [filter] reached)
    (others : IsTrace leaf rest more) : IsTrace leaf (filter :: rest) (reached ++ moved .later more) := by
  refine ⟨List.pairwise_append.mpr ⟨trace.ascending, ascending_moved later_lt_later others.ascending, ?_⟩,
    fun place test => ?_⟩
  · intro first inFirst second inRest
    obtain ⟨other, same, _⟩ := mem_moved.mp inRest
    rw [same]
    exact lt_later (first_of_meets ((trace.all first.1 first.2).mp inFirst)) other
  · rw [meets_cons, List.mem_append, mem_moved, trace.all, holds]
    simp only [others.all, true_and]

def report (leaf : FieldFilter → Bool) (entry : Place × FieldFilter) : Event :=
  .filterEvaluated entry.2.field entry.2.condition.operator (leaf entry.2)

theorem map_report_moved (way : Place → Place) (reached : List (Place × FieldFilter)) :
    (moved way reached).map (report leaf) = reached.map (report leaf) := List.map_map

mutual

/-- Evaluation gives the value of a filter, and the reports of its trace. The places of the
trace are those in a list that holds this filter alone. -/
theorem evaluate_traces (row : Row) : (filter : Filter) → ∃ reached,
    IsTrace (FieldFilter.holds · row) [filter] reached ∧
      evaluate row filter = (value (FieldFilter.holds · row) filter, reached.map (report (FieldFilter.holds · row)))
  | .field test => ⟨[(.here 0, test)], isTrace_field, rfl⟩
  | .or left right => by
    obtain ⟨reached, trace, evaluated⟩ := evaluateAll_traces row left
    obtain ⟨more, others, evaluated'⟩ := evaluateAll_traces row right
    rw [evaluate, value, evaluated]
    cases found : valueAll (FieldFilter.holds · row) left with
    | true => exact ⟨_, isTrace_left found trace, by rw [map_report_moved]; rfl⟩
    | false =>
      refine ⟨_, isTrace_right found trace others, ?_⟩
      rw [List.map_append, map_report_moved, map_report_moved]
      simp only [evaluated']
      rfl

theorem evaluateAll_traces (row : Row) : (filters : List Filter) → ∃ reached,
    IsTrace (FieldFilter.holds · row) filters reached ∧
      evaluateAll row filters =
        (valueAll (FieldFilter.holds · row) filters, reached.map (report (FieldFilter.holds · row)))
  | [] => ⟨[], isTrace_nil, rfl⟩
  | filter :: rest => by
    obtain ⟨reached, trace, evaluated⟩ := evaluate_traces row filter
    obtain ⟨more, others, evaluated'⟩ := evaluateAll_traces row rest
    rw [evaluateAll, valueAll, evaluated]
    cases found : value (FieldFilter.holds · row) filter with
    | false => exact ⟨reached, isTrace_fails found trace, rfl⟩
    | true =>
      refine ⟨_, isTrace_holds found trace others, ?_⟩
      rw [List.map_append, map_report_moved]
      simp only [evaluated']
      rfl

end

theorem evaluateAll_congr {first second : Row} (same : ∀ test : FieldFilter, test.holds first = test.holds second)
    (filters : List Filter) : evaluateAll first filters = evaluateAll second filters := by
  have leaves : (FieldFilter.holds · first) = (FieldFilter.holds · second) := funext same
  obtain ⟨reached, trace, evaluated⟩ := evaluateAll_traces first filters
  obtain ⟨reached', trace', evaluated'⟩ := evaluateAll_traces second filters
  rw [← leaves] at trace' evaluated'
  rw [evaluated, evaluated', trace.unique trace']

def EndsFailed (events : List Event) : Prop := ∃ field op, events.getLast? = some (.filterEvaluated field op false)

theorem EndsFailed.append {events : List Event} (ends : EndsFailed events) (before : List Event) :
    EndsFailed (before ++ events) := by
  obtain ⟨field, op, last⟩ := ends
  exact ⟨field, op, by rw [List.getLast?_append, last, Option.some_or]⟩

mutual

theorem endsFailed_evaluate (row : Row) : (filter : Filter) →
    (evaluate row filter).1 = false → EndsFailed (evaluate row filter).2
  | .field test => fun fails => ⟨test.field, test.condition.operator, by
    change [FieldFilter.event test row].getLast? = _
    rw [List.getLast?_singleton, FieldFilter.event, show test.holds row = false from fails]⟩
  | .or left right => by
    rw [evaluate]
    split
    · exact fun impossible => Bool.noConfusion impossible
    · exact fun fails => (endsFailed_evaluateAll row right fails).append _

theorem endsFailed_evaluateAll (row : Row) : (filters : List Filter) →
    (evaluateAll row filters).1 = false → EndsFailed (evaluateAll row filters).2
  | [] => fun impossible => Bool.noConfusion impossible
  | filter :: rest => by
    have first := endsFailed_evaluate row filter
    rw [evaluateAll]
    split
    next evaluated =>
      rw [evaluated] at first
      exact first
    next => exact fun fails => (endsFailed_evaluateAll row rest fails).append _

end

/-- Evaluation answers with the value of the tree, and reports once on each field filter
that is reached, from left to right, with its own value; a failure is the last thing that a
failing tree reports. -/
theorem evaluateAll_answers (row : Row) (filters : List Filter) :
    matchesRow filters row = valueAll (FieldFilter.holds · row) filters ∧
    (∃ reached, (∀ other, IsTrace (FieldFilter.holds · row) filters other ↔ other = reached) ∧
      (evaluateAll row filters).2 = reached.map fun (_, test) =>
        .filterEvaluated test.field test.condition.operator (test.holds row)) ∧
    (matchesRow filters row = false → EndsFailed (evaluateAll row filters).2) := by
  obtain ⟨reached, trace, evaluated⟩ := evaluateAll_traces row filters
  have only (other) : IsTrace (FieldFilter.holds · row) filters other ↔ other = reached := by
    constructor
    · exact fun again => again.unique trace
    · intro same
      rw [same]
      exact trace
  refine ⟨?_, ⟨reached, only, ?_⟩, endsFailed_evaluateAll row filters⟩
  · rw [matchesRow, evaluated]
  · rw [evaluated]
    rfl

/-- The left branch fails at its second filter, the right one holds, and the filter behind
the disjunction fails. -/
theorem failing_disjunction_answers :
    let row : Row := ⟨[("a", .int 1), ("b", .int 2)], by decide⟩
    let test (field : String) (op : Comparison) (operand : Int64) : Filter :=
      .field ⟨field, .comparison op (.int operand)⟩
    let filters := [.or [test "a" .eq 1, test "b" .gt 2, test "a" .ne 7] [test "b" .le 2],
      test "a" .lt 1, test "b" .eq 2]
    matchesRow filters row = false ∧
      (evaluateAll row filters).2 =
        [.filterEvaluated "a" (.comparison .eq) true, .filterEvaluated "b" (.comparison .gt) false,
          .filterEvaluated "b" (.comparison .le) true, .filterEvaluated "a" (.comparison .lt) false] ∧
      EndsFailed (evaluateAll row filters).2 := by
  intro row test filters
  have fails : matchesRow filters row = false := by decide
  exact ⟨fails, by decide, (evaluateAll_answers row filters).2.2 fails⟩

end RowAlgebra.Proofs.FilterTrace
