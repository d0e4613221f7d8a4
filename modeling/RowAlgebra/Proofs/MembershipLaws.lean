import Mathlib.Data.List.Perm.Basic
import RowAlgebra.Field
import RowAlgebra.Proofs.FilterBands
import RowAlgebra.Proofs.FilterTrace

/-! Membership in a set of operands, its negation, and having no value at all part the rows
between them. A row that has a value stands inside of a set or outside of it; it stands inside
if it passes the comparison with one of the operands, whatever their order and however often
they are given. -/

namespace RowAlgebra.Proofs.MembershipLaws
open RowAlgebra.Filter Value FilterBands

/-- Parts of a list that keep its order and share nothing, and that lose and repeat nothing. -/
structure Partitions (parts : List (List α)) (whole : List α) : Prop where
  complete : parts.flatten.Perm whole
  ordered : ∀ part ∈ parts, part.Sublist whole
  disjoint : parts.Pairwise List.Disjoint

section Labels

variable [DecidableEq β] (label : α → β) (whole : List α)

private theorem perm_labelled (labels : List β) (distinct : labels.Nodup) :
    (labels.map fun name => whole.filter (label · = name)).flatten.Perm (whole.filter (label · ∈ labels)) := by
  induction labels with
  | nil => simp
  | cons name labels ih =>
    obtain ⟨new, distinct⟩ := List.nodup_cons.mp distinct
    let known := whole.filter (label · ∈ name :: labels)
    have first : known.filter (label · = name) = whole.filter (label · = name) := by
      rw [List.filter_filter]
      apply List.filter_congr
      intro a _
      by_cases named : label a = name
      all_goals simp [named]
    have others : known.filter (fun a => !decide (label a = name)) = whole.filter (label · ∈ labels) := by
      rw [List.filter_filter]
      apply List.filter_congr
      intro a _
      by_cases named : label a = name
      all_goals simp [named, new]
    have parted := List.filter_append_perm (fun a => decide (label a = name)) known
    rw [first, others] at parted
    exact ((ih distinct).append_left _).trans parted

theorem partitions_labelled (labels : List β) (distinct : labels.Nodup) (known : ∀ a ∈ whole, label a ∈ labels) :
    Partitions (labels.map fun name => whole.filter (label · = name)) whole := by
  constructor
  case complete =>
    have all : whole.filter (label · ∈ labels) = whole :=
      List.filter_eq_self.mpr fun a member => decide_eq_true (known a member)
    exact (perm_labelled label whole labels distinct).trans (.of_eq all)
  case ordered =>
    intro part member
    obtain ⟨name, -, rfl⟩ := List.mem_map.mp member
    exact List.filter_sublist
  case disjoint =>
    refine List.pairwise_map.mpr (distinct.imp ?_)
    intro one other different a inOne inOther
    apply different
    rw [← of_decide_eq_true (List.mem_filter.mp inOne).2, ← of_decide_eq_true (List.mem_filter.mp inOther).2]

end Labels

def member (field : String) (op : Membership) (operands : List Value) : Filter :=
  .field ⟨field, .membership op operands⟩

def finds (operands : List Value) (stored : Value) : Bool := operands.any (compareEq? stored · == some true)

/-- Whether the value of a row is found among the operands, if the row has a value at all. -/
def standing (field : String) (operands : List Value) (row : Row) : Option Bool :=
  ((row.get? field).filter (!·.isNull)).map (finds operands)

def Absent (field : String) (row : Row) : Prop := row.get? field = none ∨ row.get? field = some .null

instance (field : String) (row : Row) : Decidable (Absent field row) := inferInstanceAs (Decidable (_ ∨ _))

variable {field : String} {operands : List Value} {row : Row}

theorem holds_member (op : Membership) (stored : Value) :
    op.holds stored operands = (!stored.isNull && finds operands stored == (op == .isIn)) := by
  cases op with
  | isIn => exact congrArg (!stored.isNull && ·) (beq_true (finds operands stored)).symm
  | notIn => exact congrArg (!stored.isNull && ·) (beq_false (finds operands stored)).symm

theorem matches_member (op : Membership) :
    matchesRow [member field op operands] row = (standing field operands row == some (op == .isIn)) := by
  rw [member, matchesRow_field, FieldFilter.holds, standing]
  cases row.get? field with
  | none => rfl
  | some stored =>
    rw [Option.any_some, Condition.holds, holds_member, Option.filter_some]
    cases stored.isNull
    all_goals rfl

theorem standing_eq_none_iff (operands : List Value) : standing field operands row = none ↔ Absent field row := by
  rw [standing, Option.map_eq_none_iff, Option.filter_eq_none_iff, Absent]
  cases row.get? field with
  | none => simp
  | some stored => simp [isNull_iff]

theorem finds_congr {others : List Value} (same : ∀ operand, operand ∈ others ↔ operand ∈ operands) :
    finds others = finds operands := by
  funext stored
  rw [Bool.eq_iff_iff, finds, finds, List.any_eq_true, List.any_eq_true]
  simp only [same]

theorem matches_append (more : List Value) :
    matchesRow [member field .isIn (operands ++ more)] row =
        (matchesRow [member field .isIn operands] row || matchesRow [member field .isIn more] row) ∧
      matchesRow [member field .notIn (operands ++ more)] row =
        (matchesRow [member field .notIn operands] row && matchesRow [member field .notIn more] row) := by
  have together (stored : Value) : finds (operands ++ more) stored = (finds operands stored || finds more stored) :=
    List.any_append
  simp only [matches_member, standing]
  cases (row.get? field).filter (!·.isNull) with
  | none => exact ⟨rfl, rfl⟩
  | some stored =>
    simp only [Option.map_some, together]
    cases finds operands stored
    all_goals
      cases finds more stored
      all_goals exact ⟨rfl, rfl⟩

/-- Membership leaves out stored nulls, and the comparison leaves out null operands; the pairs that
are left are the same. -/
theorem equals_iff (stored operand : Value) :
    stored.isNull = false ∧ compareEq? stored operand = some true ↔
      operand ≠ .null ∧ Comparison.holds .eq stored operand = true := by
  by_cases nothing : operand = .null
  · subst nothing
    cases stored
    all_goals simp [isNull, compareEq?, isNumeric, Value.kind]
  · simp only [Comparison.holds, isNull_eq_false_iff.mpr nothing]
    cases stored.isNull
    all_goals simp [nothing]

theorem holds_isIn_iff {stored : Value} :
    Membership.holds .isIn stored operands = true ↔
      ∃ operand ∈ operands, operand ≠ .null ∧ Comparison.holds .eq stored operand = true := by
  change (!stored.isNull && finds operands stored) = true ↔ _
  rw [Bool.and_eq_true_iff, Bool.not_eq_true', finds, List.any_eq_true]
  simp only [beq_iff_eq, ← equals_iff]
  constructor
  · intro ⟨value, operand, given, equal⟩
    exact ⟨operand, given, value, equal⟩
  · intro ⟨operand, given, value, equal⟩
    exact ⟨value, operand, given, equal⟩

theorem inside_iff : matchesRow [member field .isIn operands] row = true ↔
    ∃ operand ∈ operands, operand ≠ .null ∧ passes field .eq operand row = true := by
  simp only [member, passes, matchesRow_field, FieldFilter.holds]
  cases row.get? field with
  | none => simp
  | some stored => exact holds_isIn_iff

theorem matchesRow_eq_valueAll (filters : List Filter) (row : Row) :
    matchesRow filters row = FilterTrace.valueAll (FieldFilter.holds · row) filters := by
  obtain ⟨reached, -, evaluated⟩ := FilterTrace.evaluateAll_traces row filters
  rw [matchesRow, evaluated]

theorem matchesRow_either (left right : List Filter) (row : Row) :
    matchesRow (Filter.either left right) row = (matchesRow left row || matchesRow right row) := by
  simp only [matchesRow_eq_valueAll, Filter.either, FilterTrace.valueAll, FilterTrace.value, Bool.and_true]

theorem matchesRow_pair (first second : Filter) (row : Row) :
    matchesRow [first, second] row = (matchesRow [first] row && matchesRow [second] row) := by
  simp only [matchesRow_eq_valueAll, FilterTrace.valueAll, Bool.and_true]

structure Divides (field : String) (operands : List Value) : Prop where
  inside : ∀ row, matchesRow [member field .isIn operands] row = true ↔
    ∃ operand ∈ operands, operand ≠ .null ∧ passes field .eq operand row = true
  outside : ∀ row, matchesRow [member field .notIn operands] row = true ↔
    ¬Absent field row ∧ matchesRow [member field .isIn operands] row = false
  partition : ∀ rows, Partitions
    [(select [member field .isIn operands] rows).1, (select [member field .notIn operands] rows).1,
      rows.filter (Absent field)] rows
  union : ∀ more row, matchesRow [member field .isIn (operands ++ more)] row =
    matchesRow (Filter.either [member field .isIn operands] [member field .isIn more]) row
  intersection : ∀ more row, matchesRow [member field .notIn (operands ++ more)] row =
    matchesRow [member field .notIn operands, member field .notIn more] row
  extensional : ∀ others, (∀ operand, operand ∈ others ↔ operand ∈ operands) →
    ∀ op row, matchesRow [member field op others] row = matchesRow [member field op operands] row

/-- Membership is equality with one of the operands, its negation is the rest of the rows that
have a value, and the operands count as a set. -/
theorem membership_divides (field : String) (operands : List Value) : Divides field operands := by
  constructor
  case inside => exact fun _ => inside_iff
  case outside =>
    intro row
    rw [matches_member, matches_member, ← standing_eq_none_iff operands]
    rcases standing field operands row with _ | (_ | _)
    all_goals decide
  case partition =>
    intro rows
    have tests (op : Membership) : matchesRow [member field op operands] =
        fun row => decide (standing field operands row = some (op == .isIn)) :=
      funext fun row => (matches_member op).trans (beq_eq_decide ..)
    have sides : ∀ row ∈ rows, standing field operands row ∈ [some true, some false, none] := by
      intro row _
      rcases standing field operands row with _ | (_ | _)
      all_goals decide
    have parts := partitions_labelled (standing field operands) rows [some true, some false, none] (by decide) sides
    rw [select_eq_filter, select_eq_filter, tests, tests]
    simp only [List.map, standing_eq_none_iff] at parts
    exact parts
  case union =>
    intro more row
    rw [matchesRow_either]
    exact (matches_append more).1
  case intersection =>
    intro more row
    rw [matchesRow_pair]
    exact (matches_append more).2
  case extensional =>
    intro others same op row
    rw [matches_member, matches_member, standing, standing, finds_congr same]

/-- Operands with a null and a repetition, for rows of several kinds. -/
theorem mixed_rows_divide :
    let row (value : Value) : Row := Row.ofList [("n", value)]
    let operands : List Value := [.null, .int 2, .text "3", .int 2]
    let two : Value := .float (Float64.ofInt64 2)
    Partitions [[row (.text "3"), row two], [row (.list []), row (.int 3)], [∅, row .null]]
        [row (.text "3"), ∅, row two, row .null, row (.list []), row (.int 3)] ∧
      matchesRow [member "n" .isIn [.text "3", .int 2, .null]] (row two) =
        matchesRow [member "n" .isIn operands] (row two) := by
  intro row operands two
  let rows := [row (.text "3"), ∅, row two, row .null, row (.list []), row (.int 3)]
  have divides := membership_divides "n" operands
  constructor
  · have parts := divides.partition rows
    have inside : (select [member "n" .isIn operands] rows).1 = [row (.text "3"), row two] := by decide +kernel
    have outside : (select [member "n" .notIn operands] rows).1 = [row (.list []), row (.int 3)] := by decide +kernel
    rw [inside, outside] at parts
    exact parts
  · apply divides.extensional
    intro operand
    simp only [operands, List.mem_cons, List.not_mem_nil, or_false]
    grind

end RowAlgebra.Proofs.MembershipLaws
