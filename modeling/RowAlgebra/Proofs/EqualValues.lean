import RowAlgebra.Proofs.FilterTrace
import RowAlgebra.Proofs.SortOrder

/-! Equal values can stand for each other. An integer and a float of one number are values
of two kinds, and every comparison takes another branch for them; but no filter and no order
clause tells them apart, whatever they are compared with. -/

namespace RowAlgebra.Proofs.EqualValues
open Value SortOrder

/-- All that evaluation looks at in two values is the same. -/
structure Alike (a b : Value) : Prop where
  isNull : a.isNull = b.isNull
  text : a.text? = b.text?
  equality : ∀ other, a.compareEq? other = b.compareEq? other
  order : ∀ other, a.compareOrder? other = b.compareOrder? other
  level : sortOrder (some a) (some b) = .eq

variable {a b : Value}

theorem Alike.refl (a : Value) : Alike a a := ⟨rfl, rfl, fun _ => rfl, fun _ => rfl, Std.ReflCmp.compare_self⟩

theorem numeric_cases (numeric : a.isNumeric = true) : (∃ n, a = .int n) ∨ ∃ x, a = .float x := by
  cases a
  case int n => exact .inl ⟨n, rfl⟩
  case float x => exact .inr ⟨x, rfl⟩
  all_goals cases numeric

theorem compareOrder?_numeric (first : a.isNumeric = true) (second : b.isNumeric = true) :
    compareOrder? a b = some (sortOrder (some a) (some b)) := by
  rcases numeric_cases first with ⟨m, rfl⟩ | ⟨x, rfl⟩
  all_goals
    rcases numeric_cases second with ⟨n, rfl⟩ | ⟨y, rfl⟩
    all_goals rfl

theorem incomparable (first : a.isNumeric = true) (second : b.isNumeric = false) :
    compareOrder? a b = none ∧ compareEq? a b = none := by
  rcases numeric_cases first with ⟨m, rfl⟩ | ⟨x, rfl⟩
  all_goals
    cases b
    case int | float => cases second
    all_goals exact ⟨rfl, rfl⟩

theorem alike_of_numeric (first : a.isNumeric = true) (second : b.isNumeric = true)
    (level : sortOrder (some a) (some b) = .eq) : Alike a b := by
  have order (other : Value) : a.compareOrder? other = b.compareOrder? other := by
    cases numeric : other.isNumeric with
    | true =>
      rw [compareOrder?_numeric first numeric, compareOrder?_numeric second numeric, Std.TransCmp.congr_left level]
    | false => rw [(incomparable first numeric).1, (incomparable second numeric).1]
  have equality (other : Value) : a.compareEq? other = b.compareEq? other := by
    cases numeric : other.isNumeric with
    | true => simp only [compareEq?, first, second, numeric, order, Bool.and_self, if_true]
    | false => rw [(incomparable first numeric).2, (incomparable second numeric).2]
  have silent {value : Value} (numeric : value.isNumeric = true) : value.isNull = false ∧ value.text? = none := by
    rcases numeric_cases numeric with ⟨n, rfl⟩ | ⟨x, rfl⟩
    all_goals exact ⟨rfl, rfl⟩
  obtain ⟨noNull, noText⟩ := silent first
  obtain ⟨noNull', noText'⟩ := silent second
  exact ⟨noNull.trans noNull'.symm, noText.trans noText'.symm, equality, order, level⟩

/-- Equal values are one value, or two spellings of one number. -/
theorem alike_of_equal (equal : a.compareEq? b = some true) : Alike a b := by
  rw [compareEq?] at equal
  split at equal
  next numeric =>
    obtain ⟨first, second⟩ := Bool.and_eq_true_iff.mp numeric
    rw [compareOrder?_numeric first second, Option.map_some, Option.some.injEq, beq_iff_eq] at equal
    exact alike_of_numeric first second equal
  next =>
    split at equal
    next =>
      have same : a = b := beq_iff_eq.mp (Option.some.inj equal)
      exact same ▸ Alike.refl a
    next => cases equal

theorem Alike.comparison (alike : Alike a b) (op : Comparison) (operand : Value) :
    op.holds a operand = op.holds b operand := by
  simp only [Comparison.holds, alike.isNull, alike.equality, alike.order]

theorem Alike.membership (alike : Alike a b) (op : Membership) (operands : List Value) :
    op.holds a operands = op.holds b operands := by
  simp only [Membership.holds, alike.isNull, alike.equality]

theorem Alike.pattern (alike : Alike a b) (op : PatternTest) (wanted : Like.Pattern) (escape : Char) :
    op.holds a wanted escape = op.holds b wanted escape := by
  simp only [PatternTest.holds, alike.text]

theorem Alike.condition (alike : Alike a b) (condition : Condition) : condition.holds a = condition.holds b := by
  cases condition with
  | comparison op operand => exact alike.comparison op operand
  | membership op operands => exact alike.membership op operands
  | pattern op wanted escape => exact alike.pattern op wanted escape

def Equated (first second : Row) : Prop :=
  ∀ name, first.get? name = none ∧ second.get? name = none ∨
    ∃ a b, first.get? name = some a ∧ second.get? name = some b ∧ a.compareEq? b = some true

variable {first second : Row}

theorem Equated.holds (equated : Equated first second) (test : FieldFilter) : test.holds first = test.holds second := by
  rw [FieldFilter.holds, FieldFilter.holds]
  rcases equated test.field with ⟨missing, missing'⟩ | ⟨a, b, held, held', equal⟩
  · rw [missing, missing']
  · rw [held, held']
    exact (alike_of_equal equal).condition test.condition

theorem Equated.clause (equated : Equated first second) (clause : OrderClause) : clause.compareRows first second = .eq := by
  rw [clause_level_iff]
  rcases equated clause.field with ⟨missing, missing'⟩ | ⟨a, b, held, held', equal⟩
  · rw [missing, missing']
    rfl
  · rw [held, held']
    exact (alike_of_equal equal).level

theorem Equated.compareRows (equated : Equated first second) (clauses : List OrderClause) :
    RowAlgebra.compareRows clauses first second = .eq := by
  induction clauses with
  | nil => rfl
  | cons clause rest ih => rw [RowAlgebra.compareRows, equated.clause, ih, Ordering.eq_then]

/-- Rows with equal values pass the same filters, with the same reports, and stand in the
same order to every other row. -/
theorem equated_indistinguishable {first second : Row} (equated : Equated first second) :
    (∀ filters, Filter.matchesRow filters first = Filter.matchesRow filters second ∧
      (Filter.evaluateAll first filters).2 = (Filter.evaluateAll second filters).2) ∧
    ∀ clauses third, RowAlgebra.compareRows clauses first third = RowAlgebra.compareRows clauses second third ∧
      RowAlgebra.compareRows clauses third first = RowAlgebra.compareRows clauses third second := by
  constructor
  · intro filters
    have same := FilterTrace.evaluateAll_congr equated.holds filters
    exact ⟨congrArg Prod.fst same, congrArg Prod.snd same⟩
  · intro clauses third
    have level := equated.compareRows clauses
    exact ⟨Std.TransCmp.congr_left level, Std.TransCmp.congr_right level⟩

/-- An integer and a float of the same number, next to an integer that no float equals. -/
theorem whole_float_indistinguishable :
    let first : Row := ⟨[("n", .int 9007199254740992), ("note", .null)], by decide⟩
    let second : Row := ⟨[("n", .float (Float64.ofInt64 9007199254740992)), ("note", .null)], by decide⟩
    let third : Row := ⟨[("n", .int 9007199254740993)], by decide⟩
    let filters : List Filter := [.field ⟨"n", .membership .notIn [.int 9007199254740993, .null]⟩]
    Equated first second ∧ first ≠ second ∧ Filter.matchesRow filters first = Filter.matchesRow filters second ∧
      RowAlgebra.compareRows [⟨"n", .desc⟩] first third = RowAlgebra.compareRows [⟨"n", .desc⟩] second third := by
  intro first second third filters
  have equated : Equated first second := by
    intro name
    by_cases number : name = "n"
    · subst number
      exact .inr ⟨_, _, rfl, rfl, by decide +kernel⟩
    · by_cases note : name = "note"
      · subst note
        exact .inr ⟨_, _, rfl, rfl, rfl⟩
      · refine .inl ⟨?_, ?_⟩
        all_goals simp [first, second, Row.get?, List.lookup_cons, beq_false_of_ne number, beq_false_of_ne note]
  have same := equated_indistinguishable equated
  exact ⟨equated, by decide, (same.1 filters).1, (same.2 _ third).1⟩

end RowAlgebra.Proofs.EqualValues
