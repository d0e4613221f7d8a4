import RowAlgebra.Event
import RowAlgebra.Like.Match
import RowAlgebra.Row.Basic
import RowAlgebra.Value.Order

/-! Evaluating filters on a row. A conjunction stops at its first failure, and the right
branch of a disjunction is looked at only if the left one failed; each field filter looked
at is reported, in order. A comparison that is not defined for the stored value fails. -/

namespace RowAlgebra

/-- Comparing with null asks for presence; apart from that null compares with nothing. -/
def Comparison.holds (op : Comparison) (stored operand : Value) : Bool :=
  match op, stored.isNull, operand.isNull with
  | .eq, storedNull, true => storedNull
  | .ne, storedNull, true => !storedNull
  | _, true, _ | _, _, true => false
  | .eq, _, _ => stored.compareEq? operand == some true
  | .ne, _, _ => stored.compareEq? operand == some false
  | .lt, _, _ => (stored.compareOrder? operand).any (·.isLT)
  | .le, _, _ => (stored.compareOrder? operand).any (·.isLE)
  | .gt, _, _ => (stored.compareOrder? operand).any (·.isGT)
  | .ge, _, _ => (stored.compareOrder? operand).any (·.isGE)

/-- A null is in no set, and outside of none. -/
def Membership.holds (op : Membership) (stored : Value) (operands : List Value) : Bool :=
  let found := operands.any fun operand => stored.compareEq? operand == some true
  !stored.isNull && match op with
    | .isIn => found
    | .notIn => !found

def PatternTest.holds (op : PatternTest) (stored : Value) (pattern : Like.Pattern) (escape : Char) : Bool :=
  match stored.text? with
  | none => false
  | some content =>
    match op with
    | .like => Like.isMatch content pattern.text escape
    | .notLike => !Like.isMatch content pattern.text escape

def Condition.holds (condition : Condition) (stored : Value) : Bool :=
  match condition with
  | comparison op operand => op.holds stored operand
  | membership op operands => op.holds stored operands
  | pattern op wanted escape => op.holds stored wanted escape

/-- A missing field passes no filter. -/
def FieldFilter.holds (test : FieldFilter) (row : Row) : Bool :=
  (row.get? test.field).any test.condition.holds

def FieldFilter.event (test : FieldFilter) (row : Row) : Event :=
  .filterEvaluated test.field test.condition.operator (test.holds row)

namespace Filter

mutual

/-- The verdict on a row, and the reports on the way to it. -/
def evaluate (row : Row) : Filter → Bool × List Event
  | field test => (test.holds row, [test.event row])
  | or left right =>
    match evaluateAll row left with
    | (true, events) => (true, events)
    | (false, events) =>
      let (matched, more) := evaluateAll row right
      (matched, events ++ more)

/-- All filters of a list have to hold; an empty list always does. -/
def evaluateAll (row : Row) : List Filter → Bool × List Event
  | [] => (true, [])
  | filter :: rest =>
    match evaluate row filter with
    | (false, events) => (false, events)
    | (true, events) =>
      let (matched, more) := evaluateAll row rest
      (matched, events ++ more)

end

def matchesRow (filters : List Filter) (row : Row) : Bool := (evaluateAll row filters).1

/-- The rows that pass, in their order, with the reports on all rows. -/
def select (filters : List Filter) : List Row → List Row × List Event
  | [] => ([], [])
  | row :: rest =>
    let (matched, events) := evaluateAll row filters
    let (kept, more) := select filters rest
    (if matched then row :: kept else kept, events ++ more)

theorem matchesRow_field (test : FieldFilter) (row : Row) : matchesRow [.field test] row = test.holds row := by
  rw [matchesRow, evaluateAll, evaluate]
  cases test.holds row
  all_goals rfl

theorem select_eq_filter (filters : List Filter) (rows : List Row) :
    (select filters rows).1 = rows.filter (matchesRow filters) := by
  induction rows with
  | nil => rfl
  | cons row rest ih =>
    rw [select, List.filter_cons, ← ih]
    rfl

end Filter

end RowAlgebra
