import RowAlgebra.Proofs.ExactOrder
import RowAlgebra.Proofs.FilterBands
import RowAlgebra.Row.Lemmas

/-! The six comparisons of a field with an operand fit together. Where stored value and
operand share an order, one verdict of it settles all six. Lists and maps can only be equal or
not, a null operand asks for presence, and values of kinds that do not compare pass nothing,
not even the comparison for difference. -/

namespace RowAlgebra.Proofs.ComparisonLaws
open Value SortOrder ExactOrder FilterBands

def ShareOrder (one other : Kind) : Prop :=
  one ∈ [.int, .float64] ∧ other ∈ [.int, .float64] ∨ one = other ∧ one ∈ [.text, .bool, .blob]

instance (one other : Kind) : Decidable (ShareOrder one other) := inferInstanceAs (Decidable (_ ∨ _))

/-- The comparison that says of the operand what this one says of the stored value. -/
def turned : Comparison → Comparison
  | .eq => .eq
  | .ne => .ne
  | .lt => .gt
  | .le => .ge
  | .gt => .lt
  | .ge => .le

/-- The verdicts of an order: one of three, and three that follow. -/
structure Trichotomous (verdict : Comparison → Bool) : Prop where
  exactly : [.lt, .eq, .gt].countP verdict = 1
  le : verdict .le = (verdict .lt || verdict .eq)
  ge : verdict .ge = (verdict .gt || verdict .eq)
  ne : verdict .ne = !verdict .eq

/-- The verdicts of an equality that has no order beside it. -/
structure EqualityOnly (verdict : Comparison → Bool) (equal : Prop) : Prop where
  eq : verdict .eq = true ↔ equal
  ne : verdict .ne = true ↔ ¬equal
  unordered : ∀ op, op ≠ .eq → op ≠ .ne → verdict op = false

/-- What the six comparisons with an operand say of a stored value, by the kinds of the two. -/
structure Fits (stored operand : Value) (verdict : Comparison → Bool) : Prop where
  ordered : ShareOrder stored.kind operand.kind → Trichotomous verdict
  nested : stored.kind = operand.kind → operand.kind ∈ [.list, .map] → EqualityOnly verdict (stored = operand)
  presence : operand = .null → EqualityOnly verdict (stored = .null)
  apart : operand ≠ .null → stored.kind ≠ operand.kind → ¬ShareOrder stored.kind operand.kind →
    ∀ op, verdict op = false

theorem ShareOrder.symm {one other : Kind} (shared : ShareOrder one other) : ShareOrder other one := by
  rcases shared with ⟨first, second⟩ | ⟨rfl, member⟩
  · exact .inl ⟨second, first⟩
  · exact .inr ⟨rfl, member⟩

theorem compareOrder?_isSome_iff (a b : Value) : (compareOrder? a b).isSome = true ↔ ShareOrder a.kind b.kind := by
  cases a
  all_goals
    cases b
    all_goals simp [compareOrder?, ShareOrder, Value.kind]

variable {stored operand : Value}

theorem order_of_shared (shared : ShareOrder stored.kind operand.kind) :
    compareOrder? stored operand = some (sortOrder (some stored) (some operand)) := by
  have compares := (compareOrder?_isSome_iff stored operand).mpr shared
  apply (compareOrder?_eq stored operand).resolve_left
  intro missing
  rw [missing] at compares
  cases compares

theorem order_of_unshared (unshared : ¬ShareOrder stored.kind operand.kind) : compareOrder? stored operand = none := by
  apply Option.not_isSome_iff_eq_none.mp
  exact fun compares => unshared ((compareOrder?_isSome_iff stored operand).mp compares)

def accepts (op : Comparison) (order : Ordering) : Bool :=
  match op with
  | .eq => order == .eq
  | .ne => order != .eq
  | .lt => order.isLT
  | .le => order.isLE
  | .gt => order.isGT
  | .ge => order.isGE

theorem accepts_turned (op : Comparison) (order : Ordering) : accepts (turned op) order.swap = accepts op order := by
  cases op
  all_goals
    cases order
    all_goals rfl

theorem trichotomous_accepts (order : Ordering) : Trichotomous (accepts · order) := by
  cases order
  all_goals exact ⟨rfl, rfl, rfl, rfl⟩

theorem holds_of_order {order : Ordering} (compared : compareOrder? stored operand = some order) (op : Comparison) :
    op.holds stored operand = accepts op order := by
  have present : stored.isNull = false ∧ operand.isNull = false := by
    cases stored
    case null => cases operand <;> cases compared
    all_goals
      cases operand
      case null => cases compared
      all_goals exact ⟨rfl, rfl⟩
  simp only [Comparison.holds, present, compared, compareEq?_of_order compared]
  cases op
  all_goals
    cases order
    all_goals rfl

theorem holds_unordered (missing : compareOrder? stored operand = none) (op : Comparison)
    (notEq : op ≠ .eq) (notNe : op ≠ .ne) : op.holds stored operand = false := by
  cases op
  case eq => exact absurd rfl notEq
  case ne => exact absurd rfl notNe
  all_goals
    simp only [Comparison.holds, missing, Option.any_none]
    cases stored.isNull
    all_goals
      cases operand.isNull
      all_goals rfl

theorem numeric_kind {a : Value} (numeric : a.isNumeric = true) : a.kind ∈ [Kind.int, Kind.float64] := by
  cases a
  case int | float => simp [Value.kind]
  all_goals cases numeric

theorem equality_missing (different : stored.kind ≠ operand.kind) (unshared : ¬ShareOrder stored.kind operand.kind) :
    compareEq? stored operand = none := by
  rw [compareEq?, if_neg different, if_neg]
  intro numeric
  obtain ⟨first, second⟩ := Bool.and_eq_true_iff.mp numeric
  exact unshared (.inl ⟨numeric_kind first, numeric_kind second⟩)

theorem equalityOnly_nested (same : stored.kind = operand.kind) (nested : operand.kind ∈ [Kind.list, Kind.map]) :
    EqualityOnly (Comparison.holds · stored operand) (stored = operand) := by
  cases operand
  case list | map =>
    cases stored
    all_goals cases same
    refine ⟨?_, ?_, holds_unordered rfl⟩
    all_goals simp [Comparison.holds, compareEq?, isNull, isNumeric, Value.kind]
  all_goals simp [Value.kind] at nested

theorem equalityOnly_null : EqualityOnly (Comparison.holds · stored .null) (stored = .null) := by
  refine ⟨?_, ?_, holds_unordered (by cases stored <;> rfl)⟩
  all_goals
    cases stored
    all_goals simp [Comparison.holds, isNull]

theorem holds_apart (present : operand ≠ .null) (different : stored.kind ≠ operand.kind)
    (unshared : ¬ShareOrder stored.kind operand.kind) (op : Comparison) : op.holds stored operand = false := by
  have missing := equality_missing different unshared
  have value := isNull_eq_false_iff.mpr present
  by_cases equality : op = .eq ∨ op = .ne
  · rcases equality with rfl | rfl
    all_goals
      simp only [Comparison.holds, missing, value]
      cases stored.isNull
      all_goals rfl
  · obtain ⟨notEq, notNe⟩ := not_or.mp equality
    exact holds_unordered (order_of_unshared unshared) op notEq notNe

theorem fits (stored operand : Value) : Fits stored operand (Comparison.holds · stored operand) := by
  constructor
  case ordered =>
    intro shared
    have verdicts : (Comparison.holds · stored operand) = (accepts · (sortOrder (some stored) (some operand))) :=
      funext (holds_of_order (order_of_shared shared))
    rw [verdicts]
    exact trichotomous_accepts _
  case nested => exact equalityOnly_nested
  case presence =>
    intro asked
    subst asked
    exact equalityOnly_null
  case apart => exact holds_apart

theorem passes_of_held {row : Row} {field : String} (held : row.get? field = some stored) (op : Comparison) :
    passes field op operand row = op.holds stored operand := by
  rw [passes, Filter.matchesRow_field, FieldFilter.holds, held]
  rfl

/-- A missing field passes no comparison. On a stored value the six verdicts fit together as the
kinds of the two values have it, and where these share an order, exchanging the values turns
the comparison. -/
theorem comparisons_fit (row : Row) (field : String) (operand : Value) :
    (row.get? field = none → ∀ op, passes field op operand row = false) ∧
    ∀ stored, row.get? field = some stored →
      Fits stored operand (passes field · operand row) ∧
      (ShareOrder stored.kind operand.kind → ∀ op,
        passes field (turned op) stored (row.insert field operand) = passes field op operand row) := by
  refine ⟨?_, fun stored held => ⟨?_, ?_⟩⟩
  · intro missing op
    rw [passes, Filter.matchesRow_field, FieldFilter.holds, missing]
    rfl
  · have verdicts : (passes field · operand row) = (Comparison.holds · stored operand) :=
      funext (passes_of_held held)
    rw [verdicts]
    exact fits stored operand
  · intro shared op
    have exchanged : (row.insert field operand).get? field = some operand := by
      rw [Row.get?_insert, if_pos rfl]
    have swapped : sortOrder (some operand) (some stored) = (sortOrder (some stored) (some operand)).swap :=
      Std.OrientedCmp.eq_swap
    rw [passes_of_held exchanged, passes_of_held held, holds_of_order (order_of_shared shared.symm),
      holds_of_order (order_of_shared shared), swapped]
    exact accepts_turned op _

/-- A double next to an integer that rounds to it, and a field that is missing. -/
theorem mixed_numbers_fit :
    let stored : Value := .float (Float64.ofInt64 9007199254740993)
    let operand : Value := .int 9007199254740993
    let row : Row := ⟨[("n", stored)], by decide⟩
    row.get? "n" = some stored ∧ ShareOrder stored.kind operand.kind ∧ row.get? "m" = none ∧
      Trichotomous (passes "n" · operand row) ∧ passes "n" .le operand row = true ∧
      passes "n" .ge stored (row.insert "n" operand) = true ∧ passes "m" .ne .null row = false := by
  intro stored operand row
  have shared : ShareOrder stored.kind operand.kind := by decide
  obtain ⟨fit, exchanged⟩ := (comparisons_fit row "n" operand).2 stored rfl
  have trichotomous := fit.ordered shared
  have less : passes "n" .lt operand row = true := by decide +kernel
  have atMost : passes "n" .le operand row = true := by
    rw [trichotomous.le, less, Bool.true_or]
  exact ⟨rfl, shared, rfl, trichotomous, atMost, (exchanged shared .le).trans atMost,
    (comparisons_fit row "m" .null).1 rfl .ne⟩

end RowAlgebra.Proofs.ComparisonLaws
