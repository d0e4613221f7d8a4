import RowAlgebra.Proofs.ExactValue
import RowAlgebra.Select.Evaluation

/-! The order by which rows are sorted is a total preorder. Every value is placed among
the kinds, the two numeric kinds sharing a place, and is compared within its place by one
key; an integer and a float have the same key, their exact number. The sort order is the
comparison of places and keys, and lexicographic comparison of keys is always an order. -/

namespace RowAlgebra.Proofs.SortOrder
open Value

/-- What a sort needs of a comparator: it never contradicts itself. -/
structure Preorders (order : α → α → Ordering) : Prop where
  level : ∀ a, order a a = .eq
  reversed : ∀ a b, order b a = (order a b).swap
  transitive : ∀ a b c, order a b ≠ .gt → order b c ≠ .gt → order a c ≠ .gt

theorem preorders (order : α → α → Ordering) [Std.TransCmp order] : Preorders order := by
  refine ⟨fun a => Std.ReflCmp.compare_self, fun a b => Std.OrientedCmp.eq_swap, ?_⟩
  intro a b c first second
  exact Ordering.isLE_iff_ne_gt.mp
    (Std.TransCmp.isLE_trans (Ordering.isLE_iff_ne_gt.mpr first) (Ordering.isLE_iff_ne_gt.mpr second))

/-- Cutting a float off and looking at what was cut off compares it exactly. -/
theorem compareInt_eq (n : Int64) (x : Float64) :
    Float64.compareInt n x = compare (n.toInt * (Float64.unitsPerOne : Int)) x.units := by
  have low := n.le_toInt
  have high := n.toInt_lt
  have positive : (0 : Int) < Float64.unitsPerOne := by exact_mod_cast Float64.unitsPerOne_pos
  have parts := Int.tmod_add_tdiv_mul x.units Float64.unitsPerOne
  have below := Int.tmod_lt_of_pos x.units positive
  have above := Int.lt_tmod_of_pos x.units positive
  have ordered : ∀ a b : Int, a < b → a * Float64.unitsPerOne + Float64.unitsPerOne ≤ b * Float64.unitsPerOne := by
    intro a b less
    have scaled := Int.mul_le_mul_of_nonneg_right (Int.add_one_le_of_lt less) (Int.le_of_lt positive)
    rwa [Int.add_mul, Int.one_mul] at scaled
  unfold Float64.compareInt
  dsimp only
  rw [Int.natCast_mul]
  split
  next beyond =>
    have := ordered n.toInt (2 ^ 63 : Nat) (by omega)
    exact (Int.compare_eq_lt.mpr (by omega)).symm
  next =>
    split
    next beneath =>
      have := ordered (-(2 ^ 63 : Nat) - 1) n.toInt (by omega)
      rw [Int.sub_mul, Int.neg_mul] at this
      exact (Int.compare_eq_gt.mpr (by omega)).symm
    next =>
      rcases Int.lt_trichotomy n.toInt (x.units.tdiv Float64.unitsPerOne) with less | same | greater
      · have := ordered _ _ less
        rw [Int.compare_eq_lt.mpr less, Ordering.lt_then]
        exact (Int.compare_eq_lt.mpr (by omega)).symm
      · rw [Int.compare_eq_eq.mpr same, Ordering.eq_then, same]
        exact Float64.compare_congr (by omega) (by omega)
      · have := ordered _ _ greater
        rw [Int.compare_eq_gt.mpr greater, Ordering.gt_then]
        exact (Int.compare_eq_gt.mpr (by omega)).symm

/-- An integer that no double equals stays apart from the double nearest to it. -/
example : Float64.compareInt 9007199254740993 (Float64.ofInt64 9007199254740993) = .gt := by decide +kernel

theorem compare_scaled (a b : Int) :
    compare (a * (Float64.unitsPerOne : Int)) (b * Float64.unitsPerOne) = compare a b := by
  have positive : (0 : Int) < Float64.unitsPerOne := by exact_mod_cast Float64.unitsPerOne_pos
  exact Float64.compare_congr (Int.mul_lt_mul_right positive) (Int.mul_lt_mul_right positive)

def place : Option Value → Nat
  | none => 0
  | some .null => 1
  | some (.int _) => Kind.float64.tag + 1
  | some value => value.kind.tag + 1

def number : Option Value → Int
  | some (.int n) => n.toInt * Float64.unitsPerOne
  | some (.float x) => x.units
  | _ => 0

def letters : Option Value → String
  | some (.text content) => content
  | _ => ""

def flag : Option Value → Bool
  | some (.bool flag) => flag
  | _ => false

def bytes : Option Value → List UInt8
  | some (.blob bytes) => bytes
  | _ => []

/-- The sort order as a comparison of keys, one after the other. Outside its place every
key is the same for all values. -/
def keyOrder : Option Value → Option Value → Ordering :=
  compareLex (compareOn place) (compareLex (compareOn number)
    (compareLex (compareOn letters) (compareLex (compareOn flag) (compareOn bytes))))

instance : Std.TransCmp keyOrder := inferInstanceAs (Std.TransCmp (compareLex _ _))

/-- Either the places differ, and settle both sides, or both sides come down to the same key. -/
theorem sortOrder_eq_keyOrder (a b : Option Value) : sortOrder a b = keyOrder a b := by
  rcases a with _ | (_ | _ | _ | _ | _ | _ | _ | _)
  all_goals rcases b with _ | (_ | _ | _ | _ | _ | _ | _ | _)
  all_goals
    simp only [sortOrder, compareOrder?, keyOrder, compareLex, compareOn, place, number, letters, flag, bytes, Kind.tag,
      Value.kind, compareInt_eq, compare_scaled, Float64.compare_eq_units, Int.compare_swap, Nat.compare_eq_ite_lt,
      Option.getD_some, Option.getD_none, Ordering.lt_then, Ordering.gt_then, Ordering.eq_then, Ordering.then_eq,
      Std.ReflOrd.compare_self, Nat.reduceLT, Nat.reduceAdd, if_true, if_false]

instance : Std.TransCmp sortOrder := by
  have same : sortOrder = keyOrder := funext fun a => funext fun b => sortOrder_eq_keyOrder a b
  rw [same]
  infer_instance

theorem compareOrder?_eq (a b : Value) : compareOrder? a b = none ∨ compareOrder? a b = some (sortOrder (some a) (some b)) := by
  cases found : compareOrder? a b with
  | none => exact .inl rfl
  | some order =>
    refine .inr (congrArg some ?_)
    cases a
    all_goals cases b
    all_goals simp_all [compareOrder?, sortOrder]

theorem clause_level_iff {clause : OrderClause} {first second : Row} :
    clause.compareRows first second = .eq ↔ sortOrder (first.get? clause.field) (second.get? clause.field) = .eq := by
  rw [OrderClause.compareRows]
  cases clause.direction with
  | asc => exact .rfl
  | desc => exact Ordering.swap_eq_eq

instance (clause : OrderClause) : Std.TransCmp clause.compareRows := by
  have rows : Std.TransCmp fun first second : Row => sortOrder (first.get? clause.field) (second.get? clause.field) :=
    { eq_swap := Std.OrientedCmp.eq_swap, isLE_trans := Std.TransCmp.isLE_trans }
  unfold OrderClause.compareRows
  cases clause.direction with
  | asc => exact rows
  | desc =>
    have turned : (fun first second : Row => (sortOrder (first.get? clause.field) (second.get? clause.field)).swap) =
        fun first second => sortOrder (second.get? clause.field) (first.get? clause.field) :=
      funext fun first => funext fun second => Std.OrientedCmp.eq_swap.symm
    dsimp only
    rw [turned]
    exact Std.TransCmp.opposite

instance (clauses : List OrderClause) : Std.TransCmp (compareRows clauses) := by
  induction clauses with
  | nil => exact { eq_swap := rfl, isLE_trans := fun _ _ => rfl }
  | cons clause rest ih => exact inferInstanceAs (Std.TransCmp (compareLex clause.compareRows (compareRows rest)))

/-- The comparator of a sort is a total preorder of rows, whatever they hold. Field by
field it is one of values: what is missing comes first, then nulls, then everything else;
and values that compare are sorted as they compare. -/
theorem compareRows_preorders (clauses : List OrderClause) :
    Preorders (compareRows clauses) ∧ Preorders sortOrder ∧
    (∀ value, sortOrder none (some value) = .lt) ∧
    (∀ value, sortOrder (some .null) (some value) = if value = .null then .eq else .lt) ∧
    ∀ a b, compareOrder? a b = none ∨ compareOrder? a b = some (sortOrder (some a) (some b)) := by
  refine ⟨preorders _, preorders _, fun value => rfl, ?_, compareOrder?_eq⟩
  intro value
  cases value
  all_goals rfl

end RowAlgebra.Proofs.SortOrder
