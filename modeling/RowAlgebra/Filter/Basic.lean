import RowAlgebra.Value.Basic
import RowAlgebra.Like.Escaper

/-! Filters over the fields of a row. A list of filters is a conjunction; a disjunction
holds two such lists as they were given. -/

namespace RowAlgebra

inductive Comparison where
  | eq
  | ne
  | lt
  | le
  | gt
  | ge
deriving DecidableEq

inductive Membership where
  | isIn
  | notIn
deriving DecidableEq

inductive PatternTest where
  | like
  | notLike
deriving DecidableEq

/-- The operators of field filters, with stable tags and labels. -/
inductive Operator where
  | comparison (op : Comparison)
  | membership (op : Membership)
  | pattern (op : PatternTest)
deriving DecidableEq

namespace Operator

def tag : Operator → Nat
  | comparison .eq => 1
  | comparison .ne => 2
  | comparison .lt => 3
  | comparison .le => 4
  | comparison .gt => 5
  | comparison .ge => 6
  | membership .isIn => 7
  | membership .notIn => 8
  | pattern .like => 9
  | pattern .notLike => 10

def label : Operator → String
  | comparison .eq => "eq"
  | comparison .ne => "ne"
  | comparison .lt => "lt"
  | comparison .le => "le"
  | comparison .gt => "gt"
  | comparison .ge => "ge"
  | membership .isIn => "in"
  | membership .notIn => "not_in"
  | pattern .like => "like"
  | pattern .notLike => "not_like"

/-- Whether the operand is a sequence: of candidates, or of a pattern and its escape character. -/
def takesSequence : Operator → Bool
  | comparison _ => false
  | membership _ | pattern _ => true

end Operator

inductive Condition where
  | comparison (op : Comparison) (operand : Value)
  | membership (op : Membership) (operands : List Value)
  | pattern (op : PatternTest) (pattern : Like.Pattern) (escape : Char)
deriving DecidableEq

def Condition.operator : Condition → Operator
  | comparison op _ => .comparison op
  | membership op _ => .membership op
  | pattern op _ _ => .pattern op

/-- The operand of a condition in a form that all operators share. -/
inductive Operand where
  | single (value : Value)
  | many (values : List Value)
deriving DecidableEq

def Condition.operand : Condition → Operand
  | comparison _ operand => .single operand
  | membership _ operands => .many operands
  | pattern _ wanted escape => .many [.text wanted.text, .text (String.singleton escape)]

structure FieldFilter where
  field : String
  condition : Condition
deriving DecidableEq

inductive Filter where
  | field (test : FieldFilter)
  | or (left right : List Filter)

namespace Filter

mutual

def same : Filter → Filter → Bool
  | field a, field b => a == b
  | or left right, or left' right' => sameList left left' && sameList right right'
  | _, _ => false

def sameList : List Filter → List Filter → Bool
  | [], [] => true
  | a :: as, b :: bs => same a b && sameList as bs
  | _, _ => false

end

mutual

theorem same_iff : (a b : Filter) → (same a b = true ↔ a = b)
  | field _, b => by cases b <;> simp [same]
  | or left right, b => by cases b <;> simp [same, sameList_iff left, sameList_iff right]

theorem sameList_iff : (as bs : List Filter) → (sameList as bs = true ↔ as = bs)
  | [], bs => by cases bs <;> simp [sameList]
  | a :: as, bs => by cases bs <;> simp [sameList, same_iff a, sameList_iff as]

end

instance : DecidableEq Filter := fun a b => decidable_of_iff _ (same_iff a b)

end Filter

end RowAlgebra
