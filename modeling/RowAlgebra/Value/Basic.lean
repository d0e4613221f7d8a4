import RowAlgebra.Float64.Arithmetic

/-! The values a row can hold, and their kinds. Equality is structural: an integer and a
float never are the same value, and a map keeps the order and the repetitions of its
entries. -/

namespace RowAlgebra

inductive Kind where
  | blob
  | bool
  | float64
  | int
  | list
  | map
  | null
  | text
deriving DecidableEq

namespace Kind

/-- Stable numbers, by which values that cannot be compared are sorted. -/
def tag : Kind → Nat
  | blob => 1
  | bool => 2
  | float64 => 3
  | int => 4
  | list => 5
  | map => 6
  | null => 7
  | text => 8

def name : Kind → String
  | blob => "blob"
  | bool => "bool"
  | float64 => "float64"
  | int => "int"
  | list => "list"
  | map => "map"
  | null => "null"
  | text => "text"

end Kind

inductive Value where
  | null
  | bool (flag : Bool)
  | int (number : Int64)
  | float (number : Float64)
  | text (content : String)
  | blob (bytes : List UInt8)
  | list (items : List Value)
  | map (entries : List (String × Value))

namespace Value

instance : Inhabited Value := ⟨null⟩

def kind : Value → Kind
  | null => .null
  | bool _ => .bool
  | int _ => .int
  | float _ => .float64
  | text _ => .text
  | blob _ => .blob
  | list _ => .list
  | map _ => .map

def isNull : Value → Bool
  | null => true
  | _ => false

theorem isNull_iff {value : Value} : value.isNull = true ↔ value = null := by
  cases value <;> simp [isNull]

theorem isNull_eq_false_iff {value : Value} : value.isNull = false ↔ value ≠ null := by
  rw [← Bool.not_eq_true, isNull_iff]

def isNumeric : Value → Bool
  | int _ | float _ => true
  | _ => false

/-- Everything but lists and maps; a blob is one scalar. -/
def isScalar : Value → Bool
  | list _ | map _ => false
  | _ => true

def text? : Value → Option String
  | text content => some content
  | _ => none

def int? : Value → Option Int64
  | int number => some number
  | _ => none

/-- The number as a double, an integer going to the nearest one. -/
def float? : Value → Option Float64
  | int number => some (Float64.ofInt64 number)
  | float number => some number
  | _ => none

/-- A float value from an interchange encoding, if it is finite. -/
def ofBits? (bits : UInt64) : Option Value := (Float64.ofBits? bits).map float

mutual

def same : Value → Value → Bool
  | null, null => true
  | bool a, bool b => a == b
  | int a, int b => a == b
  | float a, float b => a == b
  | text a, text b => a == b
  | blob a, blob b => a == b
  | list a, list b => sameItems a b
  | map a, map b => sameEntries a b
  | _, _ => false

def sameItems : List Value → List Value → Bool
  | [], [] => true
  | a :: as, b :: bs => same a b && sameItems as bs
  | _, _ => false

def sameEntries : List (String × Value) → List (String × Value) → Bool
  | [], [] => true
  | (m, a) :: as, (n, b) :: bs => m == n && same a b && sameEntries as bs
  | _, _ => false

end

mutual

theorem same_iff : (a b : Value) → (same a b = true ↔ a = b)
  | null, b => by cases b <;> simp [same]
  | bool _, b => by cases b <;> simp [same]
  | int _, b => by cases b <;> simp [same]
  | float _, b => by cases b <;> simp [same]
  | text _, b => by cases b <;> simp [same]
  | blob _, b => by cases b <;> simp [same]
  | list items, b => by cases b <;> simp [same, sameItems_iff items]
  | map entries, b => by cases b <;> simp [same, sameEntries_iff entries]

theorem sameItems_iff : (as bs : List Value) → (sameItems as bs = true ↔ as = bs)
  | [], bs => by cases bs <;> simp [sameItems]
  | a :: as, bs => by cases bs <;> simp [sameItems, same_iff a, sameItems_iff as]

theorem sameEntries_iff : (as bs : List (String × Value)) → (sameEntries as bs = true ↔ as = bs)
  | [], bs => by cases bs <;> simp [sameEntries]
  | (_, a) :: as, bs => by
    cases bs <;> simp [sameEntries, same_iff a, sameEntries_iff as, Prod.ext_iff]

end

instance : DecidableEq Value := fun a b => decidable_of_iff _ (same_iff a b)

end Value

end RowAlgebra
