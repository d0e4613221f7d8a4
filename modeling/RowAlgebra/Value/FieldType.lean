import RowAlgebra.Value.Basic

/-! Declared types of fields. A declared type settles which contents a field may have, how
a content is stored as a value, and which values can be read as such a content. Reading
never converts between kinds: an integer is not read as a float, nor the reverse. The
only encoding that two contents can share is null, which stands for an absent optional. -/

namespace RowAlgebra

/-- The scalars that a declared type can narrow by a check. -/
inductive Payload where
  | bool
  | int
  | float

namespace Payload

def Carrier : Payload → Type
  | bool => Bool
  | int => Int64
  | float => Float64

def wrap : (payload : Payload) → payload.Carrier → Value
  | bool, flag => .bool flag
  | int, number => .int number
  | float, number => .float number

def unwrap? : (payload : Payload) → Value → Option payload.Carrier
  | bool, .bool flag => some flag
  | int, .int number => some number
  | float, .float number => some number
  | _, _ => none

end Payload

inductive FieldType where
  | value
  | text
  /-- A scalar of which only the accepted contents occur, such as an integer of fixed
  width or a quantity with a range of its own. -/
  | checked (payload : Payload) (accepts : payload.Carrier → Bool)
  | option (inner : FieldType)
  | list (inner : FieldType)
  /-- Held apart from its owner; this changes where a content lies, not what it is. -/
  | boxed (inner : FieldType)

namespace FieldType

def Carrier : FieldType → Type
  | value => Value
  | text => String
  | checked payload accepts => { content : payload.Carrier // accepts content = true }
  | option inner => Option inner.Carrier
  | list inner => List inner.Carrier
  | boxed inner => inner.Carrier

def toValue : (type : FieldType) → type.Carrier → Value
  | value, content => content
  | text, content => .text content
  | checked payload _, content => payload.wrap content.val
  | option _, none => .null
  | option inner, some content => inner.toValue content
  | list inner, contents => .list (List.map inner.toValue contents)
  | boxed inner, content => inner.toValue content

def fromValue? : (type : FieldType) → Value → Option type.Carrier
  | value, stored => some stored
  | text, stored => stored.text?
  | checked payload accepts, stored =>
    match payload.unwrap? stored with
    | some content => if accepted : accepts content = true then some ⟨content, accepted⟩ else none
    | none => none
  | option inner, stored => if stored.isNull then some none else (inner.fromValue? stored).map some
  | list inner, .list items => items.mapM inner.fromValue?
  | list _, _ => none
  | boxed inner, stored => inner.fromValue? stored

def intBetween (low high : Int) : FieldType :=
  checked .int fun (number : Int64) => low ≤ number.toInt && number.toInt ≤ high

def bool : FieldType := checked .bool fun _ => true

def float : FieldType := checked .float fun _ => true

def int8 : FieldType := intBetween (-128) 127

def int16 : FieldType := intBetween (-32768) 32767

def int32 : FieldType := intBetween (-2147483648) 2147483647

def int64 : FieldType := checked .int fun _ => true

def uint8 : FieldType := intBetween 0 255

def uint16 : FieldType := intBetween 0 65535

def uint32 : FieldType := intBetween 0 4294967295

end FieldType

/-- Data that converts into a value without a declared type. -/
class ToValue (α : Type) where
  toValue : α → Value

export ToValue (toValue)

instance : ToValue Value := ⟨id⟩

instance : ToValue Bool := ⟨Value.bool⟩

instance : ToValue Int64 := ⟨Value.int⟩

instance : ToValue Float64 := ⟨Value.float⟩

instance : ToValue String := ⟨Value.text⟩

instance {α : Type} [ToValue α] {accepts : α → Prop} : ToValue { content : α // accepts content } :=
  ⟨fun content => toValue content.val⟩

/-- An absent content becomes null. -/
instance {α : Type} [ToValue α] : ToValue (Option α) :=
  ⟨fun content => content.elim .null toValue⟩

def Value.ofList {α : Type} [ToValue α] (items : List α) : Value := .list (items.map toValue)

/-- A map in the order given, repeated keys kept. -/
def Value.ofEntries {α : Type} [ToValue α] (entries : List (String × α)) : Value :=
  .map (entries.map fun (key, content) => (key, toValue content))

instance {α : Type} [ToValue α] : ToValue (List α) := ⟨Value.ofList⟩

end RowAlgebra
