import RowAlgebra.Float64.Decimal
import RowAlgebra.Value.Widening

/-! Values out of foreign data. A foreign format offers its content as a tree of nodes of
many more types than values have; reading takes what a value can hold and refuses the
rest. Map keys must be text, or bytes that are. The first offence in order settles the
error, a key coming before its value. -/

namespace RowAlgebra.Wire

inductive Double where
  | nan
  | infinite (negative : Bool)
  | negativeZero
  | finite (number : Float64)
deriving DecidableEq

namespace Double

def ofBits (bits : UInt64) : Double :=
  match Float64.ofBits? bits with
  | some number => if bits.toNat = 2 ^ 63 then .negativeZero else .finite number
  | none => if bits.toNat % 2 ^ 52 = 0 then .infinite (2 ^ 63 ≤ bits.toNat) else .nan

def toSingle : Double → Double
  | finite number =>
    match number.toSingle? with
    | none => .infinite number.negative
    | some single => if single = 0 ∧ number.negative then .negativeZero else .finite single
  | other => other

/-- Plain text, whole numbers marked as floats. -/
def text : Double → String
  | nan => "NaN"
  | infinite false => "inf"
  | infinite true => "-inf"
  | negativeZero => "-0.0"
  | finite number => FloatFormat.text { Float64.plainFormat with wholeMark := ['.', '0'] } number

end Double

/-- The content that a foreign format offers. -/
inductive Node where
  | null
  | absent
  | bool (flag : Bool)
  | int64 (number : Int64)
  | uint64 (number : UInt64)
  | int128 (number : Int)
  | uint128 (number : Nat)
  | double (number : Double)
  | single (number : Double)
  | text (content : String)
  | bytes (content : List UInt8)
  | present (inner : Node)
  | wrapped (inner : Node)
  | sequence (items : List Node)
  | map (entries : List (Node × Node))

inductive Error where
  | invalidType (found expected : String)
  | invalidValue (found expected : String)
  | nonFinite
deriving DecidableEq

def Error.message : Error → String
  | invalidType found expected => s!"invalid type: {found}, expected {expected}"
  | invalidValue found expected => s!"invalid value: {found}, expected {expected}"
  | nonFinite => "non-finite float"

def readDouble : Double → Except Error Value
  | .finite number => .ok (.float number)
  | .negativeZero => .ok (.float 0)
  | .nan | .infinite _ => .error .nonFinite

def text? (bytes : List UInt8) : Option String := String.fromUTF8? ⟨bytes.toArray⟩

namespace Node

/-- How a node is named where another type was expected. -/
def describe : Node → String
  | null => "unit value"
  | absent | present _ => "Option value"
  | bool flag => s!"boolean `{flag}`"
  | int64 n => s!"integer `{n.toInt}`"
  | uint64 n => s!"integer `{n.toNat}`"
  | int128 n => s!"integer `{n}` as i128"
  | uint128 n => s!"integer `{n}` as u128"
  | double x => s!"floating point `{x.text}`"
  | single x => s!"floating point `{x.toSingle.text}`"
  | text content => s!"string `{content}`"
  | bytes _ => "byte array"
  | wrapped _ => "newtype struct"
  | sequence _ => "sequence"
  | map _ => "map"

def readKey (node : Node) : Except Error String :=
  match node with
  | text content => .ok content
  | bytes content =>
    match text? content with
    | some decoded => .ok decoded
    | none => .error (.invalidValue node.describe "a string")
  | _ => .error (.invalidType node.describe "a string")

mutual

def read : Node → Except Error Value
  | null | absent => .ok .null
  | bool flag => .ok (.bool flag)
  | int64 n => .ok (.int n)
  | uint64 n => .ok (Value.ofUInt64 n)
  | double x => readDouble x
  | single x => readDouble x.toSingle
  | text content => .ok (.text content)
  | bytes content => .ok (.blob content)
  | present inner => inner.read
  | sequence items => (readItems items).map .list
  | map entries => (readEntries entries).map .map
  | int128 n => .error (.invalidType (int128 n).describe "a persisted value")
  | uint128 n => .error (.invalidType (uint128 n).describe "a persisted value")
  | wrapped inner => .error (.invalidType (wrapped inner).describe "a persisted value")

def readItems : List Node → Except Error (List Value)
  | [] => .ok []
  | item :: rest =>
    match item.read with
    | .error error => .error error
    | .ok value => (readItems rest).map (value :: ·)

def readEntries : List (Node × Node) → Except Error (List (String × Value))
  | [] => .ok []
  | (key, item) :: rest =>
    match key.readKey with
    | .error error => .error error
    | .ok name =>
      match item.read with
      | .error error => .error error
      | .ok value => (readEntries rest).map ((name, value) :: ·)

end

end Node

end RowAlgebra.Wire
