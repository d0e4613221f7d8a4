import RowAlgebra.Json.Scalar
import RowAlgebra.Select.Basic
import RowAlgebra.Text.Quoted
import RowAlgebra.Float64.Decimal
import RowAlgebra.Float64.Arithmetic

/-! Reading JSON texts whose content is known beforehand: a double, or a direction of
sorting. Content of another type is refused as soon as its type is clear, which for a list
or a map is at its first character. -/

namespace RowAlgebra.Json

/-- How a scalar is named where another type was expected. -/
def Scalar.describe : Scalar → String
  | null => "null"
  | bool flag => s!"boolean `{flag}`"
  | number (.natural n) => s!"integer `{n.toNat}`"
  | number (.negative n) => s!"integer `{n.toInt}`"
  | number .minusZero => "floating point `-0.0`"
  | number (.float x) => s!"floating point `{Float64.jsonFormat.text x}`"
  | text content => s!"string {Text.quoted content}"

/-- A value of another type than expected, by its first character: lists and maps are not
read any further. -/
def startOther (expected : String) (char : Char) : Except Error ScalarPart :=
  if char = '[' then .error (.invalidType "sequence" expected)
  else if char = '\x7b' then .error (.invalidType "map" expected)
  else match ScalarPart.start? char with
    | some part => .ok part
    | none => .error .expectedValue

def Number.nearestFloat : Number → Float64
  | natural n => Float64.ofUInt64 n
  | negative n => Float64.ofInt64 n
  | minusZero => 0
  | float x => x

/-- The double that a scalar stands for. Integers are taken. -/
def Scalar.asFloat : Scalar → Except Error Float64
  | number n => .ok n.nearestFloat
  | other => .error (.invalidType other.describe "f64")

namespace FloatText

inductive State where
  | before
  | within (part : ScalarPart)
  | done (number : Float64)

def afterDone (number : Float64) (char : Char) : Except Error State :=
  if isBlank char then .ok (.done number) else .error .trailingCharacters

def State.step (state : State) (char : Char) : Except Error State :=
  match state with
  | before => if isBlank char then .ok .before else (startOther "f64" char).map .within
  | within part =>
    match part.step char with
    | .error error => .error error
    | .ok (.more longer) => .ok (.within longer)
    | .ok (.complete scalar) => scalar.asFloat.map .done
    | .ok (.completeBefore scalar) => scalar.asFloat.bind fun number => afterDone number char
  | done number => afterDone number char

def State.finish : State → Except Error Float64
  | before => .error .eofInValue
  | within part => part.finish.bind Scalar.asFloat
  | done number => .ok number

end FloatText

def readFloat (text : List Char) : Except Error Float64 :=
  (text.foldlM FloatText.State.step .before).bind FloatText.State.finish

namespace DirectionText

/-- A place between scalars in a text that should hold a direction. A direction is written
as its name, or as a map from its name to null. -/
inductive Place where
  | start
  | key
  | afterKey (direction : Direction)
  | null (direction : Direction)
  | afterNull (direction : Direction)
  | done (direction : Direction)

inductive State where
  | at (place : Place)
  | withinName (part : TextPart)
  | withinKey (part : TextPart)
  | withinNull (direction : Direction) (part : ScalarPart)

def ofName (name : String) : Except Error Direction :=
  if name = Direction.asc.name then .ok .asc
  else if name = Direction.desc.name then .ok .desc
  else .error (.unknownVariant name "`Asc` or `Desc`")

def requireNull : Scalar → Except Error Unit
  | .null => .ok ()
  | other => .error (.invalidType other.describe "unit")

namespace Place

def read (place : Place) (char : Char) : Except Error State :=
  match place with
  | start =>
    if char = '"' then .ok (.withinName .start)
    else if char = '\x7b' then .ok (.at .key)
    else .error .expectedValue
  | key =>
    if char = '"' then .ok (.withinKey .start)
    else if char = '\x7d' then .error .expectedValue
    else .error .keyNotString
  | afterKey direction => if char = ':' then .ok (.at (.null direction)) else .error .expectedColon
  | null direction => (startOther "unit" char).map (.withinNull direction)
  | afterNull direction => if char = '\x7d' then .ok (.at (.done direction)) else .error .expectedValue
  | done _ => .error .trailingCharacters

def finish : Place → Except Error Direction
  | start | null _ => .error .eofInValue
  | key | afterKey _ | afterNull _ => .error .eofInObject
  | done direction => .ok direction

end Place

namespace State

/-- Only the word passes as a null, and it ends with its last character; so a scalar that
ended before the character is refused in any case. -/
def step (state : State) (char : Char) : Except Error State :=
  match state with
  | .at place => if isBlank char then .ok (.at place) else place.read char
  | withinName part =>
    match part.step char with
    | .error error => .error error
    | .ok (some longer) => .ok (.withinName longer)
    | .ok none => (ofName part.content).map fun direction => .at (.done direction)
  | withinKey part =>
    match part.step char with
    | .error error => .error error
    | .ok (some longer) => .ok (.withinKey longer)
    | .ok none => (ofName part.content).map fun direction => .at (.afterKey direction)
  | withinNull direction part =>
    match part.step char with
    | .error error => .error error
    | .ok (.more longer) => .ok (.withinNull direction longer)
    | .ok (.complete scalar) | .ok (.completeBefore scalar) =>
      (requireNull scalar).map fun _ => .at (.afterNull direction)

/-- A scalar at the end of the text is refused for its type first, then for the end. -/
def finish : State → Except Error Direction
  | .at place => place.finish
  | withinName _ | withinKey _ => .error .eofInString
  | withinNull _ part => part.finish.bind fun scalar => (requireNull scalar).bind fun _ => .error .eofInObject

end State

end DirectionText

def readDirection (text : List Char) : Except Error Direction :=
  (text.foldlM DirectionText.State.step (.at .start)).bind DirectionText.State.finish

end RowAlgebra.Json
