import RowAlgebra.Json.Scalar
import RowAlgebra.Value.Widening

/-! Reading a value from a JSON text, one character at a time. The reader is at a place
between scalars, or within one; the lists and maps that are still open are kept, innermost
first. The first character that cannot be read, or the end of the text where it cannot
end, settles the error. -/

namespace RowAlgebra.Json

def Number.value : Number → Value
  | natural n => Value.ofUInt64 n
  | negative n => .int n
  | minusZero => .float 0
  | float x => .float x

def Scalar.value : Scalar → Value
  | null => .null
  | bool b => .bool b
  | number n => n.value
  | text content => .text content

/-- A list or map that waits for its next value, with what it holds so far, the latest
first. A map has read the key of that value. -/
inductive Frame where
  | list (reversed : List Value)
  | map (reversed : List (String × Value)) (key : String)

inductive Place where
  | value (frames : List Frame)
  | firstItem (frames : List Frame)
  | nextItem (frames : List Frame) (reversed : List Value)
  | afterItem (frames : List Frame) (reversed : List Value)
  | firstKey (frames : List Frame)
  | nextKey (frames : List Frame) (reversed : List (String × Value))
  | afterKey (frames : List Frame) (reversed : List (String × Value)) (key : String)
  | afterEntry (frames : List Frame) (reversed : List (String × Value))
  | done (value : Value)

inductive State where
  | at (place : Place)
  | within (frames : List Frame) (part : ScalarPart)
  | withinKey (frames : List Frame) (reversed : List (String × Value)) (part : TextPart)

/-- How many lists and maps may be open at once. -/
def depthLimit : Nat := 127

/-- The place behind a value that was read whole. -/
def Place.after (frames : List Frame) (value : Value) : Place :=
  match frames with
  | [] => .done value
  | .list reversed :: outer => .afterItem outer (value :: reversed)
  | .map reversed key :: outer => .afterEntry outer ((key, value) :: reversed)

def State.begin (frames : List Frame) (char : Char) : Except Error State :=
  if char = '[' then
    if frames.length < depthLimit then .ok (.at (.firstItem frames)) else .error .recursionLimit
  else if char = '\x7b' then
    if frames.length < depthLimit then .ok (.at (.firstKey frames)) else .error .recursionLimit
  else match ScalarPart.start? char with
    | some part => .ok (.within frames part)
    | none => .error .expectedValue

namespace Place

/-- Reads a character that is not blank. -/
def read (place : Place) (char : Char) : Except Error State :=
  match place with
  | value frames => State.begin frames char
  | firstItem frames =>
    if char = ']' then .ok (.at (after frames (.list []))) else State.begin (.list [] :: frames) char
  | nextItem frames reversed =>
    if char = ']' then .error .trailingComma else State.begin (.list reversed :: frames) char
  | afterItem frames reversed =>
    if char = ']' then .ok (.at (after frames (.list reversed.reverse)))
    else if char = ',' then .ok (.at (.nextItem frames reversed))
    else .error .expectedListEnd
  | firstKey frames =>
    if char = '\x7d' then .ok (.at (after frames (.map [])))
    else if char = '"' then .ok (.withinKey frames [] .start)
    else .error .keyNotString
  | nextKey frames reversed =>
    if char = '\x7d' then .error .trailingComma
    else if char = '"' then .ok (.withinKey frames reversed .start)
    else .error .keyNotString
  | afterKey frames reversed key =>
    if char = ':' then .ok (.at (.value (.map reversed key :: frames))) else .error .expectedColon
  | afterEntry frames reversed =>
    if char = '\x7d' then .ok (.at (after frames (.map reversed.reverse)))
    else if char = ',' then .ok (.at (.nextKey frames reversed))
    else .error .expectedObjectEnd
  | done _ => .error .trailingCharacters

def step (place : Place) (char : Char) : Except Error State :=
  if isBlank char then .ok (.at place) else place.read char

def finish : Place → Except Error Value
  | done result => .ok result
  | value _ | nextItem .. | nextKey .. => .error .eofInValue
  | firstItem _ | afterItem .. => .error .eofInList
  | firstKey _ | afterKey .. | afterEntry .. => .error .eofInObject

end Place

namespace State

def start : State := .at (.value [])

def step (state : State) (char : Char) : Except Error State :=
  match state with
  | .at place => place.step char
  | within frames part =>
    match part.step char with
    | .error error => .error error
    | .ok (.more longer) => .ok (.within frames longer)
    | .ok (.complete scalar) => .ok (.at (.after frames scalar.value))
    | .ok (.completeBefore scalar) => (Place.after frames scalar.value).step char
  | withinKey frames reversed part =>
    match part.step char with
    | .error error => .error error
    | .ok (some longer) => .ok (.withinKey frames reversed longer)
    | .ok none => .ok (.at (.afterKey frames reversed part.content))

def finish : State → Except Error Value
  | .at place => place.finish
  | within frames part => part.finish.bind fun scalar => (Place.after frames scalar.value).finish
  | withinKey .. => .error .eofInString

def run (state : State) : List Char → Except Error State
  | [] => .ok state
  | char :: rest =>
    match state.step char with
    | .error error => .error error
    | .ok next => next.run rest

end State

/-- The value that a text writes, and nothing but that value. -/
def read (text : List Char) : Except Error Value :=
  match State.start.run text with
  | .error error => .error error
  | .ok state => state.finish

end RowAlgebra.Json
