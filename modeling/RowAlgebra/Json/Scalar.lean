import RowAlgebra.Json.Number
import RowAlgebra.Json.Text

/-! Scalars of a JSON text: the three words, numbers and strings, read one character at a
time. Words and strings end with their last character; a number ends before the first
character that does not belong to it. -/

namespace RowAlgebra.Json

inductive Scalar where
  | null
  | bool (flag : Bool)
  | number (number : Number)
  | text (content : String)
deriving DecidableEq

inductive ScalarPart where
  | word (rest : List Char) (meaning : Scalar)
  | number (part : NumberPart)
  | text (part : TextPart)
deriving DecidableEq

inductive Progress where
  | more (part : ScalarPart)
  | complete (scalar : Scalar)
  /-- The scalar was complete before the character, which is still to be read. -/
  | completeBefore (scalar : Scalar)

def isBlank (char : Char) : Bool := char = ' ' || char = '\t' || char = '\n' || char = '\r'

namespace ScalarPart

def start? (char : Char) : Option ScalarPart :=
  if char = 'n' then some (.word ['u', 'l', 'l'] .null)
  else if char = 't' then some (.word ['r', 'u', 'e'] (.bool true))
  else if char = 'f' then some (.word ['a', 'l', 's', 'e'] (.bool false))
  else if char = '"' then some (.text .start)
  else (NumberPart.start? char).map .number

def step (part : ScalarPart) (char : Char) : Except Error Progress :=
  match part with
  | word [] meaning => .ok (.completeBefore meaning)
  | word (next :: rest) meaning =>
    if char ≠ next then .error .expectedWord
    else if rest.isEmpty then .ok (.complete meaning)
    else .ok (.more (.word rest meaning))
  | number part =>
    match part.step char with
    | .error error => .error error
    | .ok (some longer) => .ok (.more (.number longer))
    | .ok none => part.number.map fun number => .completeBefore (.number number)
  | text part =>
    match part.step char with
    | .error error => .error error
    | .ok (some longer) => .ok (.more (.text longer))
    | .ok none => .ok (.complete (.text part.content))

def finish : ScalarPart → Except Error Scalar
  | word _ _ => .error .eofInValue
  | number part => part.finish.map .number
  | text _ => .error .eofInString

end ScalarPart

end RowAlgebra.Json
