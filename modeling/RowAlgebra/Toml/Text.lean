/-! Strings of a TOML text, read one character at a time: basic ones, which know escapes,
and literal ones, which do not; each on one line, or over several between triple quotes. -/

namespace RowAlgebra.Toml

/-- The characters that may stand in a text as they are: no controls but the tab. -/
def isPlainChar (char : Char) : Bool :=
  char = '\t' || (0x20 ≤ char.toNat && char.toNat ≠ 0x7F)

/-- The quote of a string, and whether it stands three times. -/
structure Quotes where
  mark : Char
  isTriple : Bool
deriving DecidableEq

inductive TextStage where
  | plain
  | escape
  /-- Within an escape by number, with the digits still to come. -/
  | number (left : Nat) (value : Nat)
  /-- Behind a backslash and blanks; the line has to end. -/
  | lineEnd
  /-- Behind a backslash at the end of a line; blanks and line ends are left out. -/
  | trimming
  /-- Behind a carriage return, which a line feed has to follow. -/
  | carriage (isTrimmed : Bool)
  /-- Behind some quotes of a string between triple quotes. -/
  | quotes (count : Nat)
deriving DecidableEq

/-- A string in progress: its content so far, the latest character first. -/
structure TextPart where
  stage : TextStage
  reversed : List Char

namespace TextPart

def start : TextPart := ⟨.plain, []⟩

def add (part : TextPart) (char : Char) : TextPart := ⟨.plain, char :: part.reversed⟩

def content (part : TextPart) (quote : Char) (inner : Nat) : String :=
  String.ofList (part.reversed.reverse ++ List.replicate inner quote)

def escapeLetter? (char : Char) : Option Char :=
  if char = 'b' then some '\x08'
  else if char = 't' then some '\t'
  else if char = 'n' then some '\n'
  else if char = 'f' then some '\x0c'
  else if char = 'r' then some '\r'
  else if char = 'e' then some '\x1b'
  else if char = '"' ∨ char = '\\' then some char
  else none

/-- How many digits follow the letter of an escape by number. -/
def escapeDigits? (char : Char) : Option Nat :=
  if char = 'x' then some 2 else if char = 'u' then some 4 else if char = 'U' then some 8 else none

def hexValue? (char : Char) : Option Nat :=
  if '0' ≤ char ∧ char ≤ '9' then some (char.toNat - '0'.toNat)
  else if 'a' ≤ char ∧ char ≤ 'f' then some (char.toNat - 'a'.toNat + 10)
  else if 'A' ≤ char ∧ char ≤ 'F' then some (char.toNat - 'A'.toNat + 10)
  else none

def scalar? (value : Nat) : Option Char :=
  if valid : value.isValidChar then some (Char.ofNatAux value valid) else none

/-- Reads a character that is no quote, in plain text. -/
def stepPlain (quotes : Quotes) (part : TextPart) (char : Char) : Option TextPart :=
  if char = '\\' ∧ quotes.mark = '"' then some { part with stage := .escape }
  else if isPlainChar char then some (part.add char)
  else if !quotes.isTriple then none
  else if char = '\n' then some (part.add char)
  else if char = '\r' then some { part with stage := .carriage false }
  else none

def stepEscape (quotes : Quotes) (part : TextPart) (char : Char) : Option TextPart :=
  match escapeLetter? char, escapeDigits? char with
  | some meant, _ => some (part.add meant)
  | none, some digits => some { part with stage := .number digits 0 }
  | none, none =>
    if !quotes.isTriple then none
    else if char = ' ' ∨ char = '\t' then some { part with stage := .lineEnd }
    else if char = '\n' then some { part with stage := .trimming }
    else if char = '\r' then some { part with stage := .carriage true }
    else none

def stepNumber (part : TextPart) (left value : Nat) (char : Char) : Option TextPart :=
  (hexValue? char).bind fun digit =>
    if left ≤ 1 then (scalar? (value * 16 + digit)).map part.add
    else some { part with stage := .number (left - 1) (value * 16 + digit) }

def stepLineEnd (part : TextPart) (char : Char) : Option TextPart :=
  if char = ' ' ∨ char = '\t' then some part
  else if char = '\n' then some { part with stage := .trimming }
  else if char = '\r' then some { part with stage := .carriage true }
  else none

/-- Reads a quote, or what else comes in plain text. A quote ends a string on one line. -/
def stepMark (quotes : Quotes) (part : TextPart) (char : Char) : Option (TextPart ⊕ String) :=
  if char = quotes.mark then
    if quotes.isTriple then some (.inl { part with stage := .quotes 1 })
    else some (.inr (part.content quotes.mark 0))
  else (part.stepPlain quotes char).map .inl

end TextPart

/-- Reads a string behind its opening quotes, up to its closing ones. Between triple quotes
up to two quotes may stand on their own, also right before the closing ones. -/
def readText (quotes : Quotes) (part : TextPart) : List Char → Option (String × List Char)
  | [] =>
    match part.stage with
    | .quotes count => if 3 ≤ count then some (part.content quotes.mark (count - 3), []) else none
    | _ => none
  | char :: rest =>
    let goOn (next : Option TextPart) := next.bind fun longer => readText quotes longer rest
    let mark (part : TextPart) :=
      match part.stepMark quotes char with
      | none => none
      | some (.inl longer) => readText quotes longer rest
      | some (.inr content) => some (content, rest)
    match part.stage with
    | .plain => mark part
    | .escape => goOn (part.stepEscape quotes char)
    | .number left value => goOn (part.stepNumber left value char)
    | .lineEnd => goOn (part.stepLineEnd char)
    | .trimming =>
      if char = ' ' ∨ char = '\t' ∨ char = '\n' then readText quotes part rest
      else if char = '\r' then readText quotes { part with stage := .carriage true } rest
      else mark { part with stage := .plain }
    | .carriage isTrimmed =>
      if char ≠ '\n' then none
      else if isTrimmed then readText quotes { part with stage := .trimming } rest
      else readText quotes ((part.add '\r').add '\n') rest
    | .quotes count =>
      if char = quotes.mark ∧ count < 5 then readText quotes { part with stage := .quotes (count + 1) } rest
      else if 3 ≤ count then some (part.content quotes.mark (count - 3), char :: rest)
      else mark ⟨.plain, List.replicate count quotes.mark ++ part.reversed⟩

/-- A line end right behind opening triple quotes does not count. -/
def dropLineEnd : List Char → List Char
  | '\n' :: rest => rest
  | '\r' :: '\n' :: rest => rest
  | chars => chars

def readString? : List Char → Option (String × List Char)
  | '"' :: '"' :: '"' :: rest => readText ⟨'"', true⟩ .start (dropLineEnd rest)
  | '\'' :: '\'' :: '\'' :: rest => readText ⟨'\'', true⟩ .start (dropLineEnd rest)
  | '"' :: rest => readText ⟨'"', false⟩ .start rest
  | '\'' :: rest => readText ⟨'\'', false⟩ .start rest
  | _ => none

end RowAlgebra.Toml
