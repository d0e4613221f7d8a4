import RowAlgebra.Json.Error

/-! String literals: writing them, and reading them one character at a time. Only quotes,
backslashes and control characters are escaped. Reading takes every escape, and code
points beyond the basic plane as pairs of surrogates. -/

namespace RowAlgebra.Json

/-- The letter that stands for a control character, where it has one. -/
def controlLetter? (char : Char) : Option Char :=
  if char = '\x08' then some 'b'
  else if char = '\x0c' then some 'f'
  else if char = '\n' then some 'n'
  else if char = '\r' then some 'r'
  else if char = '\t' then some 't'
  else none

def hexDigit (n : Nat) : Char := if n < 10 then Char.ofNat (n + '0'.toNat) else Char.ofNat (n - 10 + 'a'.toNat)

def escapeChar (char : Char) : List Char :=
  if char = '"' ∨ char = '\\' then ['\\', char]
  else if char.toNat < 0x20 then
    match controlLetter? char with
    | some letter => ['\\', letter]
    | none => ['\\', 'u', '0', '0', hexDigit (char.toNat / 16), hexDigit (char.toNat % 16)]
  else [char]

def quote (content : List Char) : List Char := '"' :: (content.flatMap escapeChar ++ ['"'])

def hexValue? (char : Char) : Option Nat :=
  if '0' ≤ char ∧ char ≤ '9' then some (char.toNat - '0'.toNat)
  else if 'a' ≤ char ∧ char ≤ 'f' then some (char.toNat - 'a'.toNat + 10)
  else if 'A' ≤ char ∧ char ≤ 'F' then some (char.toNat - 'A'.toNat + 10)
  else none

/-- The number that four hexadecimal digits write. -/
def hexUnit? (chars : List Char) : Option Nat :=
  match chars.mapM hexValue? with
  | some [a, b, c, d] => some (((a * 16 + b) * 16 + c) * 16 + d)
  | _ => none

inductive EscapeStage where
  | none
  | letter
  /-- Behind `\u`; what was collected so far. After a first surrogate, that one too. -/
  | unit (first : Option Nat) (collected : List Char)
  /-- Behind a first surrogate, which needs a second one. -/
  | pair (first : Nat)
  | pairLetter (first : Nat)
deriving DecidableEq

/-- A string literal in progress: its content so far, the latest character first. -/
structure TextPart where
  stage : EscapeStage
  reversed : List Char
deriving DecidableEq

namespace TextPart

def start : TextPart := ⟨.none, []⟩

def add (part : TextPart) (char : Char) : TextPart := ⟨.none, char :: part.reversed⟩

def content (part : TextPart) : String := String.ofList part.reversed.reverse

def letterChar? (char : Char) : Option Char :=
  if char = '"' ∨ char = '\\' ∨ char = '/' then some char
  else if char = 'b' then some '\x08'
  else if char = 'f' then some '\x0c'
  else if char = 'n' then some '\n'
  else if char = 'r' then some '\r'
  else if char = 't' then some '\t'
  else none

def isFirstSurrogate (unit : Nat) : Bool := 0xD800 ≤ unit && unit ≤ 0xDBFF

def isSecondSurrogate (unit : Nat) : Bool := 0xDC00 ≤ unit && unit ≤ 0xDFFF

/-- The code point of a pair of surrogates. -/
def pairChar (first second : Nat) : Char :=
  Char.ofNat (0x10000 + (first - 0xD800) * 0x400 + (second - 0xDC00))

/-- What a unit of four digits adds, on its own or behind a first surrogate. -/
def addUnit (part : TextPart) (first : Option Nat) (unit : Nat) : Except Error TextPart :=
  match first with
  | some high => if isSecondSurrogate unit then .ok (part.add (pairChar high unit)) else .error .loneSurrogate
  | none =>
    if isSecondSurrogate unit then .error .loneSurrogate
    else if isFirstSurrogate unit then .ok { part with stage := .pair unit }
    else .ok (part.add (Char.ofNat unit))

def byteCount : List Char → Nat
  | [] => 0
  | char :: rest => char.utf8Size + byteCount rest

/-- The literal with one more character, or none if that was the closing quote. A unit is
judged only when four bytes of it are there, and the closing quote counts as one. -/
def step (part : TextPart) (char : Char) : Except Error (Option TextPart) :=
  match part.stage with
  | .none =>
    if char = '"' then .ok none
    else if char = '\\' then .ok (some { part with stage := .letter })
    else if char.toNat < 0x20 then .error .controlCharacter
    else .ok (some (part.add char))
  | .letter =>
    if char = 'u' then .ok (some { part with stage := .unit none [] })
    else match letterChar? char with
      | some meant => .ok (some (part.add meant))
      | none => .error .invalidEscape
  | .unit first collected =>
    let collected := collected ++ [char]
    if byteCount collected < 4 then .ok (some { part with stage := .unit first collected })
    else match hexUnit? collected with
      | some unit => (part.addUnit first unit).map some
      | none => .error .invalidEscape
  | .pair first => if char = '\\' then .ok (some { part with stage := .pairLetter first }) else .error .unpairedSurrogate
  | .pairLetter first =>
    if char = 'u' then .ok (some { part with stage := .unit (some first) [] }) else .error .unpairedSurrogate

end TextPart

end RowAlgebra.Json
