import RowAlgebra.Toml.Document
import RowAlgebra.Toml.Literal
import RowAlgebra.Toml.Text

/-! Reading TOML texts. A text is a sequence of statements, each on a line of its own;
lists and inline tables may go over several lines. Keys have no more parts, and values are
nested no deeper, than a limit. Every reader gives back what it read and the rest of the
text. -/

namespace RowAlgebra.Toml

def skipBlank (chars : List Char) : List Char := chars.dropWhile fun char => char = ' ' || char = '\t'

/-- Leaves out blanks, comments and line ends. A comment may hold no controls. -/
def skipFill (inComment : Bool) : List Char → Option (List Char)
  | [] => some []
  | '\r' :: '\n' :: rest => skipFill false rest
  | '\n' :: rest => skipFill false rest
  | char :: rest =>
    if inComment then (if isPlainChar char then skipFill true rest else none)
    else if char = ' ' ∨ char = '\t' then skipFill false rest
    else if char = '#' then skipFill true rest
    else some (char :: rest)

/-- Leaves out what may stand behind a statement, up to the next one. -/
def skipToStatement (chars : List Char) : Option (List Char) :=
  match skipBlank chars with
  | [] => some []
  | '#' :: rest => skipFill true rest
  | '\n' :: rest => skipFill false rest
  | '\r' :: '\n' :: rest => skipFill false rest
  | _ => none

def isBareKeyChar (char : Char) : Bool := char.isAlphanum || char = '_' || char = '-'

def readKey? (chars : List Char) : Option (String × List Char) :=
  match chars with
  | '"' :: rest => readText ⟨'"', false⟩ .start rest
  | '\'' :: rest => readText ⟨'\'', false⟩ .start rest
  | _ =>
    let key := chars.takeWhile isBareKeyChar
    if key.isEmpty then none else some (String.ofList key, chars.dropWhile isBareKeyChar)

/-- The most parts that a dotted key has. -/
def partLimit : Nat := 80

/-- The most lists and inline tables that a value is nested in, itself included. -/
def depthLimit : Nat := 80

/-- Reads the parts of a dotted key; there are at most as many as `bound`. -/
def readPath? : (bound : Nat) → List Char → Option (List String × List Char)
  | 0, _ => none
  | bound + 1, chars =>
    match readKey? (skipBlank chars) with
    | none => none
    | some (key, rest) =>
      match skipBlank rest with
      | '.' :: more => (readPath? bound more).map fun (path, rest) => (key :: path, rest)
      | rest => some ([key], rest)

mutual

/-- Reads a value that opens at most `room` lists and inline tables within each other. The
bound is on the steps. -/
def readValue? : (bound room : Nat) → List Char → Option (Value × List Char)
  | 0, _, _ => none
  | bound + 1, room, chars =>
    match chars, room with
    | '[' :: _, 0 | '\x7b' :: _, 0 => none
    | '[' :: rest, room + 1 => (readItems? bound room rest).map fun (items, rest) => (.list false items, rest)
    | '\x7b' :: rest, room + 1 =>
      (readPairs? bound room [] rest).map fun (entries, rest) => (.table .inline entries, rest)
    | '"' :: _, _ | '\'' :: _, _ => (readString? chars).map fun (content, rest) => (.text content, rest)
    | _, _ => (readLiteral? chars).map fun (spelling, rest) => (.literal spelling, rest)

def readItems? : (bound room : Nat) → List Char → Option (List Value × List Char)
  | 0, _, _ => none
  | bound + 1, room, chars =>
    match skipFill false chars with
    | none => none
    | some (']' :: rest) => some ([], rest)
    | some chars =>
      match readValue? bound room chars with
      | none => none
      | some (item, rest) =>
        match skipFill false rest with
        | some (']' :: rest) => some ([item], rest)
        | some (',' :: rest) => (readItems? bound room rest).map fun (items, rest) => (item :: items, rest)
        | _ => none

/-- Reads the pairs of an inline table, up to its end. The equals sign may stand on a line
of its own. -/
def readPairs? : (bound room : Nat) → Entries → List Char → Option (Entries × List Char)
  | 0, _, _, _ => none
  | bound + 1, room, entries, chars =>
    match skipFill false chars with
    | none => none
    | some ('\x7d' :: rest) => some (entries, rest)
    | some chars =>
      match readPath? partLimit chars with
      | none => none
      | some (path, rest) =>
        match skipFill false rest with
        | some ('=' :: rest) =>
          match (skipFill false rest).bind (readValue? bound room) with
          | none => none
          | some (value, rest) =>
            match entries.define path value, skipFill false rest with
            | some entries, some ('\x7d' :: rest) => some (entries, rest)
            | some entries, some (',' :: rest) => readPairs? bound room entries rest
            | _, _ => none
        | _ => none

end

def readStatement? (bound : Nat) (chars : List Char) : Option (Statement × List Char) :=
  match chars with
  | '[' :: '[' :: rest =>
    match readPath? partLimit rest with
    | some (path, ']' :: ']' :: rest) => some (.listHeader path, rest)
    | _ => none
  | '[' :: rest =>
    match readPath? partLimit rest with
    | some (path, ']' :: rest) => some (.tableHeader path, rest)
    | _ => none
  | _ =>
    match readPath? partLimit chars with
    | some (path, '=' :: rest) =>
      (readValue? bound depthLimit (skipBlank rest)).map fun (value, rest) => (.pair path value, rest)
    | _ => none

def readStatements? : (bound : Nat) → List Char → Option (List Statement)
  | 0, chars => if chars.isEmpty then some [] else none
  | bound + 1, chars =>
    if chars.isEmpty then some []
    else match readStatement? (bound + 1) chars with
      | none => none
      | some (statement, rest) =>
        match skipToStatement rest with
        | none => none
        | some rest => (readStatements? bound rest).map (statement :: ·)

/-- A mark of the byte order in front does not count. -/
def dropByteOrderMark : List Char → List Char
  | '\ufeff' :: rest => rest
  | chars => chars

/-- The entries of a text. No reader goes deeper, or repeats itself more often, than the
text has characters. -/
def read? (text : String) : Option Entries :=
  let chars := dropByteOrderMark text.toList
  match skipFill false chars with
  | none => none
  | some start => (readStatements? (chars.length + 1) start).bind Document.entries?

end RowAlgebra.Toml
