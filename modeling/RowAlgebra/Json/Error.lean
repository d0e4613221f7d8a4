/-! What can be wrong with a JSON text, or with the content of one, and with data that has
no JSON text. -/

namespace RowAlgebra.Json

inductive Category where
  /-- The text ends too early. -/
  | eof
  | syntactic
  /-- The text is well formed, but not of the content that was asked for. -/
  | data
deriving DecidableEq

def Category.name : Category → String
  | eof => "eof"
  | syntactic => "syntax"
  | data => "data"

inductive Error where
  | eofInValue
  | eofInList
  | eofInObject
  | eofInString
  | expectedValue
  | expectedWord
  | expectedColon
  | expectedListEnd
  | expectedObjectEnd
  | trailingComma
  | keyNotString
  | trailingCharacters
  | invalidNumber
  | numberOutOfRange
  | controlCharacter
  | invalidEscape
  | loneSurrogate
  | unpairedSurrogate
  | recursionLimit
  | invalidType (found expected : String)
  | unknownVariant (found : String) (expected : String)
deriving DecidableEq

namespace Error

def category : Error → Category
  | eofInValue | eofInList | eofInObject | eofInString => .eof
  | invalidType .. | unknownVariant .. => .data
  | _ => .syntactic

def message : Error → String
  | eofInValue => "EOF while parsing a value"
  | eofInList => "EOF while parsing a list"
  | eofInObject => "EOF while parsing an object"
  | eofInString => "EOF while parsing a string"
  | expectedValue => "expected value"
  | expectedWord => "expected ident"
  | expectedColon => "expected `:`"
  | expectedListEnd => "expected `,` or `]`"
  | expectedObjectEnd => "expected `,` or `\x7d`"
  | trailingComma => "trailing comma"
  | keyNotString => "key must be a string"
  | trailingCharacters => "trailing characters"
  | invalidNumber => "invalid number"
  | numberOutOfRange => "number out of range"
  | controlCharacter => "control character (\\u0000-\\u001F) found while parsing a string"
  | invalidEscape => "invalid escape"
  | loneSurrogate => "lone leading surrogate in hex escape"
  | unpairedSurrogate => "unexpected end of hex escape"
  | recursionLimit => "recursion limit exceeded"
  | invalidType found expected => s!"invalid type: {found}, expected {expected}"
  | unknownVariant found expected => s!"unknown variant `{found}`, expected {expected}"

end Error

end RowAlgebra.Json
