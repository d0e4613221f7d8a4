import RowAlgebra.Json.Reader
import RowAlgebra.Json.Writer

/-! Values to JSON text and back. Every value has a text; data whose map keys are values of
any kind may have none. -/

namespace RowAlgebra

inductive CodecError where
  | encode (cause : Json.Error)
  | decode (cause : Json.Error)
deriving DecidableEq

namespace CodecError

def cause : CodecError → Json.Error
  | encode cause => cause
  | decode cause => cause

def message : CodecError → String
  | encode cause => s!"json encode failed: {cause.message}"
  | decode cause => s!"json decode failed: {cause.message}"

end CodecError

def Value.toJson (value : Value) : String := String.ofList (Json.write value)

def Value.ofJson (text : String) : Except CodecError Value := (Json.read text.toList).mapError .decode

def listToJson (values : List Value) : String :=
  String.ofList ('[' :: ([','].intercalate (values.map Json.write) ++ [']']))

def entryChars (entry : String × Value) : List Char := Json.quote entry.1.toList ++ ':' :: Json.write entry.2

/-- The texts of named values as one map, in the order given. -/
def entriesToJson (entries : List (String × Value)) : String :=
  String.ofList ('\x7b' :: ([','].intercalate (entries.map entryChars) ++ ['\x7d']))

def keyedToJson (entries : List (Value × Value)) : Except CodecError String :=
  ((Json.keyEntries entries).map entriesToJson).mapError .encode

end RowAlgebra
