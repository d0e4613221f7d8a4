import RowAlgebra.Float64.Decimal
import RowAlgebra.Json.Text
import RowAlgebra.Value.Basic

/-! Writing values as compact JSON. A blob is written as the list of its bytes; a map keeps
its order and its repeated keys. -/

namespace RowAlgebra.Json

def natChars (n : Nat) : List Char := Nat.toDigits 10 n

def intChars (n : Int) : List Char := if n < 0 then '-' :: natChars n.natAbs else natChars n.natAbs

def boolChars : Bool → List Char
  | true => ['t', 'r', 'u', 'e']
  | false => ['f', 'a', 'l', 's', 'e']

def writeMoreBytes : List UInt8 → List Char
  | [] => []
  | byte :: rest => ',' :: (natChars byte.toNat ++ writeMoreBytes rest)

def writeBytes : List UInt8 → List Char
  | [] => []
  | byte :: rest => natChars byte.toNat ++ writeMoreBytes rest

mutual

def write : Value → List Char
  | .null => ['n', 'u', 'l', 'l']
  | .bool flag => boolChars flag
  | .int number => intChars number.toInt
  | .float number => Float64.jsonFormat.chars number
  | .text content => quote content.toList
  | .blob bytes => '[' :: (writeBytes bytes ++ [']'])
  | .list items => '[' :: (writeItems items ++ [']'])
  | .map entries => '\x7b' :: (writeEntries entries ++ ['\x7d'])

def writeItems : List Value → List Char
  | [] => []
  | item :: rest => write item ++ writeMoreItems rest

def writeMoreItems : List Value → List Char
  | [] => []
  | item :: rest => ',' :: (write item ++ writeMoreItems rest)

def writeEntries : List (String × Value) → List Char
  | [] => []
  | (key, value) :: rest => quote key.toList ++ ':' :: (write value ++ writeMoreEntries rest)

def writeMoreEntries : List (String × Value) → List Char
  | [] => []
  | (key, value) :: rest => ',' :: (quote key.toList ++ ':' :: (write value ++ writeMoreEntries rest))

end

/-- The key that a value makes: text as it is, other scalars but null and blobs as their
own JSON text. -/
def keyText? : Value → Option (List Char)
  | .text content => some content.toList
  | .bool flag => some (boolChars flag)
  | .int number => some (intChars number.toInt)
  | .float number => some (Float64.jsonFormat.chars number)
  | .null | .blob _ | .list _ | .map _ => none

def keyEntries : List (Value × Value) → Except Error (List (String × Value))
  | [] => .ok []
  | (key, value) :: rest =>
    match keyText? key with
    | none => .error .keyNotString
    | some text => (keyEntries rest).map ((String.ofList text, value) :: ·)

end RowAlgebra.Json
