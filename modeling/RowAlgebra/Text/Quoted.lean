import RowAlgebra.Text.Unprintable

/-! Text in double quotes for diagnostics. Common controls have a letter of their own, and
what could not be seen in print is shown by its code point. -/

namespace RowAlgebra.Text

/-- A code point by number, in braces. -/
def numbered (char : Char) : List Char :=
  '\\' :: 'u' :: '\x7b' :: (Nat.toDigits 16 char.toNat ++ ['\x7d'])

def quotedChar (char : Char) : List Char :=
  if char = '\x00' then ['\\', '0']
  else if char = '\t' then ['\\', 't']
  else if char = '\r' then ['\\', 'r']
  else if char = '\n' then ['\\', 'n']
  else if char = '"' ∨ char = '\\' then ['\\', char]
  else if isUnprintable char then numbered char
  else [char]

def quoted (text : String) : String :=
  String.ofList ('"' :: (text.toList.flatMap quotedChar ++ ['"']))

end RowAlgebra.Text
