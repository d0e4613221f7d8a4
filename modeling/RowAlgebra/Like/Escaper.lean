/-! Escaping text for wildcard patterns. A character is escaped when it is the escape
character or a wildcard; the two standard wildcards always count, extra ones can be
added. Escaped text is joined by plain concatenation and never escaped again. -/

namespace RowAlgebra.Like

/-- The characters every pattern treats as wildcards. -/
def standardWildcards : List Char := ['%', '_']

def standardEscape : Char := '\\'

/-- Text that is part of a pattern as it stands. -/
structure Pattern where
  text : String
deriving DecidableEq

namespace Pattern

instance : EmptyCollection Pattern := ⟨⟨""⟩⟩

instance : Inhabited Pattern := ⟨∅⟩

def isEmpty (pattern : Pattern) : Bool := pattern.text.isEmpty

def pushRaw (pattern : Pattern) (raw : String) : Pattern := ⟨pattern.text ++ raw⟩

instance : Append Pattern := ⟨fun first second => ⟨first.text ++ second.text⟩⟩

@[simp] theorem toList_empty : (∅ : Pattern).text.toList = [] := rfl

@[simp] theorem toList_pushRaw (pattern : Pattern) (raw : String) :
    (pattern.pushRaw raw).text.toList = pattern.text.toList ++ raw.toList := String.toList_append ..

@[simp] theorem toList_append (first second : Pattern) :
    (first ++ second).text.toList = first.text.toList ++ second.text.toList := String.toList_append ..

end Pattern

/-- Puts the escape character before itself and before every wildcard. -/
def escapeChars (escape : Char) (wildcards : List Char) : List Char → List Char
  | [] => []
  | char :: rest =>
    if char = escape ∨ char ∈ wildcards then escape :: char :: escapeChars escape wildcards rest
    else char :: escapeChars escape wildcards rest

/-- Escapes text for the standard wildcards. -/
def escape (text : String) (char : Char) : Pattern :=
  ⟨String.ofList (escapeChars char standardWildcards text.toList)⟩

structure Escaper where
  escapeChar : Char
  wildcards : List Char
deriving DecidableEq

namespace Escaper

def addWildcard (wildcards : List Char) (char : Char) : List Char :=
  if char ∈ wildcards then wildcards else wildcards ++ [char]

/-- The standard wildcards come first, extra ones in order of first appearance. -/
def withWildcards (escapeChar : Char) (extra : List Char) : Escaper :=
  ⟨escapeChar, extra.foldl addWildcard standardWildcards⟩

def new (escapeChar : Char) : Escaper := withWildcards escapeChar []

def standard : Escaper := new standardEscape

def escape (escaper : Escaper) (text : String) : Pattern :=
  ⟨String.ofList (escapeChars escaper.escapeChar escaper.wildcards text.toList)⟩

def contains (escaper : Escaper) (fragment : String) : Pattern :=
  ((∅ : Pattern).pushRaw "%" ++ escaper.escape fragment).pushRaw "%"

def startsWith (escaper : Escaper) (fragment : String) : Pattern :=
  (escaper.escape fragment).pushRaw "%"

def endsWith (escaper : Escaper) (fragment : String) : Pattern :=
  (∅ : Pattern).pushRaw "%" ++ escaper.escape fragment

end Escaper

end RowAlgebra.Like
