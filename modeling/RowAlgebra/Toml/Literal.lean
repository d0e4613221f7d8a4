/-! Literals of a TOML text that are no strings: booleans, integers, floats, dates and
times. A configuration has no use for their values, so they are only checked for form; of
an integer in groups only the first group and the seams between the groups are. -/

namespace RowAlgebra.Toml

/-- Whether every underscore stands between two digits. -/
def isSeamed (isDigit : Char → Bool) (afterDigit : Bool) : List Char → Bool
  | [] => true
  | '_' :: rest => afterDigit && rest.head?.any isDigit && isSeamed isDigit false rest
  | char :: rest => isSeamed isDigit (isDigit char) rest

/-- Groups of digits with single underscores between them, or nothing. -/
def isGrouped (isDigit : Char → Bool) (chars : List Char) : Bool :=
  chars.all (fun char => isDigit char || char = '_') && isSeamed isDigit false chars

def isDecimal (chars : List Char) : Bool := !chars.isEmpty && isGrouped Char.isDigit chars

/-- Decimal digits without leading zeros. -/
def isWhole (chars : List Char) : Bool := isDecimal chars && (chars.length = 1 || chars.head? ≠ some '0')

def dropSign : List Char → List Char
  | '+' :: rest => rest
  | '-' :: rest => rest
  | chars => chars

def isHexDigit (char : Char) : Bool :=
  char.isDigit || ('a' ≤ char && char ≤ 'f') || ('A' ≤ char && char ≤ 'F')

/-- Behind the first group any characters pass that do not make a float of it, as long as
every seam lies between hexadecimal digits. -/
def isGroupedInteger (chars : List Char) : Bool :=
  let first := chars.takeWhile Char.isDigit
  first.head?.any (· ≠ '0') && (chars.drop first.length).head? = some '_' &&
    chars.all (fun char => char ∉ [' ', '.', 'e', 'E']) && isSeamed isHexDigit false chars

/-- A mark of the base may stand alone, for it is not asked for a value. -/
def isInteger : List Char → Bool
  | '0' :: 'x' :: digits => isGrouped isHexDigit digits
  | '0' :: 'o' :: digits => isGrouped (fun char => '0' ≤ char && char ≤ '7') digits
  | '0' :: 'b' :: digits => isGrouped (fun char => char = '0' || char = '1') digits
  | chars => isWhole (dropSign chars) || isGroupedInteger (dropSign chars)

def isExponent : List Char → Bool
  | [] => true
  | mark :: rest => (mark = 'e' || mark = 'E') && isDecimal (dropSign rest)

def isFloat (chars : List Char) : Bool :=
  let unsigned := dropSign chars
  let isDigitPart (char : Char) := char.isDigit || char = '_'
  let whole := unsigned.takeWhile isDigitPart
  let rest := unsigned.dropWhile isDigitPart
  unsigned = ['i', 'n', 'f'] || unsigned = ['n', 'a', 'n'] ||
    isWhole whole && match rest with
      | [] => false
      | '.' :: fraction =>
        isDecimal (fraction.takeWhile isDigitPart) && isExponent (fraction.dropWhile isDigitPart)
      | exponent => isExponent exponent

def fixedNumber? (digits : List Char) : Option Nat :=
  if digits.all Char.isDigit then some (digits.foldl (fun n char => n * 10 + (char.toNat - '0'.toNat)) 0) else none

def isAtMost (digits : List Char) (most : Nat) : Bool := (fixedNumber? digits).any (· ≤ most)

def isLeapYear (year : Nat) : Bool := year % 4 = 0 && (year % 100 ≠ 0 || year % 400 = 0)

def monthLength (year month : Nat) : Nat :=
  if month = 2 then (if isLeapYear year then 29 else 28)
  else if month = 4 ∨ month = 6 ∨ month = 9 ∨ month = 11 then 30
  else 31

def isDate : List Char → Bool
  | [a, b, c, d, '-', e, f, '-', g, h] =>
    match fixedNumber? [a, b, c, d], fixedNumber? [e, f], fixedNumber? [g, h] with
    | some year, some month, some day => 1 ≤ month && month ≤ 12 && 1 ≤ day && day ≤ monthLength year month
    | _, _, _ => false
  | _ => false

def isSeconds : List Char → Bool
  | [] => true
  | [':', a, b] => isAtMost [a, b] 60
  | ':' :: a :: b :: '.' :: fraction => isAtMost [a, b] 60 && !fraction.isEmpty && fraction.all Char.isDigit
  | _ => false

def isTime : List Char → Bool
  | a :: b :: ':' :: c :: d :: seconds => isAtMost [a, b] 23 && isAtMost [c, d] 59 && isSeconds seconds
  | _ => false

def isOffset : List Char → Bool
  | [] => true
  | ['Z'] => true
  | ['z'] => true
  | [sign, a, b, ':', c, d] => (sign = '+' || sign = '-') && isAtMost [a, b] 23 && isAtMost [c, d] 59
  | _ => false

/-- A time with an offset, which starts at the first character that no time has. -/
def isTimeWithOffset (chars : List Char) : Bool :=
  let isTimePart (char : Char) := char.isDigit || char = ':' || char = '.'
  isTime (chars.takeWhile isTimePart) && isOffset (chars.dropWhile isTimePart)

def isMoment (chars : List Char) : Bool :=
  isDate chars || isTime chars ||
    (isDate (chars.take 10) && match chars.drop 10 with
      | divider :: time => (divider = 'T' || divider = 't' || divider = ' ') && isTimeWithOffset time
      | [] => false)

def isLiteral (chars : List Char) : Bool :=
  chars = ['t', 'r', 'u', 'e'] || chars = ['f', 'a', 'l', 's', 'e'] || isInteger chars || isFloat chars ||
    isMoment chars

/-- Whether a character has no meaning between literals, so that it may stand in one. -/
def isLiteralChar (char : Char) : Bool :=
  char ∉ ['=', ',', '[', ']', '\x7b', '\x7d', '#', ' ', '\t', '\r', '\n']

/-- Divides off the literal that a text starts with. Blanks belong to it where it goes on
behind them; a quote behind blanks starts something else. -/
def spanLiteral (afterBlank : Bool) : List Char → List Char × List Char
  | [] => ([], [])
  | char :: rest =>
    if isLiteralChar char && !(afterBlank && (char = '"' || char = '\'')) then
      let (inside, behind) := spanLiteral false rest
      (char :: inside, behind)
    else if char = ' ' || char = '\t' then
      match spanLiteral true rest with
      | ([], _) => ([], char :: rest)
      | (inside, behind) => (char :: inside, behind)
    else ([], char :: rest)

def readLiteral? (chars : List Char) : Option (String × List Char) :=
  let (inside, behind) := spanLiteral false chars
  if isLiteral inside then some (String.ofList inside, behind) else none

end RowAlgebra.Toml
