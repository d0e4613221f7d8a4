import Mathlib.Data.List.Forall2
import Mathlib.Data.Set.Function
import Mathlib.Data.Set.List
import RowAlgebra.Like.Escaper

/-! The language of escaped text. Escaped text is put together from units: a character that stands
for itself, or the escape character with the character that it escapes. A character settles which
unit it gets, and the first character of a unit settles where the unit ends; so a text and its
escaped form settle each other, whatever the escape character and the wildcards are. -/

namespace RowAlgebra.Proofs.EscapeLanguage
open Like

inductive Writes (escape : Char) (wildcards : List Char) : Char → List Char → Prop where
  | alone {char : Char} (bare : char ≠ escape) (unlisted : char ∉ wildcards) : Writes escape wildcards char [char]
  | pair {char : Char} (special : char = escape ∨ char ∈ wildcards) : Writes escape wildcards char [escape, char]

def language (escape : Char) (wildcards : List Char) : Set Pattern :=
  {pattern | ∃ units : List (List Char),
    (∀ unit ∈ units, ∃ char, Writes escape wildcards char unit) ∧ units.flatten = pattern.text.toList}

/-- Leaves out the escape character of every pair, and one at the very end. -/
def unescapeChars (escape : Char) : List Char → List Char
  | [] => []
  | [last] => if last = escape then [] else [last]
  | char :: next :: rest =>
    if char = escape then next :: unescapeChars escape rest else char :: unescapeChars escape (next :: rest)

def unescape (escape : Char) (pattern : Pattern) : String :=
  String.ofList (unescapeChars escape pattern.text.toList)

/-- The characters that are in no pair, a lone escape character at the very end among them. -/
def unpaired (escape : Char) : List Char → List Char
  | [] => []
  | [last] => [last]
  | char :: next :: rest =>
    if char = escape then unpaired escape rest else char :: unpaired escape (next :: rest)

/-- What makes escaping reversible: it leads onto the language, and unescaping leads back. -/
structure Reversible (escape : Char) (wildcards : List Char) (encode : String → Pattern) : Prop where
  onto : Set.BijOn encode Set.univ (language escape wildcards)
  inverse : Set.InvOn (unescape escape) encode Set.univ (language escape wildcards)
  units : ∀ text, ∃ units,
    List.Forall₂ (Writes escape wildcards) text.toList units ∧ units.flatten = (encode text).text.toList
  unambiguous : ∀ text units, (∀ unit ∈ units, ∃ char, Writes escape wildcards char unit) →
    units.flatten = (encode text).text.toList → List.Forall₂ (Writes escape wildcards) text.toList units
  unpaired : ∀ text, ∀ char ∈ unpaired escape (encode text).text.toList, char ≠ escape ∧ char ∉ wildcards
  append : ∀ first second, encode (first ++ second) = encode first ++ encode second

variable {escape : Char} {wildcards : List Char}

def unitOf (escape : Char) (wildcards : List Char) (char : Char) : List Char :=
  if char = escape ∨ char ∈ wildcards then [escape, char] else [char]

theorem writes_iff {char : Char} {unit : List Char} :
    Writes escape wildcards char unit ↔ unitOf escape wildcards char = unit := by
  unfold unitOf
  constructor
  · intro writes
    cases writes with
    | alone bare unlisted => exact if_neg (not_or.mpr ⟨bare, unlisted⟩)
    | pair special => exact if_pos special
  · rintro rfl
    split
    next special => exact .pair special
    next plain => exact .alone (not_or.mp plain).1 (not_or.mp plain).2

theorem forall₂_writes_iff {text : List Char} {units : List (List Char)} :
    List.Forall₂ (Writes escape wildcards) text units ↔ text.map (unitOf escape wildcards) = units := by
  induction text generalizing units with
  | nil => simp [eq_comm]
  | cons char text ih => cases units <;> simp [writes_iff, ih]

theorem units_iff {units : List (List Char)} :
    (∀ unit ∈ units, ∃ char, Writes escape wildcards char unit) ↔
      ∃ text, List.Forall₂ (Writes escape wildcards) text units := by
  simp only [forall₂_writes_iff, writes_iff]
  constructor
  · intro each
    rw [← Set.mem_range, Set.range_list_map]
    exact each
  · rintro ⟨text, rfl⟩ unit member
    obtain ⟨char, -, same⟩ := List.mem_map.mp member
    exact ⟨char, same⟩

theorem escapeChars_eq_flatten (text : List Char) :
    escapeChars escape wildcards text = (text.map (unitOf escape wildcards)).flatten := by
  induction text with
  | nil => rfl
  | cons char text ih =>
    simp only [escapeChars, List.map_cons, List.flatten_cons, unitOf, ih]
    split <;> rfl

theorem unescapeChars_bare {char : Char} (bare : char ≠ escape) (rest : List Char) :
    unescapeChars escape (char :: rest) = char :: unescapeChars escape rest := by
  cases rest with
  | nil => simp [unescapeChars, bare]
  | cons next rest => simp [unescapeChars, bare]

theorem unpaired_bare {char : Char} (bare : char ≠ escape) (rest : List Char) :
    unpaired escape (char :: rest) = char :: unpaired escape rest := by
  cases rest with
  | nil => simp [unpaired]
  | cons next rest => simp [unpaired, bare]

theorem unescapeChars_escapeChars (text : List Char) :
    unescapeChars escape (escapeChars escape wildcards text) = text := by
  induction text with
  | nil => rfl
  | cons char text ih =>
    rw [escapeChars]
    split
    next special => simp [unescapeChars, ih]
    next plain => rw [unescapeChars_bare (not_or.mp plain).1, ih]

theorem unpaired_escapeChars (text : List Char) :
    ∀ char ∈ unpaired escape (escapeChars escape wildcards text), char ≠ escape ∧ char ∉ wildcards := by
  induction text with
  | nil => exact fun _ member => nomatch member
  | cons char text ih =>
    rw [escapeChars]
    split
    next special => simpa [unpaired] using ih
    next plain =>
      rw [unpaired_bare (not_or.mp plain).1]
      exact List.forall_mem_cons.mpr ⟨not_or.mp plain, ih⟩

theorem mem_language_iff {pattern : Pattern} :
    pattern ∈ language escape wildcards ↔ ∃ text, escapeChars escape wildcards text = pattern.text.toList := by
  constructor
  · intro ⟨units, each, same⟩
    obtain ⟨text, writes⟩ := units_iff.mp each
    obtain rfl := forall₂_writes_iff.mp writes
    exact ⟨text, (escapeChars_eq_flatten text).trans same⟩
  · intro ⟨text, same⟩
    have writes : List.Forall₂ (Writes escape wildcards) text (text.map (unitOf escape wildcards)) :=
      forall₂_writes_iff.mpr rfl
    exact ⟨_, units_iff.mpr ⟨text, writes⟩, (escapeChars_eq_flatten text).symm.trans same⟩

theorem pattern_ext {first second : Pattern} (same : first.text.toList = second.text.toList) : first = second :=
  congrArg Pattern.mk (String.toList_inj.mp same)

theorem reversible_of_spelled {encode : String → Pattern}
    (spelled : ∀ text, (encode text).text.toList = escapeChars escape wildcards text.toList) :
    Reversible escape wildcards encode := by
  have left : Set.LeftInvOn (unescape escape) encode Set.univ := by
    intro text _
    rw [unescape, spelled, unescapeChars_escapeChars, String.ofList_toList]
  have maps : Set.MapsTo encode Set.univ (language escape wildcards) := by
    intro text _
    exact mem_language_iff.mpr ⟨text.toList, (spelled text).symm⟩
  have right : Set.RightInvOn (unescape escape) encode (language escape wildcards) := by
    intro pattern member
    obtain ⟨text, same⟩ := mem_language_iff.mp member
    apply pattern_ext
    rw [spelled, unescape, ← same, unescapeChars_escapeChars, String.toList_ofList]
  have inverse : Set.InvOn (unescape escape) encode Set.univ (language escape wildcards) := ⟨left, right⟩
  constructor
  case onto => exact Set.InvOn.bijOn inverse maps fun _ _ => trivial
  case inverse => exact inverse
  case units =>
    intro text
    refine ⟨_, forall₂_writes_iff.mpr rfl, ?_⟩
    rw [spelled, escapeChars_eq_flatten]
  case unambiguous =>
    intro text units each same
    obtain ⟨other, writes⟩ := units_iff.mp each
    obtain rfl := forall₂_writes_iff.mp writes
    rw [← escapeChars_eq_flatten, spelled] at same
    have equal := congrArg (unescapeChars escape) same
    rw [unescapeChars_escapeChars, unescapeChars_escapeChars] at equal
    exact equal ▸ writes
  case unpaired =>
    intro text
    rw [spelled]
    exact unpaired_escapeChars text.toList
  case append =>
    intro first second
    apply pattern_ext
    simp only [Pattern.toList_append, spelled, escapeChars_eq_flatten, String.toList_append, List.map_append,
      List.flatten_append]

/-- Escaping is a bijection from all texts onto the language of its units, for every escape
character and all wildcards, also where the escape character is one of them. -/
theorem escaping_reversible :
    (∀ escaper : Escaper, Reversible escaper.escapeChar escaper.wildcards escaper.escape) ∧
      ∀ char, Reversible char standardWildcards (Like.escape · char) := by
  constructor
  · intro escaper
    exact reversible_of_spelled fun text => String.toList_ofList
  · intro char
    exact reversible_of_spelled fun text => String.toList_ofList

/-- The escape character is a wildcard here, and read as one half of a pair wherever it stands. -/
example : (Escaper.withWildcards '%' ['*']).escape "%_*%a" = ⟨"%%%_%*%%a"⟩ ∧
    unescape '%' ⟨"%%%_%*%%a"⟩ = "%_*%a" := by
  decide

end RowAlgebra.Proofs.EscapeLanguage
