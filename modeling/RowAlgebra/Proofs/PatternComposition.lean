import RowAlgebra.Like.Escaper
import RowAlgebra.Proofs.GreedyMatch

/-! Patterns put together from fragments. Reading a pattern looks one character ahead, behind an
escape character only; so a fragment that does not end in the middle of such a pair is read
the same whatever follows it, and a text matches the whole if it can be cut into texts that
match the fragments one by one. Escaped text is always such a fragment. -/

namespace RowAlgebra.Proofs.PatternComposition
open Like PatternMeaning GreedyMatch

/-- From left to right, every escape character has a character behind it that it escapes. -/
def closed (escape : Char) : List Char → Bool
  | [] => true
  | [last] => last ≠ escape
  | char :: next :: rest => if char = escape then closed escape rest else closed escape (next :: rest)

inductive Composition where
  | empty
  | single (part : Pattern)
  | append (first second : Composition)
  | pushRaw (first : Composition) (raw : String)

namespace Composition

def pattern : Composition → Pattern
  | empty => ∅
  | single part => part
  | append first second => first.pattern ++ second.pattern
  | pushRaw first raw => first.pattern.pushRaw raw

def fragments : Composition → List String
  | empty => []
  | single part => [part.text]
  | append first second => first.fragments ++ second.fragments
  | pushRaw first raw => first.fragments ++ [raw]

theorem toList_pattern (composition : Composition) :
    composition.pattern.text.toList = (composition.fragments.map String.toList).flatten := by
  induction composition with
  | empty => rfl
  | single part => simp [pattern, fragments]
  | append first second ih ih' => simp [pattern, fragments, ih, ih']
  | pushRaw first raw ih => simp [pattern, fragments, ih]

end Composition

variable {escape : Char}

theorem tokens_append {first : List Char} (complete : closed escape first = true) (rest : List Char) :
    tokens escape (first ++ rest) = tokens escape first ++ tokens escape rest := by
  fun_induction closed escape first with
  | case1 => rfl
  | case2 last =>
    have bare : last ≠ escape := of_decide_eq_true complete
    rw [List.singleton_append, tokens_bare bare, tokens_bare bare]
    rfl
  | case3 next behind ih => simp [tokens, ih complete]
  | case4 char next behind bare ih =>
    rw [List.cons_append, tokens_bare bare, tokens_bare bare, ih complete]
    rfl

/-- The last fragment may end in the middle of a pair, since nothing follows it. -/
theorem tokens_flatten (fragments : List (List Char))
    (complete : ∀ fragment ∈ fragments.dropLast, closed escape fragment = true) :
    tokens escape fragments.flatten = (fragments.map (tokens escape)).flatten := by
  induction fragments with
  | nil => rfl
  | cons fragment rest ih =>
    cases rest with
    | nil => simp
    | cons next more =>
      rw [List.dropLast_cons_cons] at complete
      obtain ⟨first, others⟩ := List.forall_mem_cons.mp complete
      rw [List.flatten_cons, tokens_append first, ih others]
      rfl

theorem closed_bare {char : Char} (bare : char ≠ escape) (rest : List Char) :
    closed escape (char :: rest) = closed escape rest := by
  cases rest with
  | nil => simp [closed, bare]
  | cons next rest => simp [closed, bare]

theorem closed_escapeChars (wildcards text : List Char) : closed escape (escapeChars escape wildcards text) = true := by
  induction text with
  | nil => rfl
  | cons char text ih =>
    rw [escapeChars]
    split
    next => rwa [closed, if_pos rfl]
    next plain => rwa [closed_bare (not_or.mp plain).1]

theorem spans_append {first second : List Token} {text : List Char} :
    Spans (first ++ second) text ↔
      ∃ before behind, Spans first before ∧ Spans second behind ∧ before ++ behind = text := by
  induction first generalizing text with
  | nil => simp
  | cons token first ih =>
    rw [List.cons_append, spans_cons]
    constructor
    · intro ⟨piece, rest, taken, spans, same⟩
      obtain ⟨before, behind, start, others, rfl⟩ := ih.mp spans
      refine ⟨piece ++ before, behind, spans_cons.mpr ⟨piece, before, taken, start, rfl⟩, others, ?_⟩
      rw [same, List.append_assoc]
    · intro ⟨before, behind, start, others, same⟩
      obtain ⟨piece, rest, taken, spans, rfl⟩ := spans_cons.mp start
      refine ⟨piece, rest ++ behind, taken, ih.mpr ⟨rest, behind, spans, others, rfl⟩, ?_⟩
      rw [← same, List.append_assoc]

theorem spans_flatten {groups : List (List Token)} {text : List Char} :
    Spans groups.flatten text ↔ ∃ pieces, List.Forall₂ Spans groups pieces ∧ pieces.flatten = text := by
  induction groups generalizing text with
  | nil => simp [eq_comm]
  | cons group groups ih =>
    rw [List.flatten_cons, spans_append]
    constructor
    · intro ⟨before, behind, start, others, same⟩
      obtain ⟨pieces, spans, rfl⟩ := ih.mp others
      exact ⟨before :: pieces, .cons start spans, same⟩
    · intro ⟨pieces, spans, same⟩
      cases spans with
      | cons start others => exact ⟨_, _, start, ih.mpr ⟨_, others, rfl⟩, same⟩

def MatchesInTurn (escape : Char) (fragments : List String) (text : String) : Prop :=
  ∃ pieces, List.Forall₂ (fun fragment piece => isMatch piece fragment escape = true) fragments pieces ∧
    String.join pieces = text

theorem matchesInTurn_iff {fragments : List String} {text : String} :
    MatchesInTurn escape fragments text ↔
      Spans ((fragments.map String.toList).map (tokens escape)).flatten text.toList := by
  rw [spans_flatten, MatchesInTurn]
  simp only [List.forall₂_map_left_iff, isMatch_iff]
  constructor
  · intro ⟨pieces, spans, same⟩
    refine ⟨pieces.map String.toList, List.forall₂_map_right_iff.mpr spans, ?_⟩
    rw [← same, String.toList_join, List.flatMap_def]
  · intro ⟨pieces, spans, same⟩
    refine ⟨pieces.map String.ofList, List.forall₂_map_right_iff.mpr ?_, ?_⟩
    · simpa only [String.toList_ofList] using spans
    · have read : String.toList ∘ String.ofList = id := funext fun _ => String.toList_ofList
      rw [← String.toList_inj, String.toList_join, ← same, List.flatMap_def, List.map_map, read, List.map_id]

/-- Joining patterns joins what they match, as long as every fragment but the last is closed;
and escaped text is always closed. -/
theorem compositions_match (escape : Char) :
    (∀ (composition : Composition) text,
      (∀ fragment ∈ composition.fragments.dropLast, closed escape fragment.toList = true) →
      (isMatch text composition.pattern.text escape = true ↔ MatchesInTurn escape composition.fragments text)) ∧
    (∀ wildcards text, closed escape (Escaper.escape ⟨escape, wildcards⟩ text).text.toList = true) ∧
    ∀ text, closed escape (Like.escape text escape).text.toList = true := by
  refine ⟨?_, ?_, ?_⟩
  · intro composition text complete
    rw [isMatch_iff, composition.toList_pattern, tokens_flatten, matchesInTurn_iff]
    rw [← List.map_dropLast]
    exact List.forall_mem_map.mpr complete
  · intro wildcards text
    rw [Escaper.escape, String.toList_ofList]
    exact closed_escapeChars wildcards _
  · intro text
    rw [Like.escape, String.toList_ofList]
    exact closed_escapeChars standardWildcards _

/-- Escaped and raw fragments in turn; the last one ends in the middle of a pair. -/
theorem mixed_fragments_match :
    let composition : Composition :=
      (((Composition.single (Like.escape "50%" '!')).pushRaw "%_").append (.single (Like.escape "!" '!'))).pushRaw "a!"
    (∀ fragment ∈ composition.fragments.dropLast, closed '!' fragment.toList = true) ∧
      closed '!' "a!".toList = false ∧ composition.pattern.text = "50!%%_!!a!" ∧
      MatchesInTurn '!' composition.fragments "50%xyz!a!" ∧ isMatch "50%xyz!a!" "50!%%_!!a!" '!' = true := by
  intro composition
  have fragments : composition.fragments = ["50!%", "%_", "!!", "a!"] := by decide
  have complete : ∀ fragment ∈ composition.fragments.dropLast, closed '!' fragment.toList = true := by
    rw [fragments]
    decide
  have pattern : composition.pattern.text = "50!%%_!!a!" := by decide
  have inTurn : MatchesInTurn '!' composition.fragments "50%xyz!a!" := by
    rw [fragments]
    refine ⟨["50%", "xyz", "!", "a!"], .cons ?_ (.cons ?_ (.cons ?_ (.cons ?_ .nil))), by decide⟩
    all_goals cbv
  have matched := ((compositions_match '!').1 composition "50%xyz!a!" complete).mpr inTurn
  exact ⟨complete, by decide, pattern, inTurn, pattern ▸ matched⟩

end RowAlgebra.Proofs.PatternComposition
