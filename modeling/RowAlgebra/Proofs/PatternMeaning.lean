import Mathlib.Data.List.Forall2
import RowAlgebra.Like.Match

/-! What a pattern means, without regard to how it is matched. A pattern text is read
into tokens by rules, and a text matches when it can be cut into consecutive pieces,
one for each token. Every way of cutting counts. -/

namespace RowAlgebra.Proofs.PatternMeaning
open Like

/-- The pieces that a token may take. -/
def Takes : Token → List Char → Prop
  | .literal char, piece => piece = [char]
  | .one, piece => ∃ char, piece = [char]
  | .run, _ => True

def Spans (tokens : List Token) (text : List Char) : Prop :=
  ∃ pieces : List (List Char), List.Forall₂ Takes tokens pieces ∧ pieces.flatten = text

/-- How a pattern text is read, from left to right. -/
inductive Reads (escape : Char) : List Char → List Token → Prop where
  | nil : Reads escape [] []
  | escaped {next rest tokens} (read : Reads escape rest tokens) :
      Reads escape (escape :: next :: rest) (.literal next :: tokens)
  | lone : Reads escape [escape] [.literal escape]
  | run {rest tokens} (bare : '%' ≠ escape) (read : Reads escape rest tokens) :
      Reads escape ('%' :: rest) (.run :: tokens)
  | one {rest tokens} (bare : '_' ≠ escape) (read : Reads escape rest tokens) :
      Reads escape ('_' :: rest) (.one :: tokens)
  | plain {char rest tokens} (bare : char ≠ escape) (notRun : char ≠ '%') (notOne : char ≠ '_')
      (read : Reads escape rest tokens) : Reads escape (char :: rest) (.literal char :: tokens)

theorem tokens_bare {escape char : Char} (bare : char ≠ escape) (rest : List Char) :
    tokens escape (char :: rest) = .ofBare char :: tokens escape rest := by
  cases rest with
  | nil => simp [tokens, bare]
  | cons next rest => simp [tokens, bare]

private theorem reads_bare {escape char : Char} {rest : List Char} {read : List Token}
    (bare : char ≠ escape) (follows : Reads escape rest read) :
    Reads escape (char :: rest) (.ofBare char :: read) := by
  by_cases run : char = '%'
  · subst run
    exact .run bare follows
  · by_cases one : char = '_'
    · subst one
      exact .one bare follows
    · simpa [Token.ofBare, run, one] using Reads.plain bare run one follows

theorem reads_tokens (escape : Char) (pattern : List Char) : Reads escape pattern (tokens escape pattern) := by
  induction pattern using tokens.induct escape with
  | case1 => exact .nil
  | case2 => simpa [tokens] using Reads.lone
  | case3 last bare => simpa [tokens, bare] using reads_bare bare .nil
  | case4 next rest ih => simpa [tokens] using ih.escaped
  | case5 char next rest bare ih =>
    rw [tokens_bare bare]
    exact reads_bare bare ih

theorem reads_iff {escape : Char} {pattern : List Char} {read : List Token} :
    Reads escape pattern read ↔ read = tokens escape pattern := by
  constructor
  · intro reads
    induction reads with
    | nil => rfl
    | escaped _ ih => simp [tokens, ih]
    | lone => simp [tokens]
    | run bare _ ih => rw [tokens_bare bare, ih]; rfl
    | one bare _ ih => rw [tokens_bare bare, ih]; rfl
    | plain bare notRun notOne _ ih => rw [tokens_bare bare, ih]; simp [Token.ofBare, notRun, notOne]
  · intro same
    subst same
    exact reads_tokens escape pattern

@[simp] theorem spans_nil {text : List Char} : Spans [] text ↔ text = [] := by
  constructor
  · intro cut
    obtain ⟨pieces, taken, rfl⟩ := cut
    cases taken
    rfl
  · intro same
    subst same
    exact ⟨[], .nil, rfl⟩

theorem spans_cons {token : Token} {tokens : List Token} {text : List Char} :
    Spans (token :: tokens) text ↔ ∃ piece rest, Takes token piece ∧ Spans tokens rest ∧ text = piece ++ rest := by
  constructor
  · intro cut
    obtain ⟨pieces, taken, rfl⟩ := cut
    cases taken with
    | cons first others => exact ⟨_, _, first, ⟨_, others, rfl⟩, rfl⟩
  · intro cut
    obtain ⟨piece, rest, first, ⟨pieces, others, rfl⟩, rfl⟩ := cut
    exact ⟨piece :: pieces, .cons first others, rfl⟩

theorem spans_literal {wanted char : Char} {tokens : List Token} {text : List Char} :
    Spans (.literal wanted :: tokens) (char :: text) ↔ wanted = char ∧ Spans tokens text := by
  rw [spans_cons]
  constructor
  · intro cut
    obtain ⟨piece, rest, rfl, spans, same⟩ := cut
    obtain ⟨rfl, rfl⟩ : char = wanted ∧ text = rest := by simpa using same
    exact ⟨rfl, spans⟩
  · intro cut
    obtain ⟨rfl, spans⟩ := cut
    exact ⟨[wanted], text, rfl, spans, rfl⟩

theorem spans_one {char : Char} {tokens : List Token} {text : List Char} :
    Spans (.one :: tokens) (char :: text) ↔ Spans tokens text := by
  rw [spans_cons]
  constructor
  · intro cut
    obtain ⟨piece, rest, ⟨taken, rfl⟩, spans, same⟩ := cut
    obtain ⟨rfl, rfl⟩ : char = taken ∧ text = rest := by simpa using same
    exact spans
  · intro spans
    exact ⟨[char], text, ⟨char, rfl⟩, spans, rfl⟩

theorem spans_cons_nonempty {token : Token} {tokens : List Token} {text : List Char} (steady : token ≠ .run)
    (spans : Spans (token :: tokens) text) : ∃ char rest, text = char :: rest ∧ Spans tokens rest := by
  obtain ⟨piece, rest, first, others, rfl⟩ := spans_cons.mp spans
  cases token with
  | literal char => exact ⟨char, rest, by rw [first]; rfl, others⟩
  | one =>
    obtain ⟨char, rfl⟩ := first
    exact ⟨char, rest, rfl, others⟩
  | run => exact absurd rfl steady

theorem spans_run {tokens : List Token} {text : List Char} :
    Spans (.run :: tokens) text ↔ ∃ taken, taken ≤ text.length ∧ Spans tokens (text.drop taken) := by
  rw [spans_cons]
  constructor
  · intro cut
    obtain ⟨piece, rest, -, spans, rfl⟩ := cut
    exact ⟨piece.length, by simp, by simpa using spans⟩
  · intro ⟨taken, _, spans⟩
    exact ⟨text.take taken, text.drop taken, trivial, spans, by simp⟩

theorem spans_empty {tokens : List Token} : Spans tokens [] ↔ ∀ token ∈ tokens, token = .run := by
  induction tokens with
  | nil => simp
  | cons token tokens ih =>
    constructor
    · intro spans
      by_cases run : token = .run
      · subst run
        obtain ⟨taken, -, rest⟩ := spans_run.mp spans
        rw [List.drop_nil, ih] at rest
        simpa using rest
      · obtain ⟨char, rest, impossible, -⟩ := spans_cons_nonempty run spans
        cases impossible
    · intro runs
      obtain rfl := runs token List.mem_cons_self
      refine spans_run.mpr ⟨0, Nat.le_refl _, ?_⟩
      rw [List.drop_nil, ih]
      exact fun token member => runs token (List.mem_cons_of_mem _ member)

theorem spans_steady {steady tokens : List Token} {text : List Char} (fixed : ∀ token ∈ steady, token ≠ .run)
    (spans : Spans (steady ++ tokens) text) :
    steady.length ≤ text.length ∧ Spans tokens (text.drop steady.length) := by
  induction steady generalizing text with
  | nil => exact ⟨Nat.zero_le _, spans⟩
  | cons token steady ih =>
    obtain ⟨char, rest, rfl, others⟩ := spans_cons_nonempty (fixed token List.mem_cons_self) spans
    obtain ⟨shorter, behind⟩ := ih (fun token member => fixed token (List.mem_cons_of_mem _ member)) others
    exact ⟨by simpa using shorter, by simpa using behind⟩

end RowAlgebra.Proofs.PatternMeaning
