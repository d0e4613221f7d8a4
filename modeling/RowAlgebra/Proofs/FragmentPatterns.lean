import RowAlgebra.Config
import RowAlgebra.Proofs.EscapedText

/-! Searching for a fragment by pattern: with a run before it, behind it or on both sides,
an escaped fragment is found just where it occurs. That fails for one escape character
only, the one that takes the runs for itself, and no configuration admits it. -/

namespace RowAlgebra.Proofs.FragmentPatterns
open Like PatternMeaning GreedyMatch EscapedText

/-- The patterns of an escaper find a fragment where it is. -/
structure FindsFragments (escaper : Escaper) : Prop where
  inside : ∀ text fragment,
    isMatch text (escaper.contains fragment).text escaper.escapeChar = true ↔ fragment.toList <:+: text.toList
  atStart : ∀ text fragment,
    isMatch text (escaper.startsWith fragment).text escaper.escapeChar = true ↔ fragment.toList <+: text.toList
  atEnd : ∀ text fragment,
    isMatch text (escaper.endsWith fragment).text escaper.escapeChar = true ↔ fragment.toList <:+ text.toList

theorem spans_run_iff {tokens : List Token} {text : List Char} :
    Spans (.run :: tokens) text ↔ ∃ before rest, text = before ++ rest ∧ Spans tokens rest := by
  rw [spans_cons]
  constructor
  · intro ⟨before, rest, _, spans, same⟩
    exact ⟨before, rest, same, spans⟩
  · intro ⟨before, rest, same, spans⟩
    exact ⟨before, rest, trivial, spans, same⟩

theorem spans_letters_only {letters text : List Char} : Spans (letters.map .literal) text ↔ text = letters := by
  rw [← List.append_nil (letters.map Token.literal), spans_letters]
  simp only [spans_nil, exists_eq_right, List.append_nil]

theorem spans_letters_run {letters text : List Char} :
    Spans (letters.map .literal ++ [.run]) text ↔ letters <+: text := by
  rw [spans_letters]
  constructor
  · intro ⟨behind, same, _⟩
    exact ⟨behind, same.symm⟩
  · intro ⟨behind, same⟩
    exact ⟨behind, same.symm, spans_run_iff.mpr ⟨behind, [], (List.append_nil behind).symm, spans_nil.mpr rfl⟩⟩

theorem spans_run_letters {letters text : List Char} :
    Spans (.run :: letters.map .literal) text ↔ letters <:+ text := by
  rw [spans_run_iff]
  constructor
  · intro ⟨before, rest, same, spans⟩
    exact ⟨before, by rw [same, spans_letters_only.mp spans]⟩
  · intro ⟨before, same⟩
    exact ⟨before, letters, same.symm, spans_letters_only.mpr rfl⟩

theorem spans_run_letters_run {letters text : List Char} :
    Spans (.run :: (letters.map .literal ++ [.run])) text ↔ letters <:+: text := by
  rw [spans_run_iff]
  constructor
  · intro ⟨before, rest, same, spans⟩
    obtain ⟨behind, rfl⟩ := spans_letters_run.mp spans
    exact ⟨before, behind, by rw [same, List.append_assoc]⟩
  · intro ⟨before, behind, same⟩
    exact ⟨before, letters ++ behind, by rw [← same, List.append_assoc], spans_letters_run.mpr ⟨behind, rfl⟩⟩

section Tokens

variable {escaper : Escaper} (covered : standardWildcards ⊆ escaper.wildcards) (bare : '%' ≠ escaper.escapeChar)
include covered

private theorem tokens_escape_append (fragment : String) (rest : List Char) :
    tokens escaper.escapeChar ((escaper.escape fragment).text.toList ++ rest) =
      fragment.toList.map .literal ++ tokens escaper.escapeChar rest := by
  rw [Escaper.escape, String.toList_ofList, tokens_escapeChars covered]

include bare

theorem tokens_startsWith (fragment : String) :
    tokens escaper.escapeChar (escaper.startsWith fragment).text.toList = fragment.toList.map .literal ++ [.run] := by
  have shape : (escaper.startsWith fragment).text.toList = (escaper.escape fragment).text.toList ++ ['%'] :=
    Pattern.toList_pushRaw ..
  rw [shape, tokens_escape_append covered, tokens_bare bare]
  rfl

theorem tokens_endsWith (fragment : String) :
    tokens escaper.escapeChar (escaper.endsWith fragment).text.toList = .run :: fragment.toList.map .literal := by
  have shape : (escaper.endsWith fragment).text.toList = '%' :: ((escaper.escape fragment).text.toList ++ []) := by
    simp [Escaper.endsWith]
  rw [shape, tokens_bare bare, tokens_escape_append covered, tokens, List.append_nil]
  rfl

theorem tokens_contains (fragment : String) :
    tokens escaper.escapeChar (escaper.contains fragment).text.toList =
      .run :: (fragment.toList.map .literal ++ [.run]) := by
  have shape : (escaper.contains fragment).text.toList = '%' :: ((escaper.escape fragment).text.toList ++ ['%']) := by
    simp [Escaper.contains]
  rw [shape, tokens_bare bare, tokens_escape_append covered, tokens_bare bare]
  rfl

theorem findsFragments : FindsFragments escaper := by
  constructor
  case inside =>
    intro text fragment
    rw [isMatch_iff, tokens_contains covered bare, spans_run_letters_run]
  case atStart =>
    intro text fragment
    rw [isMatch_iff, tokens_startsWith covered bare, spans_letters_run]
  case atEnd =>
    intro text fragment
    rw [isMatch_iff, tokens_endsWith covered bare, spans_run_letters]

end Tokens

/-- Where `%` is the escape character, a run before another one makes it a literal. -/
theorem not_findsFragments (extra : List Char) : ¬FindsFragments (.withWildcards '%' extra) := by
  intro finds
  have shape : ((Escaper.withWildcards '%' extra).contains "").text.toList = ['%', '%'] := by
    simp [Escaper.contains, Escaper.escape, escapeChars]
  have found := (finds.inside "" "").mpr (List.infix_refl _)
  rw [isMatch_iff, shape] at found
  change Spans (['%'].map .literal) [] at found
  cases spans_letters_only.mp found

theorem escaper_ok {config : LikeConfig} {escaper : Escaper} (built : config.escaper = .ok escaper) :
    escaper = .withWildcards config.escape config.wildcards ∧ config.escape ∉ standardWildcards := by
  unfold LikeConfig.escaper at built
  split at built
  next => cases built
  next complete =>
    split at built
    next => cases built
    next unlisted =>
      refine ⟨(Except.ok.inj built).symm, fun wild => unlisted ?_⟩
      simpa using List.find?_eq_none.mp complete _ wild

/-- An escaper finds fragments, whatever characters they are made of, unless it escapes
with `%`; every escaper of a configuration does. -/
theorem findsFragments_iff :
    (∀ escape extra, FindsFragments (.withWildcards escape extra) ↔ escape ≠ '%') ∧
      ∀ config escaper, LikeConfig.escaper config = .ok escaper → FindsFragments escaper := by
  have bare_finds (escape : Char) (extra : List Char) (bare : escape ≠ '%') :
      FindsFragments (.withWildcards escape extra) :=
    findsFragments (covered_withWildcards escape extra) bare.symm
  refine ⟨fun escape extra => ⟨?_, bare_finds escape extra⟩, ?_⟩
  · intro finds same
    subst same
    exact not_findsFragments extra finds
  · intro config escaper built
    obtain ⟨rfl, plain⟩ := escaper_ok built
    refine bare_finds _ _ fun same => plain ?_
    rw [same]
    exact List.mem_cons_self

/-- A fragment made of wildcards and the escape character, which comes right before a run. -/
theorem findsFragments_of_wildcards :
    let config : LikeConfig := ⟨'!', ['_', '*', '%']⟩
    let escaper : Escaper := .withWildcards '!' ['_', '*', '%']
    config.escaper = .ok escaper ∧ escaper.contains "%_!" = ⟨"%!%!_!!%"⟩ ∧
      isMatch "5%%_!*" "%!%!_!!%" '!' = true ∧ isMatch "5%_*!" "%!%!_!!%" '!' = false := by
  intro config escaper
  have built : config.escaper = .ok escaper := rfl
  have finds : FindsFragments escaper := findsFragments_iff.2 config escaper built
  have pattern : escaper.contains "%_!" = ⟨"%!%!_!!%"⟩ := by decide
  have inside (text : String) : isMatch text "%!%!_!!%" '!' = true ↔ "%_!".toList <:+: text.toList := by
    have found := finds.inside text "%_!"
    rwa [pattern] at found
  exact ⟨built, pattern, (inside _).mpr (by decide), Bool.eq_false_iff.mpr ((inside _).not.mpr (by decide))⟩

end RowAlgebra.Proofs.FragmentPatterns
