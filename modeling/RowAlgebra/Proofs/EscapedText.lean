import RowAlgebra.Filter.Evaluation
import RowAlgebra.Proofs.GreedyMatch

/-! Escaped text is a pattern for itself and nothing else. An escaper and the reader of
patterns agree on every character, whatever its part: what is escaped is read back as a
literal, and what is left bare is no wildcard and does not escape. -/

namespace RowAlgebra.Proofs.EscapedText
open Like PatternMeaning GreedyMatch

theorem ofBare_plain {char : Char} (plain : char ∉ standardWildcards) : Token.ofBare char = .literal char := by
  obtain ⟨notRun, notOne⟩ : char ≠ '%' ∧ char ≠ '_' := by simpa [standardWildcards] using plain
  rw [Token.ofBare, if_neg notRun, if_neg notOne]

variable {escape : Char} {wildcards : List Char}

theorem tokens_escapeChars (covered : standardWildcards ⊆ wildcards) (text rest : List Char) :
    tokens escape (escapeChars escape wildcards text ++ rest) = text.map .literal ++ tokens escape rest := by
  induction text with
  | nil => rfl
  | cons char text ih =>
    rw [escapeChars]
    split
    next special => rw [List.cons_append, List.cons_append, tokens, if_pos rfl, ih, List.map_cons, List.cons_append]
    next plain =>
      obtain ⟨bare, unlisted⟩ := not_or.mp plain
      rw [List.cons_append, tokens_bare bare, ofBare_plain (fun wild => unlisted (covered wild)), ih,
        List.map_cons, List.cons_append]

theorem spans_letters {letters text : List Char} {tokens : List Token} :
    Spans (letters.map .literal ++ tokens) text ↔ ∃ rest, text = letters ++ rest ∧ Spans tokens rest := by
  induction letters generalizing text with
  | nil => simp
  | cons letter letters ih =>
    rw [List.map_cons, List.cons_append, spans_cons]
    constructor
    · intro ⟨piece, rest, taken, spans, same⟩
      obtain ⟨behind, rfl, others⟩ := ih.mp spans
      exact ⟨behind, by rw [same, taken]; rfl, others⟩
    · intro ⟨rest, same, spans⟩
      exact ⟨[letter], letters ++ rest, rfl, ih.mpr ⟨rest, rfl, spans⟩, same⟩

theorem isMatch_escapeChars (covered : standardWildcards ⊆ wildcards) (text other : String) :
    isMatch other (String.ofList (escapeChars escape wildcards text.toList)) escape = true ↔ other = text := by
  have read : tokens escape (escapeChars escape wildcards text.toList) = text.toList.map .literal ++ [] := by
    simpa only [List.append_nil, tokens] using tokens_escapeChars covered text.toList []
  rw [isMatch_iff, String.toList_ofList, read, spans_letters]
  simp only [spans_nil, exists_eq_right, List.append_nil, String.toList_inj]

theorem subset_addWildcard (wildcards : List Char) (char : Char) : wildcards ⊆ Escaper.addWildcard wildcards char := by
  rw [Escaper.addWildcard]
  split
  · exact List.Subset.refl _
  · exact List.subset_append_left _ _

theorem subset_foldl_addWildcard (wildcards extra : List Char) : wildcards ⊆ extra.foldl Escaper.addWildcard wildcards := by
  induction extra generalizing wildcards with
  | nil => exact List.Subset.refl _
  | cons char extra ih => exact List.Subset.trans (subset_addWildcard wildcards char) (ih _)

theorem covered_withWildcards (escape : Char) (extra : List Char) :
    standardWildcards ⊆ (Escaper.withWildcards escape extra).wildcards := subset_foldl_addWildcard _ _

/-- A pattern for one text: it matches that text only, and as the condition of a filter it
keeps the rows that a comparison with the text keeps. -/
structure StandsFor (pattern : Pattern) (escape : Char) (text : String) : Prop where
  matching : ∀ other, isMatch other pattern.text escape = true ↔ other = text
  like : ∀ field rows, (Filter.select [.field ⟨field, .pattern .like pattern escape⟩] rows).1 =
    (Filter.select [.field ⟨field, .comparison .eq (.text text)⟩] rows).1
  notLike : ∀ field rows, (Filter.select [.field ⟨field, .pattern .notLike pattern escape⟩] rows).1 =
    (Filter.select [.field ⟨field, .comparison .ne (.text text)⟩] rows).1

/-- On any stored value the two conditions of a filter agree: what is no text is neither
like a text nor unlike it, and neither equal to one nor different from it. -/
theorem holds_eq {pattern : Pattern} {text : String}
    (matching : ∀ other, isMatch other pattern.text escape = true ↔ other = text) (stored : Value) :
    PatternTest.holds .like stored pattern escape = Comparison.holds .eq stored (.text text) ∧
      PatternTest.holds .notLike stored pattern escape = Comparison.holds .ne stored (.text text) := by
  cases stored with
  | text content =>
    have same : isMatch content pattern.text escape = (Value.text content == Value.text text) := by
      rw [Bool.eq_iff_iff, matching, beq_iff_eq, Value.text.injEq]
    constructor
    · change isMatch content pattern.text escape = (some (Value.text content == Value.text text) == some true)
      rw [same]
      cases Value.text content == Value.text text
      all_goals rfl
    · change (!isMatch content pattern.text escape) = (some (Value.text content == Value.text text) == some false)
      rw [same]
      cases Value.text content == Value.text text
      all_goals rfl
  | _ => exact ⟨rfl, rfl⟩

theorem select_congr {field : String} {one other : Condition} (same : ∀ stored, one.holds stored = other.holds stored)
    (rows : List Row) :
    (Filter.select [.field ⟨field, one⟩] rows).1 = (Filter.select [.field ⟨field, other⟩] rows).1 := by
  rw [Filter.select_eq_filter, Filter.select_eq_filter]
  congr 1
  funext row
  rw [Filter.matchesRow_field, Filter.matchesRow_field, FieldFilter.holds, FieldFilter.holds]
  exact congrArg (Option.any · (row.get? field)) (funext same)

theorem standsFor_of_matching {pattern : Pattern} {text : String}
    (matching : ∀ other, isMatch other pattern.text escape = true ↔ other = text) : StandsFor pattern escape text :=
  ⟨matching, fun _ => select_congr fun stored => (holds_eq matching stored).1,
    fun _ => select_congr fun stored => (holds_eq matching stored).2⟩

/-- Escaping turns a text into a pattern for it, whatever the escape character and the
extra wildcards are. -/
theorem escape_standsFor (text : String) (escape : Char) (extra : List Char) :
    StandsFor ((Escaper.withWildcards escape extra).escape text) escape text ∧
      StandsFor (Like.escape text escape) escape text := by
  refine ⟨standsFor_of_matching fun other => ?_, standsFor_of_matching fun other => ?_⟩
  · exact isMatch_escapeChars (covered_withWildcards escape extra) text other
  · exact isMatch_escapeChars (List.Subset.refl _) text other

end RowAlgebra.Proofs.EscapedText
