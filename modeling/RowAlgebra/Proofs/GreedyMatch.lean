import RowAlgebra.Proofs.PatternMeaning

/-! The matcher remembers only the latest run, and still finds every match. The tokens
behind the latest run take one character each, so whatever an earlier run could reach by
taking more, the latest one reaches as well. Each step keeps the matches within reach. -/

namespace RowAlgebra.Proofs.GreedyMatch
open Like PatternMeaning

/-- Since the latest run, tokens and characters were consumed in step. -/
structure Tracks (tokens : List Token) (cursor : Cursor) : Prop where
  level : ∀ token char, cursor.resume = some (token, char) → cursor.token + char = cursor.char + token
  steady : ∀ token char, cursor.resume = some (token, char) →
    ∀ index, token ≤ index → index < cursor.token → tokens[index]? ≠ some .run

/-- What the matcher can still find: a match from where it stands, or one in which the
latest run takes more than it has so far. -/
def WithinReach (tokens : List Token) (text : List Char) (cursor : Cursor) : Prop :=
  Spans (tokens.drop cursor.token) (text.drop cursor.char) ∨
  ∃ token char later, cursor.resume = some (token, char) ∧ char < later ∧ later ≤ text.length ∧
    Spans (tokens.drop token) (text.drop later)

theorem tracks_start (tokens : List Token) : Tracks tokens .start :=
  ⟨by simp [Cursor.start], by simp [Cursor.start]⟩

theorem withinReach_start {tokens : List Token} {text : List Char} :
    WithinReach tokens text .start ↔ Spans tokens text := by
  simp [WithinReach, Cursor.start]

private def advanced (cursor : Cursor) : Cursor := { cursor with token := cursor.token + 1, char := cursor.char + 1 }

private theorem tracks_advanced {tokens : List Token} {cursor : Cursor} (tracks : Tracks tokens cursor)
    (fixed : tokens[cursor.token]? ≠ some .run) : Tracks tokens (advanced cursor) := by
  constructor
  · intro token char resumed
    have := tracks.level token char resumed
    simp only [advanced]
    omega
  · intro token char resumed index low high
    by_cases last : index = cursor.token
    · subst last
      exact fixed
    · simp only [advanced] at high
      exact tracks.steady token char resumed index low (by omega)

private theorem tracks_retry {tokens : List Token} {cursor next : Cursor} (retried : cursor.retry? = some next) :
    Tracks tokens next := by
  obtain ⟨⟨token, char⟩, resumed, rfl⟩ := Option.map_eq_some_iff.mp retried
  refine ⟨?_, ?_⟩
  · intro other position same
    simp only [Option.some.injEq, Prod.mk.injEq] at same
    simp only
    omega
  · intro other position same index low high
    simp only [Option.some.injEq, Prod.mk.injEq] at same
    simp only at high
    omega

/-- A match in which the latest run takes more has as many characters left for the
tokens up to the cursor, and satisfies the tokens behind it. -/
private theorem spans_resumed {tokens : List Token} {text : List Char} {cursor : Cursor} {token char later : Nat}
    (tracks : Tracks tokens cursor) (resumed : cursor.resume = some (token, char))
    (within : cursor.token ≤ tokens.length) (order : token ≤ cursor.token)
    (spans : Spans (tokens.drop token) (text.drop later)) :
    later + (cursor.token - token) ≤ max text.length later ∧
      Spans (tokens.drop cursor.token) (text.drop (later + (cursor.token - token))) := by
  let between := (tokens.drop token).take (cursor.token - token)
  have shape : tokens.drop token = between ++ tokens.drop cursor.token := by
    have rest : (tokens.drop token).drop (cursor.token - token) = tokens.drop cursor.token := by
      rw [List.drop_drop, Nat.add_sub_cancel' order]
    rw [← rest, List.take_append_drop]
  have size : between.length = cursor.token - token := by
    simp only [between, List.length_take, List.length_drop]
    omega
  have fixed : ∀ other ∈ between, other ≠ .run := by
    intro other member same
    obtain ⟨index, inside, found⟩ := List.mem_iff_getElem.mp member
    refine tracks.steady token char resumed (token + index) (by omega) (by omega) ?_
    rw [List.getElem?_eq_some_iff]
    refine ⟨by omega, ?_⟩
    rw [← same, ← found]
    simp [between]
  rw [shape] at spans
  obtain ⟨enough, behind⟩ := spans_steady fixed spans
  rw [size, List.length_drop] at enough
  rw [size, List.drop_drop] at behind
  exact ⟨by omega, behind⟩

private theorem reach_run {tokens : List Token} {text : List Char} {cursor : Cursor} {rest : List Token}
    (tracks : Tracks tokens cursor) (valid : cursor.Valid tokens.toArray text.toArray)
    (met : tokens.drop cursor.token = .run :: rest) :
    WithinReach tokens text cursor ↔
      WithinReach tokens text ⟨cursor.token + 1, cursor.char, some (cursor.token + 1, cursor.char)⟩ := by
  have behind : tokens.drop (cursor.token + 1) = rest := by
    rw [← List.tail_drop, met, List.tail_cons]
  have inside : cursor.token ≤ tokens.length := valid.token_le
  have reachable : WithinReach tokens text ⟨cursor.token + 1, cursor.char, some (cursor.token + 1, cursor.char)⟩ ↔
      ∃ later, cursor.char ≤ later ∧ later ≤ text.length ∧ Spans rest (text.drop later) := by
    simp only [WithinReach, behind]
    constructor
    · intro reach
      rcases reach with spans | ⟨token, char, later, same, less, bound, spans⟩
      · exact ⟨cursor.char, Nat.le_refl _, valid.char_le, spans⟩
      · obtain ⟨rfl, rfl⟩ : cursor.token + 1 = token ∧ cursor.char = char := by simpa using same
        exact ⟨later, by omega, bound, behind ▸ spans⟩
    · intro ⟨later, least, bound, spans⟩
      by_cases here : later = cursor.char
      · subst here
        exact .inl spans
      · exact .inr ⟨cursor.token + 1, cursor.char, later, rfl, by omega, bound, behind ▸ spans⟩
  rw [reachable, WithinReach, met]
  constructor
  · intro reach
    rcases reach with spans | ⟨token, char, later, resumed, less, bound, spans⟩
    · obtain ⟨taken, bound, spans⟩ := spans_run.mp spans
      rw [List.length_drop] at bound
      have := valid.char_le
      rw [List.size_toArray] at this
      exact ⟨cursor.char + taken, by omega, by omega, by simpa only [List.drop_drop] using spans⟩
    · have order := (valid.resume_le token char resumed).1
      have level := tracks.level token char resumed
      obtain ⟨enough, spans⟩ := spans_resumed tracks resumed inside order spans
      rw [met] at spans
      obtain ⟨taken, room, spans⟩ := spans_run.mp spans
      rw [List.length_drop] at room
      refine ⟨later + (cursor.token - token) + taken, by omega, by omega, ?_⟩
      simpa only [List.drop_drop] using spans
  · intro ⟨later, least, bound, spans⟩
    refine .inl (spans_run.mpr ⟨later - cursor.char, ?_, ?_⟩)
    · rw [List.length_drop]
      omega
    · rw [List.drop_drop, Nat.add_sub_cancel' least]
      exact spans

private theorem reach_retry {tokens : List Token} {text : List Char} {cursor : Cursor}
    (inside : cursor.char < text.length) (valid : cursor.Valid tokens.toArray text.toArray)
    (mismatch : ¬Spans (tokens.drop cursor.token) (text.drop cursor.char)) :
    WithinReach tokens text cursor ↔ ∃ next, cursor.retry? = some next ∧ WithinReach tokens text next := by
  constructor
  · intro reach
    rcases reach with here | ⟨token, char, later, resumed, less, bound, spans⟩
    · exact absurd here mismatch
    · refine ⟨⟨token, char + 1, some (token, char + 1)⟩, by simp [Cursor.retry?, resumed], ?_⟩
      by_cases least : later = char + 1
      · subst least
        exact .inl spans
      · exact .inr ⟨token, char + 1, later, rfl, by omega, bound, spans⟩
  · intro ⟨next, retried, reach⟩
    obtain ⟨⟨token, char⟩, resumed, rfl⟩ := Option.map_eq_some_iff.mp retried
    have order := (valid.resume_le token char resumed).2
    rcases reach with here | ⟨other, position, later, same, less, bound, spans⟩
    · exact .inr ⟨token, char, char + 1, resumed, by omega, by omega, here⟩
    · cases same
      exact .inr ⟨token, char, later, resumed, by omega, bound, spans⟩

private theorem reach_advanced {tokens : List Token} {text : List Char} (cursor : Cursor)
    (same : Spans (tokens.drop cursor.token) (text.drop cursor.char) ↔
      Spans (tokens.drop (cursor.token + 1)) (text.drop (cursor.char + 1))) :
    WithinReach tokens text cursor ↔ WithinReach tokens text (advanced cursor) := by
  simp only [WithinReach, advanced, same]

theorem tracks_step {tokens : List Token} {char : Char} {cursor next : Cursor} (tracks : Tracks tokens cursor)
    (stepped : cursor.step? tokens.toArray char = some next) : Tracks tokens next := by
  unfold Cursor.step? at stepped
  rw [List.getElem?_toArray] at stepped
  split at stepped
  next found =>
    cases stepped
    refine ⟨?_, ?_⟩
    · intro token char same
      cases same
      exact Nat.add_comm _ _
    · intro token char same index low high
      cases same
      simp only at high
      omega
  next found =>
    cases stepped
    exact tracks_advanced tracks (by simp [found])
  next found =>
    split at stepped
    · cases stepped
      exact tracks_advanced tracks (by simp [found])
    · exact tracks_retry stepped
  next => exact tracks_retry stepped

private theorem drop_of_found {tokens : List Token} {index : Nat} {token : Token}
    (found : tokens[index]? = some token) : tokens.drop index = token :: tokens.drop (index + 1) := by
  obtain ⟨inside, rfl⟩ := List.getElem?_eq_some_iff.mp found
  exact List.drop_eq_getElem_cons inside

theorem reach_step {tokens : List Token} {text : List Char} {cursor : Cursor}
    (tracks : Tracks tokens cursor) (valid : cursor.Valid tokens.toArray text.toArray)
    (inside : cursor.char < text.length) :
    WithinReach tokens text cursor ↔
      ∃ next, cursor.step? tokens.toArray text[cursor.char] = some next ∧ WithinReach tokens text next := by
  have ahead : text.drop cursor.char = text[cursor.char] :: text.drop (cursor.char + 1) :=
    List.drop_eq_getElem_cons inside
  unfold Cursor.step?
  rw [List.getElem?_toArray]
  split
  next found => simpa using reach_run tracks valid (drop_of_found found)
  next found =>
    have same := reach_advanced cursor (by rw [drop_of_found found, ahead, spans_one])
    simpa [advanced] using same
  next wanted found =>
    split
    next equal =>
      have same := reach_advanced cursor (by
        rw [drop_of_found found, ahead, spans_literal]
        exact and_iff_right equal)
      simpa [advanced] using same
    next different =>
      apply reach_retry inside valid
      rw [drop_of_found found, ahead, spans_literal]
      exact fun spans => different spans.1
  next found =>
    apply reach_retry inside valid
    rw [List.drop_eq_nil_of_le (List.getElem?_eq_none_iff.mp found), ahead, spans_nil]
    exact List.cons_ne_nil _ _

/-- At the end of the text no run can take more: the tokens since the latest one need
the characters that they have. -/
theorem reach_end {tokens : List Token} {text : List Char} {cursor : Cursor}
    (tracks : Tracks tokens cursor) (valid : cursor.Valid tokens.toArray text.toArray)
    (behind : text.length ≤ cursor.char) :
    WithinReach tokens text cursor ↔ ∀ token ∈ tokens.drop cursor.token, token = .run := by
  rw [WithinReach, List.drop_eq_nil_of_le behind, spans_empty]
  constructor
  · intro reach
    rcases reach with here | ⟨token, char, later, resumed, less, bound, spans⟩
    · exact here
    · have order := (valid.resume_le token char resumed).1
      have level := tracks.level token char resumed
      have enough := (spans_resumed tracks resumed valid.token_le order spans).1
      omega
  · exact .inl

theorem finish_iff {tokens : List Token} {text : List Char} (cursor : Cursor)
    (valid : cursor.Valid tokens.toArray text.toArray) (tracks : Tracks tokens cursor) :
    cursor.finish tokens.toArray text.toArray valid = true ↔ WithinReach tokens text cursor := by
  induction cursor, valid using Cursor.finish.induct with
  | case1 cursor valid inside next stepped ih =>
    have same : (cursor.finish tokens.toArray text.toArray valid = true) ↔
        next.finish tokens.toArray text.toArray (Cursor.valid_step valid inside stepped) = true := by
      rw [Cursor.finish]
      simp only [inside, dite_true]
      split
      next other found =>
        rw [stepped] at found
        cases found
        rfl
      next found =>
        rw [stepped] at found
        cases found
    rw [same, ih (tracks_step tracks stepped), reach_step tracks valid (by simpa using inside)]
    simp only [List.getElem_toArray] at stepped
    simp [stepped]
  | case2 cursor valid inside stepped =>
    rw [reach_step tracks valid (by simpa using inside), Cursor.finish]
    simp only [List.getElem_toArray] at stepped
    simp only [inside, dite_true]
    split
    next other found => simp [stepped] at found
    next => simp [stepped]
  | case3 cursor valid outside =>
    rw [reach_end tracks valid (by simpa using outside), Cursor.finish, dif_neg outside]
    simp

theorem isMatch_iff {text pattern : String} {escape : Char} :
    isMatch text pattern escape = true ↔ Spans (tokens escape pattern.toList) text.toList := by
  rw [isMatch, finish_iff _ _ (tracks_start _), withinReach_start]

/-- Matching with one remembered run finds a match exactly if the text can be cut into
pieces for the tokens of the pattern, which has one reading. -/
theorem isMatch_iff_spans (text pattern : String) (escape : Char) :
    ∃ tokens, (∀ read, Reads escape pattern.toList read ↔ read = tokens) ∧
      (isMatch text pattern escape = true ↔ Spans tokens text.toList) := by
  refine ⟨tokens escape pattern.toList, fun read => reads_iff, ?_⟩
  rw [isMatch, finish_iff _ _ (tracks_start _), withinReach_start]

end RowAlgebra.Proofs.GreedyMatch
