import RowAlgebra.Proofs.GreedyMatch

/-! Matching comes to an end. A mismatch sets the cursor back in the pattern and in the text
alike, but the latest run has then taken one more character for good. Counted in these
characters first and in the tokens ahead second, every turn of the loop lessens what is
left to do, which bounds the turns by the product of both lengths. -/

namespace RowAlgebra.Proofs.MatchTermination
open Like GreedyMatch

inductive Turn where
  | goesOn (next : Cursor)
  | answers (found : Bool)
  /-- Asked for a character or for a rest of the pattern that is not there. -/
  | outOfBounds
deriving DecidableEq

/-- One turn, for a cursor of which nothing is known. -/
def turn (tokens : List Token) (text : List Char) (cursor : Cursor) : Turn :=
  if cursor.char < text.length then
    match text[cursor.char]? with
    | none => .outOfBounds
    | some char =>
      match cursor.step? tokens.toArray char with
      | some next => .goesOn next
      | none => .answers false
  else if cursor.token ≤ tokens.length then .answers ((tokens.drop cursor.token).all (· == .run))
  else .outOfBounds

/-- Where the loop stands after a number of turns, if it takes so many. -/
def after (tokens : List Token) (text : List Char) : Nat → Option Cursor
  | 0 => some .start
  | turns + 1 =>
    match (after tokens text turns).map (turn tokens text) with
    | some (.goesOn next) => some next
    | _ => none

/-- The cursor lies within pattern and text. The point it would resume from lies behind it,
right after a run, and there is no other run in between. -/
structure Placed (tokens : List Token) (text : List Char) (cursor : Cursor) : Prop
    extends Cursor.Valid tokens.toArray text.toArray cursor, Tracks tokens cursor where
  behind : ∀ token char, cursor.resume = some (token, char) → ∃ run, token = run + 1 ∧ tokens[run]? = some .run

def taken (cursor : Cursor) : Nat := cursor.resume.elim 0 Prod.snd

/-- What is left to do, in order of weight: characters for the latest run to take, and tokens ahead. -/
def work (tokens : List Token) (text : List Char) (cursor : Cursor) : Nat × Nat :=
  (text.length - taken cursor, tokens.length - cursor.token)

variable {tokens : List Token} {text : List Char}

theorem turn_inside {cursor : Cursor} (inside : cursor.char < text.length) :
    turn tokens text cursor =
      match cursor.step? tokens.toArray text[cursor.char] with
      | some next => .goesOn next
      | none => .answers false := by
  rw [turn, if_pos inside, List.getElem?_eq_getElem inside]

theorem turn_outside {cursor : Cursor} (outside : ¬cursor.char < text.length)
    (within : cursor.token ≤ tokens.length) :
    turn tokens text cursor = .answers ((tokens.drop cursor.token).all (· == .run)) := by
  rw [turn, if_neg outside, if_pos within]

theorem turn_inBounds {cursor : Cursor} (placed : Placed tokens text cursor) :
    turn tokens text cursor ≠ .outOfBounds := by
  by_cases inside : cursor.char < text.length
  · rw [turn_inside inside]
    cases cursor.step? tokens.toArray text[cursor.char] <;> simp
  · rw [turn_outside inside placed.token_le]
    simp

theorem step_of_goesOn {cursor next : Cursor} (placed : Placed tokens text cursor)
    (goes : turn tokens text cursor = .goesOn next) :
    ∃ inside : cursor.char < text.length, cursor.step? tokens.toArray text[cursor.char] = some next := by
  by_cases inside : cursor.char < text.length
  · refine ⟨inside, ?_⟩
    rw [turn_inside inside] at goes
    cases stepped : cursor.step? tokens.toArray text[cursor.char] with
    | none => simp [stepped] at goes
    | some other => simpa [stepped] using goes
  · rw [turn_outside inside placed.token_le] at goes
    cases goes

inductive Moves (tokens : List Token) (cursor : Cursor) : Cursor → Prop where
  | opens (met : tokens[cursor.token]? = some .run) :
      Moves tokens cursor ⟨cursor.token + 1, cursor.char, some (cursor.token + 1, cursor.char)⟩
  | advances (ahead : cursor.token < tokens.length) :
      Moves tokens cursor { cursor with token := cursor.token + 1, char := cursor.char + 1 }
  | fallsBack {token char} (resumed : cursor.resume = some (token, char)) :
      Moves tokens cursor ⟨token, char + 1, some (token, char + 1)⟩

theorem moves_retry {cursor next : Cursor} (retried : cursor.retry? = some next) : Moves tokens cursor next := by
  obtain ⟨⟨token, char⟩, resumed, rfl⟩ := Option.map_eq_some_iff.mp retried
  exact .fallsBack resumed

theorem moves_step {cursor next : Cursor} {char : Char} (stepped : cursor.step? tokens.toArray char = some next) :
    Moves tokens cursor next := by
  unfold Cursor.step? at stepped
  rw [List.getElem?_toArray] at stepped
  split at stepped
  next met =>
    cases stepped
    exact .opens met
  next found =>
    cases stepped
    exact .advances (List.getElem?_eq_some_iff.mp found).1
  next found =>
    split at stepped
    · cases stepped
      exact .advances (List.getElem?_eq_some_iff.mp found).1
    · exact moves_retry stepped
  next => exact moves_retry stepped

theorem placed_start : Placed tokens text .start where
  toValid := Cursor.valid_start _ _
  toTracks := tracks_start tokens
  behind := by simp [Cursor.start]

theorem placed_turn {cursor next : Cursor} (placed : Placed tokens text cursor)
    (goes : turn tokens text cursor = .goesOn next) : Placed tokens text next := by
  obtain ⟨inside, stepped⟩ := step_of_goesOn placed goes
  refine ⟨Cursor.valid_step placed.toValid (by simpa using inside) (by simpa using stepped),
    tracks_step placed.toTracks stepped, ?_⟩
  cases moves_step stepped with
  | opens met =>
    intro token char same
    cases same
    exact ⟨cursor.token, rfl, met⟩
  | advances => exact placed.behind
  | fallsBack resumed =>
    intro token char same
    cases same
    exact placed.behind _ _ resumed

/-- A mismatch sets the cursor back by as many tokens as characters, but for the one
character that the latest run takes. -/
theorem retry_sets_back {cursor next : Cursor} (placed : Placed tokens text cursor)
    (retried : cursor.retry? = some next) :
    ∃ back, next.token + back = cursor.token ∧ next.char + back = cursor.char + 1 := by
  obtain ⟨⟨token, char⟩, resumed, rfl⟩ := Option.map_eq_some_iff.mp retried
  have order := placed.resume_le token char resumed
  have level := placed.level token char resumed
  exact ⟨cursor.token - token, by simp only; omega, by simp only; omega⟩

theorem taken_le {cursor : Cursor} (placed : Placed tokens text cursor) : taken cursor ≤ cursor.char := by
  cases resumed : cursor.resume with
  | none => simp [taken, resumed]
  | some point => simpa [taken, resumed] using (placed.resume_le point.1 point.2 resumed).2

/-- A run that is met may begin where the latest one ends, and then only its token counts. -/
theorem turn_lessens {cursor next : Cursor} (placed : Placed tokens text cursor)
    (goes : turn tokens text cursor = .goesOn next) :
    Prod.Lex (· < ·) (· < ·) (work tokens text next) (work tokens text cursor) := by
  obtain ⟨inside, stepped⟩ := step_of_goesOn placed goes
  have order := taken_le placed
  cases moves_step stepped with
  | opens met =>
    have ahead := (List.getElem?_eq_some_iff.mp met).1
    rw [Prod.lex_def]
    simp only [work, taken, Option.elim] at order ⊢
    omega
  | advances ahead => exact .right _ (by simp only; omega)
  | fallsBack resumed =>
    simp only [taken, resumed, Option.elim] at order
    refine .left _ _ ?_
    simp only [taken, resumed, Option.elim]
    omega

theorem finish_goesOn {cursor next : Cursor} (placed : Placed tokens text cursor)
    (goes : turn tokens text cursor = .goesOn next) :
    cursor.finish tokens.toArray text.toArray placed.toValid =
      next.finish tokens.toArray text.toArray (placed_turn placed goes).toValid := by
  obtain ⟨inside, stepped⟩ := step_of_goesOn placed goes
  rw [Cursor.finish, dif_pos (by simpa using inside)]
  split
  next other found =>
    rw [List.getElem_toArray, stepped] at found
    cases found
    rfl
  next found =>
    rw [List.getElem_toArray, stepped] at found
    cases found

theorem finish_answers {cursor : Cursor} {found : Bool} (placed : Placed tokens text cursor)
    (answers : turn tokens text cursor = .answers found) :
    cursor.finish tokens.toArray text.toArray placed.toValid = found := by
  rw [Cursor.finish]
  by_cases inside : cursor.char < text.length
  · rw [turn_inside inside] at answers
    rw [dif_pos (by simpa using inside)]
    split
    next next stepped =>
      rw [List.getElem_toArray] at stepped
      simp [stepped] at answers
    next stopped =>
      rw [List.getElem_toArray] at stopped
      simpa [stopped] using answers
  · rw [turn_outside inside placed.token_le] at answers
    rw [dif_neg (by simpa using inside)]
    exact Turn.answers.inj answers

theorem after_succ_iff {turns : Nat} {next : Cursor} :
    after tokens text (turns + 1) = some next ↔
      ∃ cursor, after tokens text turns = some cursor ∧ turn tokens text cursor = .goesOn next := by
  rw [after]
  cases after tokens text turns with
  | none => simp
  | some cursor => cases taken : turn tokens text cursor <;> simp [taken]

theorem placed_after {turns : Nat} {cursor : Cursor} (reached : after tokens text turns = some cursor) :
    Placed tokens text cursor := by
  induction turns generalizing cursor with
  | zero =>
    cases reached
    exact placed_start
  | succ turns ih =>
    obtain ⟨earlier, before, goes⟩ := after_succ_iff.mp reached
    exact placed_turn (ih before) goes

theorem finish_after {turns : Nat} {cursor : Cursor} (reached : after tokens text turns = some cursor) :
    cursor.finish tokens.toArray text.toArray (placed_after reached).toValid =
      Cursor.start.finish tokens.toArray text.toArray (Cursor.valid_start _ _) := by
  induction turns generalizing cursor with
  | zero =>
    cases reached
    rfl
  | succ turns ih =>
    obtain ⟨earlier, before, goes⟩ := after_succ_iff.mp reached
    rw [← ih before, finish_goesOn (placed_after before) goes]

def weight (tokens : List Token) (work : Nat × Nat) : Nat := work.1 * (tokens.length + 1) + work.2

theorem weight_lt {fewer more : Nat × Nat} (less : Prod.Lex (· < ·) (· < ·) fewer more)
    (within : fewer.2 ≤ tokens.length) : weight tokens fewer < weight tokens more := by
  unfold weight
  rcases Prod.lex_def.mp less with first | ⟨same, second⟩
  · have whole := Nat.mul_le_mul_right (tokens.length + 1) first
    rw [Nat.succ_mul] at whole
    omega
  · rw [same]
    omega

theorem turns_spent {turns : Nat} {cursor : Cursor} (reached : after tokens text turns = some cursor) :
    turns + weight tokens (work tokens text cursor) ≤ text.length * (tokens.length + 1) + tokens.length := by
  induction turns generalizing cursor with
  | zero =>
    cases reached
    simp [weight, work, taken, Cursor.start]
  | succ turns ih =>
    obtain ⟨earlier, before, goes⟩ := after_succ_iff.mp reached
    have spent := ih before
    have less := weight_lt (turn_lessens (placed_after before) goes) (Nat.sub_le ..)
    omega

theorem goes_on_or_answered (tokens : List Token) (text : List Char) (turns : Nat) :
    (∃ cursor, after tokens text turns = some cursor) ∨
      ∃ earlier last found, after tokens text earlier = some last ∧ turn tokens text last = .answers found := by
  induction turns with
  | zero => exact .inl ⟨.start, rfl⟩
  | succ turns ih =>
    rcases ih with ⟨cursor, reached⟩ | answered
    · cases came : turn tokens text cursor with
      | goesOn next => exact .inl ⟨next, after_succ_iff.mpr ⟨cursor, reached, came⟩⟩
      | answers found => exact .inr ⟨turns, cursor, found, reached, came⟩
      | outOfBounds => exact absurd came (turn_inBounds (placed_after reached))
    · exact .inr answered

theorem run_answers (tokens : List Token) (text : List Char) :
    ∃ turns last found, after tokens text turns = some last ∧ turn tokens text last = .answers found := by
  rcases goes_on_or_answered tokens text (text.length * (tokens.length + 1) + tokens.length + 1) with
    ⟨cursor, reached⟩ | answered
  · have spent := turns_spent reached
    omega
  · exact answered

/-- The loop of a match ends with its answer, after a bounded number of turns. At every turn the
cursor is well placed, so that nothing is read or cut out of bounds, and what is left to do
lessens in lexicographic order, also where a mismatch sets the cursor back. -/
theorem matching_ends (text pattern : String) (escape : Char) :
    let tokens := Like.tokens escape pattern.toList
    let chars := text.toList
    (∀ turns cursor, after tokens chars turns = some cursor →
      Placed tokens chars cursor ∧ turn tokens chars cursor ≠ .outOfBounds ∧
      (∀ next, turn tokens chars cursor = .goesOn next →
        Prod.Lex (· < ·) (· < ·) (work tokens chars next) (work tokens chars cursor)) ∧
      ∀ next, cursor.retry? = some next →
        ∃ back, next.token + back = cursor.token ∧ next.char + back = cursor.char + 1) ∧
    ∃ turns last, turns ≤ chars.length * (tokens.length + 1) + tokens.length ∧
      after tokens chars turns = some last ∧ turn tokens chars last = .answers (isMatch text pattern escape) := by
  intro tokens chars
  constructor
  · intro turns cursor reached
    have placed := placed_after reached
    exact ⟨placed, turn_inBounds placed, fun next goes => turn_lessens placed goes,
      fun next retried => retry_sets_back placed retried⟩
  · obtain ⟨turns, last, found, reached, answers⟩ := run_answers tokens chars
    have spent := turns_spent reached
    have answer := (finish_after reached).symm.trans (finish_answers (placed_after reached) answers)
    refine ⟨turns, last, by omega, reached, ?_⟩
    rw [answers, ← answer]
    rfl

/-- The third letter of the text is not the one wanted, and the cursor goes back to the second
place of both. -/
theorem repeated_letters_end :
    let tokens := Like.tokens '!' "%aab".toList
    let chars := "aaab".toList
    let before : Cursor := ⟨3, 2, some (1, 0)⟩
    let behind : Cursor := ⟨1, 1, some (1, 1)⟩
    after tokens chars 3 = some before ∧
      turn tokens chars before = .goesOn behind ∧ before.retry? = some behind ∧
      Placed tokens chars before ∧ turn tokens chars before ≠ .outOfBounds ∧
      Prod.Lex (· < ·) (· < ·) (work tokens chars behind) (work tokens chars before) ∧
      (∃ back, behind.token + back = before.token ∧ behind.char + back = before.char + 1) ∧
      ∃ turns last, turns ≤ 24 ∧ after tokens chars turns = some last ∧ turn tokens chars last = .answers true := by
  intro tokens chars before behind
  have reached : after tokens chars 3 = some before := by decide
  have goes : turn tokens chars before = .goesOn behind := by decide
  obtain ⟨along, turns, last, bound, came, answers⟩ := matching_ends "aaab" "%aab" '!'
  obtain ⟨placed, inBounds, lessens, setsBack⟩ := along 3 before reached
  have matched : isMatch "aaab" "%aab" '!' = true := by cbv
  exact ⟨reached, goes, rfl, placed, inBounds, lessens behind goes, setsBack behind rfl,
    turns, last, bound, came, matched ▸ answers⟩

end RowAlgebra.Proofs.MatchTermination
