/-! Matching text against a wildcard pattern: `%` stands for any run of characters, `_` for
exactly one, and the escape character makes the next one literal. Matching goes left to
right and remembers only the latest `%`; on a mismatch that run takes one more character.
An earlier run need not be reconsidered, since the latest one can take over its slack. -/

namespace RowAlgebra.Like

inductive Token where
  | literal (char : Char)
  /-- Exactly one character. -/
  | one
  /-- Any run of characters, none included. -/
  | run
deriving DecidableEq

def Token.ofBare (char : Char) : Token :=
  if char = '%' then .run else if char = '_' then .one else .literal char

/-- Reads a pattern. The escape character is looked for first, so it works even where it
is a wildcard; at the very end it stands for itself. -/
def tokens (escape : Char) : List Char → List Token
  | [] => []
  | [last] => if last = escape then [.literal escape] else [.ofBare last]
  | char :: next :: rest =>
    if char = escape then .literal next :: tokens escape rest
    else .ofBare char :: tokens escape (next :: rest)

/-- How far a match has come: the next token, the next character, and for the latest run
the token behind it and the first character not yet taken by it. -/
structure Cursor where
  token : Nat
  char : Nat
  resume : Option (Nat × Nat)
deriving DecidableEq

namespace Cursor

def start : Cursor := ⟨0, 0, none⟩

/-- After a mismatch the latest run takes one more character. Without a run the match fails. -/
def retry? (cursor : Cursor) : Option Cursor :=
  cursor.resume.map fun (token, char) => ⟨token, char + 1, some (token, char + 1)⟩

/-- One step over a text that has a next character. -/
def step? (tokens : Array Token) (char : Char) (cursor : Cursor) : Option Cursor :=
  match tokens[cursor.token]? with
  | some .run => some ⟨cursor.token + 1, cursor.char, some (cursor.token + 1, cursor.char)⟩
  | some .one => some { cursor with token := cursor.token + 1, char := cursor.char + 1 }
  | some (.literal wanted) =>
    if wanted = char then some { cursor with token := cursor.token + 1, char := cursor.char + 1 }
    else cursor.retry?
  | none => cursor.retry?

/-- The cursor lies within pattern and text, and behind the point it would resume from. -/
structure Valid (tokens : Array Token) (text : Array Char) (cursor : Cursor) : Prop where
  token_le : cursor.token ≤ tokens.size
  char_le : cursor.char ≤ text.size
  resume_le : ∀ token char, cursor.resume = some (token, char) → token ≤ cursor.token ∧ char ≤ cursor.char

theorem valid_start (tokens : Array Token) (text : Array Char) : Valid tokens text start :=
  ⟨Nat.zero_le _, Nat.zero_le _, by simp [start]⟩

/-- What a match may still do, in order of weight: meet further runs, let the latest run
take more, and consume further tokens. Every step lessens it. -/
def remaining (tokens : Array Token) (text : Array Char) (cursor : Cursor) : Nat × Nat × Nat :=
  match cursor.resume with
  | none => (tokens.size + 1, 0, tokens.size - cursor.token)
  | some (token, char) => (tokens.size - token, text.size - char, tokens.size - cursor.token)

private theorem valid_retry {tokens : Array Token} {text : Array Char} {cursor next : Cursor}
    (valid : Valid tokens text cursor) (inside : cursor.char < text.size) (retried : cursor.retry? = some next) :
    Valid tokens text next := by
  obtain ⟨⟨token, char⟩, found, rfl⟩ := Option.map_eq_some_iff.mp retried
  have bounds := valid.resume_le token char found
  have := valid.token_le
  refine ⟨by simp only; omega, by simp only; omega, ?_⟩
  intro other position same
  simp only [Option.some.injEq, Prod.mk.injEq] at same
  simp only
  omega

theorem valid_step {tokens : Array Token} {text : Array Char} {cursor next : Cursor}
    (valid : Valid tokens text cursor) (inside : cursor.char < text.size)
    (stepped : cursor.step? tokens text[cursor.char] = some next) : Valid tokens text next := by
  have advance : cursor.token < tokens.size →
      Valid tokens text { cursor with token := cursor.token + 1, char := cursor.char + 1 } := by
    intro within
    refine ⟨by simp only; omega, by simp only; omega, ?_⟩
    intro token char found
    have := valid.resume_le token char found
    simp only
    omega
  unfold step? at stepped
  split at stepped
  next found =>
    have within := (Array.getElem?_eq_some_iff.mp found).1
    have := valid.char_le
    cases stepped
    refine ⟨by simp only; omega, by simp only; omega, ?_⟩
    intro token char same
    simp only [Option.some.injEq, Prod.mk.injEq] at same
    simp only
    omega
  next found =>
    cases stepped
    exact advance (Array.getElem?_eq_some_iff.mp found).1
  next found =>
    split at stepped
    · cases stepped
      exact advance (Array.getElem?_eq_some_iff.mp found).1
    · exact valid_retry valid inside stepped
  next => exact valid_retry valid inside stepped

private theorem retry_lessens {tokens : Array Token} {text : Array Char} {cursor next : Cursor}
    (valid : Valid tokens text cursor) (inside : cursor.char < text.size) (retried : cursor.retry? = some next) :
    Prod.Lex (· < ·) (Prod.Lex (· < ·) (· < ·)) (next.remaining tokens text) (cursor.remaining tokens text) := by
  obtain ⟨⟨token, char⟩, found, rfl⟩ := Option.map_eq_some_iff.mp retried
  have bounds := valid.resume_le token char found
  simp only [remaining, found]
  exact .right _ (.left _ _ (by omega))

theorem step_lessens {tokens : Array Token} {text : Array Char} {cursor next : Cursor}
    (valid : Valid tokens text cursor) (inside : cursor.char < text.size)
    (stepped : cursor.step? tokens text[cursor.char] = some next) :
    Prod.Lex (· < ·) (Prod.Lex (· < ·) (· < ·)) (next.remaining tokens text) (cursor.remaining tokens text) := by
  have advance : cursor.token < tokens.size →
      Prod.Lex (· < ·) (Prod.Lex (· < ·) (· < ·))
        ({ cursor with token := cursor.token + 1, char := cursor.char + 1 }.remaining tokens text)
        (cursor.remaining tokens text) := by
    intro within
    cases found : cursor.resume with
    | none =>
      simp only [remaining, found]
      exact .right _ (.right _ (by omega))
    | some point =>
      simp only [remaining, found]
      exact .right _ (.right _ (by omega))
  unfold step? at stepped
  split at stepped
  next found =>
    have within := (Array.getElem?_eq_some_iff.mp found).1
    cases stepped
    cases resumed : cursor.resume with
    | none =>
      simp only [remaining, resumed]
      exact .left _ _ (by omega)
    | some point =>
      obtain ⟨token, char⟩ := point
      have bounds := valid.resume_le token char resumed
      simp only [remaining, resumed]
      exact .left _ _ (by omega)
  next found =>
    cases stepped
    exact advance (Array.getElem?_eq_some_iff.mp found).1
  next found =>
    split at stepped
    · cases stepped
      exact advance (Array.getElem?_eq_some_iff.mp found).1
    · exact retry_lessens valid inside stepped
  next => exact retry_lessens valid inside stepped

/-- Steps to the end of the text; there only runs may be left of the pattern. -/
def finish (tokens : Array Token) (text : Array Char) (cursor : Cursor) (valid : Valid tokens text cursor) : Bool :=
  if inside : cursor.char < text.size then
    match stepped : cursor.step? tokens text[cursor.char] with
    | some next => finish tokens text next (valid_step valid inside stepped)
    | none => false
  else (tokens.toList.drop cursor.token).all (· == .run)
termination_by cursor.remaining tokens text
decreasing_by exact step_lessens valid inside stepped

end Cursor

/-- Whether the whole text matches the pattern. Letters match case by case, and every
wildcard counts characters. -/
def isMatch (text pattern : String) (escape : Char) : Bool :=
  let tokens := (tokens escape pattern.toList).toArray
  let text := text.toList.toArray
  Cursor.finish tokens text .start (Cursor.valid_start tokens text)

end RowAlgebra.Like
