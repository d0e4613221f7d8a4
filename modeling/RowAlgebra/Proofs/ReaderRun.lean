import RowAlgebra.Json.Reader

/-! Runs of the JSON reader. What a text comes to is followed from state to state; a scanner
for numbers, strings or keys that takes a stretch of the text carries the reader over it. -/

namespace RowAlgebra.Json

/-- A scanner behind characters that all belong to it. -/
def through {α : Type} (step : α → Char → Except Error (Option α)) (part : α) : List Char → Option α
  | [] => some part
  | char :: rest =>
    match step part char with
    | .ok (some longer) => through step longer rest
    | .ok none | .error _ => none

section
variable {α : Type} {step : α → Char → Except Error (Option α)}

theorem through_cons {part longer : α} {char : Char} (rest : List Char) (taken : step part char = .ok (some longer)) :
    through step part (char :: rest) = through step longer rest := by
  rw [through, taken]

theorem through_append {part : α} {longer : α} {first : List Char} (second : List Char)
    (taken : through step part first = some longer) :
    through step part (first ++ second) = through step longer second := by
  induction first generalizing part with
  | nil =>
    obtain rfl := Option.some.inj taken
    rfl
  | cons char rest hypothesis =>
    rw [through] at taken
    split at taken
    next next one =>
      rw [List.cons_append, through_cons _ one]
      exact hypothesis taken
    next => cases taken
    next => cases taken

theorem through_middle {part longer : α} {first second : List Char} (taken : through step part (first ++ second) = some longer) :
    ∃ middle, through step part first = some middle ∧ through step middle second = some longer := by
  induction first generalizing part with
  | nil => exact ⟨part, rfl, taken⟩
  | cons char rest hypothesis =>
    rw [List.cons_append, through] at taken
    split at taken
    next next one =>
      obtain ⟨middle, before, behind⟩ := hypothesis taken
      exact ⟨middle, (through_cons rest one).trans before, behind⟩
    next => cases taken
    next => cases taken

end

/-- The value, or the error, that the reader comes to from a state. -/
def outcome (state : State) (text : List Char) : Except Error Value := (state.run text).bind State.finish

theorem read_eq_outcome (text : List Char) : read text = outcome .start text := by
  unfold read outcome
  cases State.start.run text <;> rfl

theorem outcome_nil (state : State) : outcome state [] = state.finish := rfl

theorem outcome_cons {state next : State} {char : Char} (rest : List Char) (taken : state.step char = .ok next) :
    outcome state (char :: rest) = outcome next rest := by
  unfold outcome
  rw [State.run, taken]

theorem outcome_error {state : State} {char : Char} {error : Error} (rest : List Char)
    (refused : state.step char = .error error) : outcome state (char :: rest) = .error error := by
  unfold outcome
  rw [State.run, refused]
  rfl

theorem outcome_congr {state other : State} {char : Char} (rest : List Char) (same : state.step char = other.step char) :
    outcome state (char :: rest) = outcome other (char :: rest) := by
  unfold outcome
  rw [State.run, State.run, same]

theorem step_inked (place : Place) {char : Char} (inked : isBlank char = false) :
    (State.at place).step char = place.read char := by
  rw [State.step, Place.step, inked]
  rfl

theorem outcome_place {place : Place} {next : State} {char : Char} (rest : List Char) (inked : isBlank char = false)
    (taken : place.read char = .ok next) : outcome (.at place) (char :: rest) = outcome next rest :=
  outcome_cons rest ((step_inked place inked).trans taken)

/-- A reader that follows a scanner is carried over what the scanner takes. -/
theorem outcome_through {α : Type} {step : α → Char → Except Error (Option α)} {inside : α → State}
    (follows : ∀ part char longer, step part char = .ok (some longer) → (inside part).step char = .ok (inside longer))
    {part longer : α} {chars : List Char} (rest : List Char) (taken : through step part chars = some longer) :
    outcome (inside part) (chars ++ rest) = outcome (inside longer) rest := by
  induction chars generalizing part with
  | nil =>
    obtain rfl := Option.some.inj taken
    rfl
  | cons char more hypothesis =>
    rw [through] at taken
    split at taken
    next next one =>
      rw [List.cons_append, outcome_cons _ (follows _ _ _ one)]
      exact hypothesis taken
    next => cases taken
    next => cases taken

theorem follows_number (frames : List Frame) (part : NumberPart) (char : Char) (longer : NumberPart)
    (taken : part.step char = .ok (some longer)) :
    (State.within frames (.number part)).step char = .ok (.within frames (.number longer)) := by
  simp only [State.step, ScalarPart.step, taken]

theorem follows_text (frames : List Frame) (part : TextPart) (char : Char) (longer : TextPart)
    (taken : part.step char = .ok (some longer)) :
    (State.within frames (.text part)).step char = .ok (.within frames (.text longer)) := by
  simp only [State.step, ScalarPart.step, taken]

theorem follows_key (frames : List Frame) (reversed : List (String × Value)) (part : TextPart) (char : Char)
    (longer : TextPart) (taken : part.step char = .ok (some longer)) :
    (State.withinKey frames reversed part).step char = .ok (.withinKey frames reversed longer) := by
  simp only [State.step, taken]

/-- What may stand behind a number: nothing that could belong to it. -/
def Ends (text : List Char) : Prop :=
  ∀ char ∈ text.head?, char.isDigit = false ∧ char ≠ '.' ∧ char ≠ 'e' ∧ char ≠ 'E'

theorem outcome_number (frames : List Frame) {part : NumberPart} {number : Number} {rest : List Char}
    (complete : part.finish = .ok number) (ends : Ends rest) :
    outcome (.within frames (.number part)) rest = outcome (.at (.after frames number.value)) rest := by
  cases rest with
  | nil =>
    simp only [outcome_nil, State.finish, ScalarPart.finish, complete, Except.map, Except.bind, Scalar.value]
  | cons char rest =>
    obtain ⟨notDigit, notPoint, notSmall, notLarge⟩ := ends char rfl
    have stops : part.step char = .ok none ∧ part.number = .ok number := by
      unfold NumberPart.finish at complete
      unfold NumberPart.step
      cases stage : part.stage with
      | sign | point | mark | markSign =>
        rw [stage] at complete
        cases complete
      | zero | whole | fraction | exponent =>
        rw [stage] at complete
        exact ⟨by simp [notDigit, notPoint, notSmall, notLarge, NumberPart.leaveWhole], complete⟩
    apply outcome_congr
    simp only [State.step, ScalarPart.step, stops.1, stops.2, Except.map, Scalar.value]

end RowAlgebra.Json
