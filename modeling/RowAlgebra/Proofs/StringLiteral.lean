import RowAlgebra.Proofs.ReaderRun

/-! String literals are read back. Every character has one escape, and reading the escape adds
that character and leaves the reader between characters. -/

namespace RowAlgebra.Json

theorem hexValue?_hexDigit : ∀ n < 16, hexValue? (hexDigit n) = some n := by decide

theorem utf8Size_hexDigit : ∀ n < 16, (hexDigit n).utf8Size = 1 := by decide

/-- A letter that stands for a control character stands for no other. -/
theorem letterChar?_controlLetter {char letter : Char} (found : controlLetter? char = some letter) :
    letter ≠ 'u' ∧ TextPart.letterChar? letter = some char := by
  unfold controlLetter? at found
  repeat' split at found
  all_goals cases found
  all_goals
    subst char
    exact ⟨by decide, rfl⟩

namespace TextPart

private theorem step_backslash (reversed : List Char) : step ⟨.none, reversed⟩ '\\' = .ok (some ⟨.letter, reversed⟩) := rfl

private theorem step_letter {letter char : Char} (reversed : List Char) (other : letter ≠ 'u')
    (meant : letterChar? letter = some char) :
    step ⟨.letter, reversed⟩ letter = .ok (some ⟨.none, char :: reversed⟩) := by
  simp only [step, other, if_false, meant]
  rfl

section
variable {first second : Nat} (high : first < 16) (low : second < 16)
include high low

private theorem hexUnit?_digits : hexUnit? ['0', '0', hexDigit first, hexDigit second] = some (first * 16 + second) := by
  have zero : hexValue? '0' = some 0 := rfl
  simp only [hexUnit?, List.mapM_cons, List.mapM_nil, zero, hexValue?_hexDigit first high, hexValue?_hexDigit second low,
    bind, pure, Option.bind]
  exact congrArg some (by omega)

private theorem byteCount_digits : byteCount ['0', '0', hexDigit first, hexDigit second] = 4 := by
  have zero : '0'.utf8Size = 1 := rfl
  simp only [byteCount, zero, utf8Size_hexDigit first high, utf8Size_hexDigit second low]

private theorem through_unit {char : Char} (reversed : List Char) (value : char.toNat = first * 16 + second)
    (control : char.toNat < 0x20) :
    through step ⟨.letter, reversed⟩ ['u', '0', '0', hexDigit first, hexDigit second] = some ⟨.none, char :: reversed⟩ := by
  have bytes := byteCount_digits high low
  have zeros : through step ⟨.letter, reversed⟩ ['u', '0', '0'] = some ⟨.unit none ['0', '0'], reversed⟩ := rfl
  have third : step ⟨.unit none ['0', '0'], reversed⟩ (hexDigit first) =
      .ok (some ⟨.unit none ['0', '0', hexDigit first], reversed⟩) := by
    have short : byteCount (['0', '0'] ++ [hexDigit first]) < 4 := by
      simp only [byteCount, utf8Size_hexDigit second low] at bytes
      simp only [List.cons_append, List.nil_append, byteCount]
      omega
    exact if_pos short
  have fourth : step ⟨.unit none ['0', '0', hexDigit first], reversed⟩ (hexDigit second) =
      .ok (some ⟨.none, char :: reversed⟩) := by
    have basic : isSecondSurrogate char.toNat = false ∧ isFirstSurrogate char.toNat = false := by
      unfold isSecondSurrogate isFirstSurrogate
      exact ⟨by simp; omega, by simp; omega⟩
    have unit := hexUnit?_digits high low
    rw [← value] at unit
    simp only [step, List.cons_append, List.nil_append, bytes, Nat.lt_irrefl, if_false, unit, addUnit, basic.1, basic.2,
      Bool.false_eq_true, Except.map, add, Char.ofNat_toNat]
  refine (through_append [hexDigit first, hexDigit second] zeros).trans ?_
  rw [through_cons _ third, through_cons _ fourth]
  rfl

end

end TextPart

/-- The escape of a character adds just that character. -/
theorem through_escapeChar (char : Char) (reversed : List Char) :
    through TextPart.step ⟨.none, reversed⟩ (escapeChar char) = some ⟨.none, char :: reversed⟩ := by
  unfold escapeChar
  split
  next special =>
    rcases special with rfl | rfl <;> rfl
  next plain =>
    split
    next control =>
      split
      next letter found =>
        obtain ⟨other, meant⟩ := letterChar?_controlLetter found
        rw [through_cons _ (TextPart.step_backslash reversed), through_cons _ (TextPart.step_letter reversed other meant)]
        rfl
      next =>
        rw [through_cons _ (TextPart.step_backslash reversed)]
        exact TextPart.through_unit (by omega) (by omega) reversed (by omega) control
    next printable =>
      have taken : TextPart.step ⟨.none, reversed⟩ char = .ok (some ⟨.none, char :: reversed⟩) := by
        simp only [TextPart.step, not_or.mp plain, printable, if_false]
        rfl
      rw [through_cons _ taken]
      rfl

theorem through_content (content reversed : List Char) :
    through TextPart.step ⟨.none, reversed⟩ (content.flatMap escapeChar) = some ⟨.none, content.reverse ++ reversed⟩ := by
  induction content generalizing reversed with
  | nil => rfl
  | cons char rest hypothesis =>
    rw [List.flatMap_cons, through_append _ (through_escapeChar char reversed), hypothesis, List.reverse_cons,
      List.append_assoc, List.singleton_append]

theorem content_through (content : String) :
    (⟨.none, content.toList.reverse ++ []⟩ : TextPart).content = content := by
  unfold TextPart.content
  dsimp only
  rw [List.append_nil, List.reverse_reverse, String.ofList_toList]

theorem outcome_text (frames : List Frame) (content : String) (rest : List Char) :
    outcome (.within frames (.text ⟨.none, []⟩)) (content.toList.flatMap escapeChar ++ '"' :: rest) =
      outcome (.at (.after frames (.text content))) rest := by
  rw [outcome_through (follows_text frames) _ (through_content content.toList [])]
  apply outcome_cons
  simp only [State.step, ScalarPart.step, TextPart.step, if_true, content_through, Scalar.value]

theorem outcome_key (frames : List Frame) (reversed : List (String × Value)) (key : String) (rest : List Char) :
    outcome (.withinKey frames reversed ⟨.none, []⟩) (key.toList.flatMap escapeChar ++ '"' :: rest) =
      outcome (.at (.afterKey frames reversed key)) rest := by
  rw [outcome_through (follows_key frames reversed) _ (through_content key.toList [])]
  apply outcome_cons
  simp only [State.step, TextPart.step, if_true, content_through]

end RowAlgebra.Json
