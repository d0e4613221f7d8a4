import RowAlgebra.Proofs.ReaderRun

/-! Number literals by their parts, and how they are read: a literal of any length leaves the
reader with all its digits, the places of its fraction and its exponent, and may end there. -/

namespace RowAlgebra.Json

/-- What stands from an exponent mark on. -/
structure Scale where
  mark : Char
  sign : Option Char
  digits : List Char
  marks : mark = 'e' ∨ mark = 'E'
  signs : ∀ char ∈ sign, char = '+' ∨ char = '-'
  nonempty : digits ≠ []
  numeric : ∀ char ∈ digits, char.isDigit = true

/-- A number literal. Without digits in its fraction it has no point. -/
structure Literal where
  isNegative : Bool
  whole : List Char
  fraction : List Char
  scale : Option Scale
  nonempty : whole ≠ []
  leading : whole = ['0'] ∨ whole.head? ≠ some '0'
  wholeNumeric : ∀ char ∈ whole, char.isDigit = true
  fractionNumeric : ∀ char ∈ fraction, char.isDigit = true

namespace Scale

def chars (scale : Scale) : List Char := scale.mark :: (scale.sign.toList ++ scale.digits)

def magnitude (scale : Scale) : Nat := Nat.ofDigitChars 10 scale.digits 0

end Scale

namespace Literal

def fractionChars (literal : Literal) : List Char :=
  if literal.fraction.isEmpty then [] else '.' :: literal.fraction

def scaleChars (literal : Literal) : List Char :=
  match literal.scale with
  | none => []
  | some scale => scale.chars

def chars (literal : Literal) : List Char :=
  (if literal.isNegative then ['-'] else []) ++ literal.whole ++ literal.fractionChars ++ literal.scaleChars

def digits (literal : Literal) : Nat := Nat.ofDigitChars 10 (literal.whole ++ literal.fraction) 0

/-- What a reader has gathered at the end of the literal. -/
def part (literal : Literal) (stage : NumberStage) : NumberPart where
  stage := stage
  isNegative := literal.isNegative
  digits := literal.digits
  places := literal.fraction.length
  exponentIsNegative := literal.scale.any fun scale => scale.sign = some '-'
  exponent := (literal.scale.map Scale.magnitude).getD 0
  isInteger := literal.fraction.isEmpty && literal.scale.isNone

def number (literal : Literal) : Except Error Number := (literal.part .whole).number

end Literal

namespace NumberPart

def takeWhole (part : NumberPart) (digits : List Char) : NumberPart :=
  { part with stage := .whole, digits := Nat.ofDigitChars 10 digits part.digits }

def takeFraction (part : NumberPart) (digits : List Char) : NumberPart :=
  { part with
    stage := .fraction
    digits := Nat.ofDigitChars 10 digits part.digits
    places := part.places + digits.length }

def takeExponent (part : NumberPart) (digits : List Char) : NumberPart :=
  { part with stage := .exponent, exponent := Nat.ofDigitChars 10 digits part.exponent }

/-- A stage that digits stay in takes all of them; one that digits only lead to needs the first. -/
private theorem through_run {final : NumberStage} (enters : NumberStage → Prop)
    {take : NumberPart → List Char → NumberPart}
    (inside : enters final) (none : ∀ part, part.stage = final → take part [] = part)
    (one : ∀ part char rest, enters part.stage → char.isDigit = true →
      ∃ longer, part.step char = .ok (some longer) ∧ longer.stage = final ∧ take longer rest = take part (char :: rest))
    {digits : List Char} (numeric : ∀ char ∈ digits, char.isDigit = true) {part : NumberPart} (stage : enters part.stage)
    (nonempty : digits ≠ [] ∨ part.stage = final) : through NumberPart.step part digits = some (take part digits) := by
  induction digits generalizing part with
  | nil =>
    have final := nonempty.resolve_left fun some => some rfl
    rw [none part final]
    rfl
  | cons char rest hypothesis =>
    obtain ⟨longer, taken, final, same⟩ := one part char rest stage (numeric char List.mem_cons_self)
    rw [through_cons _ taken, ← same]
    exact hypothesis (fun other member => numeric other (List.mem_cons_of_mem _ member)) (final ▸ inside) (Or.inr final)

private theorem through_whole {digits : List Char} (numeric : ∀ char ∈ digits, char.isDigit = true) {part : NumberPart}
    (stage : part.stage = .whole) : through NumberPart.step part digits = some (part.takeWhole digits) := by
  apply through_run (· = .whole) rfl ?_ ?_ numeric stage (Or.inr stage)
  · intro part stage
    cases part
    cases stage
    rfl
  · intro part char rest stage digit
    refine ⟨part.addWhole char, by simp only [step, stage, digit, if_true], rfl, ?_⟩
    simp only [takeWhole, addWhole, digitValue, Nat.ofDigitChars_cons, Nat.mul_comm 10]

private theorem through_fraction {digits : List Char} (numeric : ∀ char ∈ digits, char.isDigit = true)
    (nonempty : digits ≠ []) {part : NumberPart} (stage : part.stage = .point) :
    through NumberPart.step part digits = some (part.takeFraction digits) := by
  apply through_run (fun stage => stage = .point ∨ stage = .fraction) (Or.inr rfl) ?_ ?_ numeric (Or.inl stage)
    (Or.inl nonempty)
  · intro part stage
    cases part
    cases stage
    rfl
  · intro part char rest stage digit
    refine ⟨part.addFraction char, ?_, rfl, ?_⟩
    · rcases stage with stage | stage <;> simp only [step, stage, digit, if_true]
    · simp only [takeFraction, addFraction, digitValue, Nat.ofDigitChars_cons, Nat.mul_comm 10, List.length_cons,
        Nat.add_comm rest.length, Nat.add_assoc]

private theorem through_exponent {digits : List Char} (numeric : ∀ char ∈ digits, char.isDigit = true)
    (nonempty : digits ≠ []) {part : NumberPart} (stage : part.stage = .mark ∨ part.stage = .markSign) :
    through NumberPart.step part digits = some (part.takeExponent digits) := by
  apply through_run (fun stage => (stage = .mark ∨ stage = .markSign) ∨ stage = .exponent) (Or.inr rfl) ?_ ?_
    numeric (Or.inl stage) (Or.inl nonempty)
  · intro part stage
    cases part
    cases stage
    rfl
  · intro part char rest stage digit
    have unsigned : ¬(char = '+' ∨ char = '-') := by
      intro sign
      rcases sign with rfl | rfl <;> cases digit
    refine ⟨part.addExponent char, ?_, rfl, ?_⟩
    · rcases stage with (stage | stage) | stage <;> simp only [step, stage, digit, unsigned, if_true, if_false]
    · simp only [takeExponent, addExponent, digitValue, Nat.ofDigitChars_cons, Nat.mul_comm 10]

private theorem rounded_stage (part : NumberPart) (stage : NumberStage) :
    { part with stage := stage }.rounded = part.rounded := by
  unfold rounded
  rfl

theorem number_stage (part : NumberPart) (stage : NumberStage) : { part with stage := stage }.number = part.number := by
  unfold number nearest scale
  rw [rounded_stage]

private theorem start?_digit {char : Char} (digit : char.isDigit = true) (nonzero : char ≠ '0') :
    start? char = some ⟨.whole, false, digitValue char, 0, false, 0, true⟩ := by
  have unsigned : char ≠ '-' := by
    intro sign
    rw [sign] at digit
    cases digit
  rw [start?, if_neg unsigned, if_neg nonzero, if_pos digit]

end NumberPart

namespace Literal
open NumberPart

private theorem begins (literal : Literal) : ∃ first rest begun stage,
    (if literal.isNegative then ['-'] else []) ++ literal.whole = first :: rest ∧ NumberPart.start? first = some begun ∧
    through NumberPart.step begun rest =
      some ⟨stage, literal.isNegative, Nat.ofDigitChars 10 literal.whole 0, 0, false, 0, true⟩ ∧
    (stage = .zero ∨ stage = .whole) := by
  have numeric := literal.wholeNumeric
  have leading := literal.leading
  cases found : literal.whole with
  | nil => exact absurd found literal.nonempty
  | cons first rest =>
    rw [found] at numeric leading
    have digit := numeric first List.mem_cons_self
    have others : ∀ char ∈ rest, char.isDigit = true := fun char member => numeric char (List.mem_cons_of_mem _ member)
    by_cases zero : first = '0'
    · obtain rfl := zero
      have alone : rest = [] := by
        rcases leading with alone | other
        · exact (List.cons.inj alone).2
        · exact absurd rfl other
      obtain rfl := alone
      cases literal.isNegative with
      | false => exact ⟨_, _, _, .zero, rfl, rfl, rfl, Or.inl rfl⟩
      | true => exact ⟨_, _, _, .zero, rfl, rfl, rfl, Or.inl rfl⟩
    · have value : Nat.ofDigitChars 10 (first :: rest) 0 = Nat.ofDigitChars 10 rest (digitValue first) := by
        rw [Nat.ofDigitChars_cons, Nat.mul_zero, Nat.zero_add, digitValue]
      rw [value]
      cases literal.isNegative with
      | false =>
        refine ⟨first, rest, _, .whole, rfl, start?_digit digit zero, ?_, Or.inr rfl⟩
        exact through_whole others rfl
      | true =>
        have taken : NumberPart.step ⟨.sign, true, 0, 0, false, 0, true⟩ first =
            .ok (some ⟨.whole, true, digitValue first, 0, false, 0, true⟩) := by
          simp only [NumberPart.step, zero, digit, if_true, if_false, addWhole, Nat.zero_mul, Nat.zero_add]
        refine ⟨'-', first :: rest, _, .whole, rfl, rfl, ?_, Or.inr rfl⟩
        rw [through_cons _ taken]
        exact through_whole others rfl

private theorem points {part : NumberPart} (stage : part.stage = .zero ∨ part.stage = .whole) {fraction : List Char}
    (numeric : ∀ char ∈ fraction, char.isDigit = true) (nonempty : fraction ≠ []) :
    through NumberPart.step part ('.' :: fraction) =
      some ({ part with isInteger := false }.takeFraction fraction) := by
  have taken : part.step '.' = .ok (some { part with stage := .point, isInteger := false }) := by
    rcases stage with stage | stage <;> simp only [NumberPart.step, stage] <;> rfl
  rw [through_cons _ taken, through_fraction numeric nonempty rfl]
  rfl

private theorem scales {part : NumberPart}
    (stage : part.stage = .zero ∨ part.stage = .whole ∨ part.stage = .fraction ∧ part.isInteger = false)
    (positive : part.exponentIsNegative = false) (scale : Scale) :
    through NumberPart.step part scale.chars =
      some ({ part with isInteger := false, exponentIsNegative := scale.sign = some '-' }.takeExponent scale.digits) := by
  have taken : part.step scale.mark = .ok (some { part with stage := .mark, isInteger := false }) := by
    have other : scale.mark.isDigit = false ∧ scale.mark ≠ '.' := by
      rcases scale.marks with mark | mark <;> rw [mark] <;> exact ⟨rfl, by decide⟩
    rcases stage with stage | stage | ⟨stage, whole⟩
    · simp only [NumberPart.step, stage, other.1, leaveWhole, other.2, scale.marks, if_true, if_false]
      rfl
    · simp only [NumberPart.step, stage, other.1, leaveWhole, other.2, scale.marks, if_true, if_false]
      rfl
    · have same : { part with stage := .mark, isInteger := false } = { part with stage := .mark } := by rw [← whole]
      rw [same]
      simp only [NumberPart.step, stage, other.1, scale.marks, if_true]
      rfl
  rw [Scale.chars, through_cons _ taken]
  cases sign : scale.sign with
  | none =>
    rw [Option.toList_none, List.nil_append, through_exponent scale.numeric scale.nonempty (Or.inl rfl)]
    simp only [takeExponent, positive]
    rfl
  | some char =>
    have signed : NumberPart.step { part with stage := .mark, isInteger := false } char =
        .ok (some { part with stage := .markSign, isInteger := false, exponentIsNegative := char = '-' }) := by
      simp only [NumberPart.step, scale.signs char sign, if_true]
    rw [Option.toList_some, List.singleton_append, through_cons _ signed,
      through_exponent scale.numeric scale.nonempty (Or.inr rfl)]
    simp only [takeExponent, Option.some.injEq]

private theorem reads_fraction (literal : Literal) {stage : NumberStage} (begun : stage = .zero ∨ stage = .whole) :
    ∃ next, through NumberPart.step
        ⟨stage, literal.isNegative, Nat.ofDigitChars 10 literal.whole 0, 0, false, 0, true⟩ literal.fractionChars =
      some ⟨next, literal.isNegative, literal.digits, literal.fraction.length, false, 0, literal.fraction.isEmpty⟩ ∧
    (next = .zero ∨ next = .whole ∨ next = .fraction ∧ literal.fraction.isEmpty = false) := by
  unfold fractionChars digits
  rw [Nat.ofDigitChars_append]
  have numeric := literal.fractionNumeric
  generalize literal.fraction = fraction at numeric ⊢
  cases fraction with
  | nil => exact ⟨stage, rfl, begun.imp_right Or.inl⟩
  | cons char rest =>
    refine ⟨.fraction, (points begun numeric (List.cons_ne_nil char rest)).trans ?_, Or.inr (Or.inr ⟨rfl, rfl⟩)⟩
    simp only [takeFraction, Nat.zero_add, List.isEmpty_cons]

private theorem reads_scale (literal : Literal) {stage : NumberStage}
    (begun : stage = .zero ∨ stage = .whole ∨ stage = .fraction ∧ literal.fraction.isEmpty = false) :
    ∃ last, through NumberPart.step
        ⟨stage, literal.isNegative, literal.digits, literal.fraction.length, false, 0, literal.fraction.isEmpty⟩
        literal.scaleChars = some (literal.part last) ∧
      (last = .zero ∨ last = .whole ∨ last = .fraction ∨ last = .exponent) := by
  unfold scaleChars part
  cases literal.scale with
  | none =>
    refine ⟨stage, ?_, begun.imp_right (Or.imp_right fun fraction => Or.inl fraction.1)⟩
    rw [Option.isNone_none, Bool.and_true]
    rfl
  | some scale =>
    refine ⟨.exponent, ?_, Or.inr (Or.inr (Or.inr rfl))⟩
    rw [Option.isNone_some, Bool.and_false]
    exact scales begun rfl scale

/-- A literal is read whole, and the number it gives is that of all its parts. -/
theorem reads (literal : Literal) : ∃ first rest begun stage,
    literal.chars = first :: rest ∧ NumberPart.start? first = some begun ∧
    through NumberPart.step begun rest = some (literal.part stage) ∧
    (literal.part stage).finish = literal.number := by
  obtain ⟨first, rest, begun, stage, spelled, starts, whole, stages⟩ := literal.begins
  obtain ⟨next, fraction, nexts⟩ := literal.reads_fraction stages
  obtain ⟨last, scale, lasts⟩ := literal.reads_scale nexts
  refine ⟨first, rest ++ literal.fractionChars ++ literal.scaleChars, begun, last, ?_, starts, ?_, ?_⟩
  · rw [chars, spelled]
    rfl
  · rw [List.append_assoc, through_append _ whole, through_append _ fraction, scale]
  · have same := number_stage (literal.part .whole) last
    rcases lasts with rfl | rfl | rfl | rfl <;> exact same

end Literal

end RowAlgebra.Json
