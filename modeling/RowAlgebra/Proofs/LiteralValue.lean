import Mathlib.Data.List.DropRight
import RowAlgebra.Proofs.DigitTrace
import RowAlgebra.Proofs.JsonRoundTrip

/-! What a number literal stands for. A literal without fraction and exponent whose value 64 bits
can hold is that integer, unless it is minus zero. Every other literal is the double nearest to its
exact decimal value, and is refused where that is infinite. A tie between two doubles goes to the
even one, but away from zero if the literal has more significant digits than are looked at. -/

namespace RowAlgebra.Json

namespace Literal
open Float64 (Halfway IsRounding Nearest overflow)
open NumberPart (digitLimit trim)

def power (literal : Literal) : Int :=
  match literal.scale with
  | none => 0
  | some scale => if scale.sign = some '-' then -(scale.magnitude : Int) else scale.magnitude

def magnitude (literal : Literal) : ℚ :=
  (Nat.ofDigitChars 10 literal.whole 0 + Nat.ofDigitChars 10 literal.fraction 0 / 10 ^ literal.fraction.length) *
    10 ^ literal.power

def value (literal : Literal) : ℚ := if literal.isNegative then -literal.magnitude else literal.magnitude

def trimmed (literal : Literal) : List Char := literal.fraction.rdropWhile (· == '0')

def significant (literal : Literal) : List Char := (literal.whole ++ literal.trimmed).dropWhile (· == '0')

/-- Ties are told by their digits, if those are looked at to the end. -/
def halfway (literal : Literal) : Halfway := if digitLimit < literal.significant.length then .away else .even

/-- The literal is a plain integer that 64 bits can hold. -/
structure IsInteger (literal : Literal) (n : Int64) : Prop where
  plain : literal.fraction = [] ∧ literal.scale = none
  signed : literal.chars ≠ ['-', '0']
  exact : literal.value = n.toInt

/-- What a text comes to that is the literal and nothing else, if ties go as the rule says. -/
inductive Denotes (rule : Halfway) (literal : Literal) : Except CodecError Value → Prop where
  | integer {n : Int64} (same : literal.IsInteger n) : Denotes rule literal (.ok (.int n))
  | float {x : Float64} (other : ∀ n, ¬literal.IsInteger n) (nearest : Nearest rule literal.value x) :
    Denotes rule literal (.ok (.float x))
  | outOfRange (other : ∀ n, ¬literal.IsInteger n) (large : overflow ≤ |literal.value|) :
    Denotes rule literal (.error (.decode .numberOutOfRange))

private theorem digit_pos {char : Char} (numeric : char.isDigit = true) (nonzero : char ≠ '0') :
    0 < char.toNat - '0'.toNat := by
  have least : '0'.toNat ≤ char.toNat := (Char.isDigit_iff_toNat.mp numeric).1
  have other : char.toNat ≠ '0'.toNat := fun same => nonzero (Char.toNat_inj.mp same)
  omega

private theorem digit_lt {char : Char} (numeric : char.isDigit = true) : char.toNat - '0'.toNat < 10 := by
  have most : char.toNat ≤ '9'.toNat := (Char.isDigit_iff_toNat.mp numeric).2
  have nine : '9'.toNat = '0'.toNat + 9 := rfl
  omega

theorem ofDigitChars_lt {digits : List Char} (numeric : ∀ char ∈ digits, char.isDigit = true) :
    Nat.ofDigitChars 10 digits 0 < 10 ^ digits.length := by
  induction digits with
  | nil => exact Nat.one_pos
  | cons char rest hypothesis =>
    have others := hypothesis fun other member => numeric other (List.mem_cons_of_mem _ member)
    have digit := digit_lt (numeric char List.mem_cons_self)
    rw [Nat.ofDigitChars_cons, Nat.mul_zero, Nat.zero_add, Nat.ofDigitChars_eq_ofDigitChars_zero, List.length_cons, Nat.pow_succ]
    have leading := Nat.mul_le_mul_left (10 ^ rest.length) (Nat.le_of_lt_succ digit)
    omega

theorem pow_le_ofDigitChars {digits : List Char} (numeric : ∀ char ∈ digits, char.isDigit = true) (places : Nat) :
    10 ^ places ≤ Nat.ofDigitChars 10 digits 0 ↔ places < (digits.dropWhile (· == '0')).length := by
  induction digits with
  | nil => exact iff_of_false (Nat.not_le.mpr (Nat.pow_pos (by omega))) (Nat.not_lt_zero _)
  | cons char rest hypothesis =>
    have numericRest : ∀ other ∈ rest, other.isDigit = true := fun other member => numeric other (List.mem_cons_of_mem _ member)
    by_cases zero : char = '0'
    · subst zero
      exact hypothesis numericRest
    · have kept : (char :: rest).dropWhile (· == '0') = char :: rest := List.dropWhile_cons_of_neg (by simpa using zero)
      have digit := digit_pos (numeric char List.mem_cons_self) zero
      have small := ofDigitChars_lt numeric
      rw [kept, List.length_cons]
      constructor
      · intro reached
        exact (Nat.pow_lt_pow_iff_right (by omega)).mp (Nat.lt_of_le_of_lt reached small)
      · intro behind
        rw [Nat.ofDigitChars_cons, Nat.mul_zero, Nat.zero_add, Nat.ofDigitChars_eq_ofDigitChars_zero]
        calc 10 ^ places
          _ ≤ 10 ^ rest.length * 1 := by rw [Nat.mul_one]; exact Nat.pow_le_pow_right (by omega) (by omega)
          _ ≤ 10 ^ rest.length * (char.toNat - '0'.toNat) := Nat.mul_le_mul_left _ digit
          _ ≤ _ := Nat.le_add_right _ _

theorem trim_ofDigitChars {fraction : List Char} (numeric : ∀ char ∈ fraction, char.isDigit = true) (whole : Nat) :
    trim fraction.length (Nat.ofDigitChars 10 fraction whole) =
      ((fraction.rdropWhile (· == '0')).length, Nat.ofDigitChars 10 (fraction.rdropWhile (· == '0')) whole) := by
  induction fraction using List.reverseRecOn with
  | nil => rfl
  | append_singleton before last hypothesis =>
    have numericBefore : ∀ char ∈ before, char.isDigit = true := fun char member =>
      numeric char (List.mem_append_left _ member)
    have digit := digit_lt (numeric last (List.mem_append_right _ (List.mem_singleton.mpr rfl)))
    rw [List.length_append, List.length_singleton, Nat.ofDigitChars_append, Nat.ofDigitChars_cons, Nat.ofDigitChars_nil, trim,
      List.rdropWhile_concat]
    by_cases zero : last = '0'
    · subst zero
      rw [Nat.sub_self, Nat.add_zero, if_pos (Nat.mul_mod_right 10 _), Nat.mul_div_cancel_left _ (by omega), hypothesis numericBefore]
      rfl
    · have positive := digit_pos (numeric last (List.mem_append_right _ (List.mem_singleton.mpr rfl))) zero
      rw [if_neg (by omega), if_neg (by simpa using zero), List.length_append, List.length_singleton, Nat.ofDigitChars_append,
        Nat.ofDigitChars_cons, Nat.ofDigitChars_nil]

variable (literal : Literal)

def coefficient : Nat := Nat.ofDigitChars 10 (literal.whole ++ literal.trimmed) 0

theorem trim_digits : trim literal.fraction.length literal.digits = (literal.trimmed.length, literal.coefficient) := by
  rw [digits, coefficient, Nat.ofDigitChars_append, Nat.ofDigitChars_append]
  exact trim_ofDigitChars literal.fractionNumeric _

theorem long_iff : digitLimit < literal.significant.length ↔ 10 ^ digitLimit ≤ literal.coefficient := by
  refine (pow_le_ofDigitChars ?_ _).symm
  intro char member
  rcases List.mem_append.mp member with whole | fraction
  · exact literal.wholeNumeric char whole
  · exact literal.fractionNumeric char ((List.rdropWhile_prefix _ _).subset fraction)

theorem scale_part (stage : NumberStage) (places : Nat) : (literal.part stage).scale places = literal.power - places := by
  unfold NumberPart.scale part power
  cases literal.scale with
  | none => rfl
  | some scale =>
    by_cases negative : scale.sign = some '-'
    · simp [negative]
    · simp [negative]

theorem magnitude_digits : literal.magnitude = literal.digits * 10 ^ (literal.power - literal.fraction.length) := by
  have places : (10 : ℚ) ^ literal.fraction.length ≠ 0 := by positivity
  have split : literal.digits =
      10 ^ literal.fraction.length * Nat.ofDigitChars 10 literal.whole 0 + Nat.ofDigitChars 10 literal.fraction 0 := by
    rw [digits, Nat.ofDigitChars_append, Nat.ofDigitChars_eq_ofDigitChars_zero]
  rw [magnitude, split, zpow_sub₀ (by norm_num), zpow_natCast, Nat.cast_add, Nat.cast_mul, Nat.cast_pow, Nat.cast_ofNat,
    ← mul_div_assoc, mul_div_right_comm, add_div, mul_div_cancel_left₀ _ places]

theorem value_plain {literal : Literal} (plain : literal.fraction = [] ∧ literal.scale = none) :
    literal.value = ((if literal.isNegative then -(literal.digits : Int) else literal.digits : Int) : ℚ) := by
  have exponent : literal.power - literal.fraction.length = 0 := by
    rw [power, plain.1, plain.2]
    rfl
  rw [value, magnitude_digits, exponent, zpow_zero, mul_one]
  split
  · rw [Int.cast_neg, Int.cast_natCast]
  · rw [Int.cast_natCast]

theorem chars_minusZero_iff {literal : Literal} (plain : literal.fraction = [] ∧ literal.scale = none) :
    literal.chars = ['-', '0'] ↔ literal.isNegative = true ∧ literal.digits = 0 := by
  have spelled : literal.chars = (if literal.isNegative then ['-'] else []) ++ literal.whole := by
    rw [chars, fractionChars, scaleChars, plain.1, plain.2]
    exact (List.append_nil _).trans (List.append_nil _)
  have number : literal.digits = Nat.ofDigitChars 10 literal.whole 0 := by rw [digits, plain.1, List.append_nil]
  have zero : Nat.ofDigitChars 10 literal.whole 0 = 0 ↔ literal.whole = ['0'] := by
    constructor
    · intro none
      refine literal.leading.resolve_right fun other => ?_
      have kept : literal.whole.dropWhile (· == '0') = literal.whole := by
        cases found : literal.whole with
        | nil => rfl
        | cons first rest =>
          rw [found] at other
          exact List.dropWhile_cons_of_neg (by simpa using other)
      have reached := (pow_le_ofDigitChars literal.wholeNumeric 0).mpr (by
        rw [kept]
        exact List.length_pos_iff.mpr literal.nonempty)
      omega
    · intro alone
      rw [alone]
      rfl
  rw [spelled, number, zero]
  cases literal.isNegative with
  | true => simp
  | false =>
    refine iff_of_false (fun same => ?_) (fun signed => Bool.false_ne_true signed.1)
    have sign := literal.wholeNumeric '-' (by
      rw [if_neg Bool.false_ne_true, List.nil_append] at same
      rw [same]
      exact List.mem_cons_self)
    cases sign

theorem number_integer {literal : Literal} {n : Int64} (same : literal.IsInteger n) :
    ∃ number, literal.number = .ok number ∧ number.value = .int n := by
  have low := n.le_toInt
  have high := n.toInt_lt
  have integer : (literal.part .whole).isInteger = true := by
    rw [part, same.plain.1, same.plain.2]
    rfl
  have exact : (if literal.isNegative then -(literal.digits : Int) else literal.digits) = n.toInt := by
    have equal := same.exact
    rw [value_plain same.plain] at equal
    exact Int.cast_injective equal
  by_cases negative : literal.isNegative = true
  · rw [if_pos negative] at exact
    have nonzero : literal.digits ≠ 0 := fun zero => same.signed ((chars_minusZero_iff same.plain).mpr ⟨negative, zero⟩)
    refine ⟨_, NumberPart.number_negative integer negative ⟨nonzero, ?_⟩, ?_⟩
    · change literal.digits ≤ 2 ^ 63
      omega
    · change Value.int (Int64.ofInt (-literal.digits)) = .int n
      rw [exact, Int64.ofInt_toInt]
  · rw [if_neg negative] at exact
    have range : literal.digits < 2 ^ 64 := by omega
    have small : (UInt64.ofNat literal.digits).toNat < 2 ^ 63 := by
      rw [UInt64.toNat_ofNat_of_lt' range]
      omega
    refine ⟨_, NumberPart.number_natural integer (Bool.eq_false_iff.mpr negative) range, ?_⟩
    change Value.ofUInt64 (UInt64.ofNat literal.digits) = .int n
    rw [Value.ofUInt64, if_pos small, UInt64.toInt64_ofNat', ← Int64.ofInt_eq_ofNat, exact, Int64.ofInt_toInt]

end Literal

def answered : Option Float64 → Except Error Value
  | some x => .ok (.float x)
  | none => .error .numberOutOfRange

namespace NumberPart
open Float64 (IsRounding)

def magnitude (part : NumberPart) : ℚ := part.digits * 10 ^ part.scale part.places

theorem magnitude_trim (part : NumberPart) :
    part.magnitude = (trim part.places part.digits).2 * 10 ^ part.scale (trim part.places part.digits).1 := by
  obtain ⟨zeros, places, digits⟩ := trim_shift part.places part.digits
  have exponent : part.scale (trim part.places part.digits).1 = zeros + part.scale part.places := by
    unfold scale
    omega
  rw [magnitude, exponent, zpow_add₀ (by norm_num), zpow_natCast, ← mul_assoc]
  congr 1
  exact_mod_cast digits

/-- What is rounded is the exact value, with a trace behind more digits than are looked at. -/
theorem rounded_isRounding (part : NumberPart) :
    IsRounding (if (trim part.places part.digits).2 < 10 ^ digitLimit then .even else .away)
      (if part.isNegative then -part.magnitude else part.magnitude)
      (Float64.ofDecimal? part.isNegative part.rounded.2 (part.scale part.rounded.1)) := by
  rw [magnitude_trim, rounded]
  dsimp only
  by_cases short : (trim part.places part.digits).2 < 10 ^ digitLimit
  · rw [if_pos short, if_pos short, Float64.ofDecimal?_eq]
    exact Float64.ofRank?_isRounding (Float64.decimalRank_rounds _ _) part.isNegative
  · have exponent : part.scale ((trim part.places part.digits).1 + 1) = part.scale (trim part.places part.digits).1 - 1 := by
      unfold scale
      omega
    rw [if_neg short, if_neg short, exponent]
    exact Float64.ofDecimal?_trace (Nat.le_of_not_lt short) part.isNegative _

theorem nearest_value (part : NumberPart) : part.nearest.map Number.value =
    answered (Float64.ofDecimal? part.isNegative part.rounded.2 (part.scale part.rounded.1)) := by
  unfold nearest
  generalize part.rounded = rounded
  obtain ⟨places, digits⟩ := rounded
  dsimp only
  cases Float64.ofDecimal? part.isNegative digits (part.scale places) with
  | none => rfl
  | some x =>
    dsimp only
    split
    next minusZero =>
      rw [minusZero.2]
      rfl
    next => rfl

end NumberPart

namespace Literal
open Float64 (Halfway IsRounding Nearest overflow)
open NumberPart (digitLimit)

variable (literal : Literal)

theorem magnitude_part (stage : NumberStage) : (literal.part stage).magnitude = literal.magnitude := by
  rw [NumberPart.magnitude, scale_part, magnitude_digits]
  rfl

theorem rounded_isRounding : IsRounding literal.halfway literal.value
    (Float64.ofDecimal? literal.isNegative (literal.part .whole).rounded.2
      ((literal.part .whole).scale (literal.part .whole).rounded.1)) := by
  have gathered : (NumberPart.trim (literal.part .whole).places (literal.part .whole).digits).2 = literal.coefficient :=
    congrArg Prod.snd literal.trim_digits
  have rounding := (literal.part .whole).rounded_isRounding
  rw [gathered, magnitude_part] at rounding
  have rule : literal.halfway = if literal.coefficient < 10 ^ digitLimit then .even else .away := by
    simp only [halfway, long_iff, ← Nat.not_lt, ite_not]
  rw [rule]
  exact rounding

private theorem rounded_natural {literal : Literal} (plain : literal.fraction = [] ∧ literal.scale = none)
    (positive : literal.isNegative = false) (range : literal.digits < 2 ^ 64) :
    Nearest literal.halfway literal.value (Float64.ofUInt64 (UInt64.ofNat literal.digits)) := by
  have short : ¬digitLimit < literal.significant.length := by
    have same : literal.coefficient = literal.digits := by rw [coefficient, trimmed, digits, plain.1, List.rdropWhile_nil]
    rw [long_iff, same, Nat.not_le]
    exact Nat.lt_trans range (by decide +kernel)
  have number : (UInt64.ofNat literal.digits).toNat = literal.digits := UInt64.toNat_ofNat_of_lt' range
  have nearest := Float64.ofUInt64_nearest (UInt64.ofNat literal.digits)
  rw [number] at nearest
  rw [halfway, if_neg short, value_plain plain, positive, if_neg Bool.false_ne_true, Int.cast_natCast]
  exact nearest

theorem number_rounded {literal : Literal} (other : ∀ n, ¬literal.IsInteger n) :
    ∃ answer, IsRounding literal.halfway literal.value answer ∧ literal.number.map Number.value = answered answer := by
  have nearest : literal.number = (literal.part .whole).nearest → ∃ answer,
      IsRounding literal.halfway literal.value answer ∧ literal.number.map Number.value = answered answer := by
    intro same
    rw [same]
    exact ⟨_, literal.rounded_isRounding, NumberPart.nearest_value _⟩
  have integer : (literal.part .whole).isInteger = true ↔ literal.fraction = [] ∧ literal.scale = none := by
    rw [part, Bool.and_eq_true, List.isEmpty_iff, Option.isNone_iff_eq_none]
  by_cases plain : literal.fraction = [] ∧ literal.scale = none
  · have fits : ∀ n : Int64, (if literal.isNegative then -(literal.digits : Int) else literal.digits) = n.toInt →
        literal.isNegative = true ∧ literal.digits = 0 := by
      intro n exact
      by_contra signed
      exact other n ⟨plain, fun same => signed ((chars_minusZero_iff plain).mp same), by rw [value_plain plain, exact]⟩
    by_cases negative : literal.isNegative = true
    · apply nearest
      have beyond : ¬(literal.digits ≠ 0 ∧ literal.digits ≤ 2 ^ 63) := by
        rintro ⟨nonzero, range⟩
        have held : (Int64.ofInt (-literal.digits)).toInt = -literal.digits :=
          Int64.toInt_ofInt_of_le (by omega) (by omega)
        exact nonzero (fits _ (by rw [if_pos negative, held])).2
      exact (if_pos (integer.mpr plain)).trans ((if_pos negative).trans (if_neg beyond))
    · have positive := Bool.eq_false_iff.mpr negative
      by_cases range : literal.digits < 2 ^ 64
      · have natural := NumberPart.number_natural (integer.mpr plain) positive range
        have large : ¬literal.digits < 2 ^ 63 := by
          intro small
          have held : (Int64.ofInt literal.digits).toInt = literal.digits :=
            Int64.toInt_ofInt_of_le (by omega) (by omega)
          exact negative (fits _ (by rw [if_neg negative, held])).1
        refine ⟨_, Float64.isRounding_some (rounded_natural plain positive range), ?_⟩
        have number : (UInt64.ofNat literal.digits).toNat = literal.digits := UInt64.toNat_ofNat_of_lt' range
        rw [Literal.number, natural]
        change Except.ok (Value.ofUInt64 (UInt64.ofNat literal.digits)) = _
        rw [Value.ofUInt64, number, if_neg large]
        rfl
      · apply nearest
        exact (if_pos (integer.mpr plain)).trans ((if_neg negative).trans (if_neg range))
  · apply nearest
    exact if_neg fun whole => plain (integer.mp whole)

theorem ofJson_chars : Value.ofJson (String.ofList literal.chars) = (literal.number.map Number.value).mapError .decode := by
  obtain ⟨first, more, begun, stage, spelled, starts, taken, complete⟩ := literal.reads
  obtain ⟨⟨inked, _⟩, begins⟩ := begin_number starts []
  have whole := outcome_through (follows_number []) [] taken
  rw [List.append_nil] at whole
  rw [Value.ofJson, String.toList_ofList, spelled, read_eq_outcome, State.start, outcome_place _ inked begins, whole,
    outcome_nil, State.finish, ScalarPart.finish, complete]
  cases literal.number with
  | error error => rfl
  | ok number => rfl

theorem Denotes.unique {rule : Halfway} {literal : Literal} {first second : Except CodecError Value}
    (denotes : Denotes rule literal first) (other : Denotes rule literal second) : first = second := by
  cases denotes with
  | integer same =>
    cases other with
    | integer equal =>
      have level := Int.cast_injective (same.exact.symm.trans equal.exact)
      rw [Int64.toInt_inj.mp level]
    | float excluded | outOfRange excluded => exact absurd same (excluded _)
  | float excluded nearest =>
    cases other with
    | integer same => exact absurd same (excluded _)
    | float _ equal => rw [nearest.unique equal]
    | outOfRange _ large => exact absurd nearest.within (not_lt.mpr large)
  | outOfRange excluded large =>
    cases other with
    | integer same => exact absurd same (excluded _)
    | float _ nearest => exact absurd nearest.within (not_lt.mpr large)
    | outOfRange => rfl

end Literal

end RowAlgebra.Json

namespace RowAlgebra.Proofs.LiteralValue
open Json Json.Literal

/-- A literal of any length is read for the plain integer that it is, if it is one, and otherwise
for the double nearest to its exact value; only where that is infinite there is an error. -/
theorem literals_denote (literal : Literal) (result : Except CodecError Value) :
    Value.ofJson (String.ofList literal.chars) = result ↔ Denotes literal.halfway literal result := by
  have denoted : Denotes literal.halfway literal (Value.ofJson (String.ofList literal.chars)) := by
    rw [ofJson_chars]
    by_cases integer : ∃ n, literal.IsInteger n
    · obtain ⟨n, same⟩ := integer
      obtain ⟨number, found, value⟩ := number_integer same
      rw [found]
      change Denotes literal.halfway literal (.ok number.value)
      rw [value]
      exact .integer same
    · have other : ∀ n, ¬literal.IsInteger n := not_exists.mp integer
      obtain ⟨answer, rounding, found⟩ := number_rounded other
      rw [found]
      cases answer with
      | none => exact .outOfRange other (rounding.none_iff.mp rfl)
      | some x => exact .float other ((rounding.some_iff x).mp rfl)
  constructor
  · intro same
    exact same ▸ denoted
  · exact denoted.unique

/-- An odd integer half-way between two doubles, with 753 zeros that the exponent takes back. -/
def longTie : Literal where
  isNegative := false
  whole := "9007199254740993".toList ++ List.replicate 753 '0'
  fraction := []
  scale := some ⟨'e', some '-', "753".toList, .inl rfl, by simp, by decide, List.all_eq_true.mp rfl⟩
  nonempty := by decide +kernel
  leading := .inr (by decide)
  wholeNumeric := List.all_eq_true.mp (by decide +kernel)
  fractionNumeric := fun _ member => nomatch member

private theorem ofDigitChars_zeros (digits : List Char) (zeros : Nat) :
    (Nat.ofDigitChars 10 (digits ++ List.replicate zeros '0') 0 : ℚ) = 10 ^ zeros * Nat.ofDigitChars 10 digits 0 := by
  rw [Nat.ofDigitChars_append, Nat.ofDigitChars_replicate_zero, Nat.cast_mul, Nat.cast_pow, Nat.cast_ofNat]

theorem value_longTie : longTie.value = (9007199254740993 : Int) := by
  have leading : Nat.ofDigitChars 10 "9007199254740993".toList 0 = 9007199254740993 := by decide
  have whole : (Nat.ofDigitChars 10 longTie.whole 0 : ℚ) = 10 ^ 753 * 9007199254740993 := by
    rw [longTie, ofDigitChars_zeros, leading, Nat.cast_ofNat]
  have fraction : Nat.ofDigitChars 10 longTie.fraction 0 = 0 := rfl
  have power : longTie.power = -(753 : Nat) := rfl
  have positive : longTie.isNegative = false := rfl
  have nonzero : (10 : ℚ) ^ 753 ≠ 0 := pow_ne_zero _ (by norm_num)
  rw [value, positive, if_neg Bool.false_ne_true, magnitude, whole, fraction, power, zpow_neg, zpow_natCast, Nat.cast_zero,
    zero_div, add_zero, mul_right_comm, mul_inv_cancel₀ nonzero, one_mul, Int.cast_ofNat]

/-- With all its digits looked at the tie would go to the even neighbour. -/
theorem longTie_goes_away :
    Value.ofJson (String.ofList longTie.chars) = .ok (.float (.ofInt64 9007199254740994)) ∧
    Denotes .even longTie (.ok (.float (.ofInt64 9007199254740992))) ∧
    ¬∀ result, Value.ofJson (String.ofList longTie.chars) = result ↔ Denotes .even longTie result := by
  have number : longTie.number = .ok (.float (.ofInt64 9007199254740994)) := by decide +kernel
  have read : Value.ofJson (String.ofList longTie.chars) = .ok (.float (.ofInt64 9007199254740994)) := by
    rw [ofJson_chars, number]
    rfl
  have nearest := Float64.ofInt64_nearest 9007199254740993
  have even : Float64.ofInt64 9007199254740993 = .ofInt64 9007199254740992 := by decide +kernel
  have expected : Denotes .even longTie (.ok (.float (.ofInt64 9007199254740992))) := by
    refine .float (fun n integer => nomatch integer.plain.2) ?_
    rw [value_longTie, ← even]
    exact nearest
  have apart : Float64.ofInt64 9007199254740994 ≠ .ofInt64 9007199254740992 := by decide +kernel
  refine ⟨read, expected, ?_⟩
  intro claimed
  have same := (claimed _).mpr expected
  rw [read] at same
  exact apart (Value.float.inj (Except.ok.inj same))

end RowAlgebra.Proofs.LiteralValue
