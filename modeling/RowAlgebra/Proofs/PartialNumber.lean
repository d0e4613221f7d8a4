import RowAlgebra.Proofs.LiteralValue

/-! Number literals that break off. Digits before the exponent only add to the number. Those of an
exponent raise it as well, or lower it from what it is without the exponent. So a number that is not
too large at its end, neither with its exponent nor without it, is too large nowhere before. -/

namespace RowAlgebra.Json.NumberPart
open Float64 (overflow)

def mantissa (part : NumberPart) : ℚ := part.digits / (10 : ℚ) ^ part.places

def raise (part : NumberPart) : ℚ := if part.exponentIsNegative then 1 else (10 : ℚ) ^ part.exponent

/-- The number with its exponent or without it, whichever is more. -/
def reach (part : NumberPart) : ℚ := part.mantissa * part.raise

variable {part longer : NumberPart}

theorem mantissa_nonneg (part : NumberPart) : 0 ≤ part.mantissa :=
  div_nonneg (Nat.cast_nonneg _) (by positivity)

theorem raise_nonneg (part : NumberPart) : 0 ≤ part.raise := by
  unfold raise
  split <;> positivity

theorem magnitude_eq (part : NumberPart) :
    part.magnitude = part.mantissa * 10 ^ (if part.exponentIsNegative then -(part.exponent : ℤ) else part.exponent) := by
  rw [magnitude, mantissa, scale, zpow_sub₀ (by norm_num), zpow_natCast]
  ring

theorem magnitude_eq_reach (raised : part.exponentIsNegative = false) : part.magnitude = part.reach := by
  rw [magnitude_eq, reach, raise, raised, if_neg Bool.false_ne_true, if_neg Bool.false_ne_true, zpow_natCast]

theorem magnitude_le_reach (part : NumberPart) : part.magnitude ≤ part.reach := by
  by_cases lowered : part.exponentIsNegative = true
  · rw [magnitude_eq, reach, raise, if_pos lowered, if_pos lowered]
    apply mul_le_mul_of_nonneg_left _ part.mantissa_nonneg
    exact zpow_le_one_of_nonpos₀ (by norm_num) (by omega)
  · exact (magnitude_eq_reach (Bool.eq_false_iff.mpr lowered)).le

inductive Advances (part : NumberPart) : NumberPart → Prop where
  | passes {stage : NumberStage} {isInteger : Bool} (before : part.stage ≠ .exponent) (within : stage ≠ .exponent) :
      Advances part { part with stage, isInteger }
  | whole (char : Char) (before : part.stage ≠ .exponent) : Advances part (part.addWhole char)
  | fraction (char : Char) (before : part.stage ≠ .exponent) : Advances part (part.addFraction char)
  | signs (isNegative : Bool) (before : part.stage ≠ .exponent) :
      Advances part { part with stage := .markSign, exponentIsNegative := isNegative }
  | exponent (char : Char) : Advances part (part.addExponent char)

theorem leaveWhole_advances {char : Char} (before : part.stage ≠ .exponent) (taken : part.leaveWhole char = some longer) :
    Advances part longer := by
  unfold leaveWhole at taken
  repeat' split at taken
  all_goals cases taken
  all_goals exact .passes before NumberStage.noConfusion

theorem step_advances {char : Char} (taken : part.step char = .ok (some longer)) : Advances part longer := by
  unfold step at taken
  by_cases before : part.stage = .exponent
  · rw [before] at taken
    dsimp only at taken
    split at taken
    all_goals cases taken
    exact .exponent char
  · cases stage : part.stage with
    | sign =>
      simp only [stage] at taken
      repeat' split at taken
      all_goals cases taken
      · exact .passes before NumberStage.noConfusion
      · exact .whole char before
    | zero =>
      simp only [stage] at taken
      split at taken
      · cases taken
      · exact leaveWhole_advances before (Except.ok.inj taken)
    | whole =>
      simp only [stage] at taken
      split at taken
      · cases taken
        exact .whole char before
      · exact leaveWhole_advances before (Except.ok.inj taken)
    | point =>
      simp only [stage] at taken
      split at taken
      all_goals cases taken
      exact .fraction char before
    | fraction =>
      simp only [stage] at taken
      repeat' split at taken
      all_goals cases taken
      · exact .fraction char before
      · exact .passes before NumberStage.noConfusion
    | mark =>
      simp only [stage] at taken
      repeat' split at taken
      all_goals cases taken
      · exact .signs _ before
      · exact .exponent char
    | markSign =>
      simp only [stage] at taken
      split at taken
      all_goals cases taken
      exact .exponent char
    | exponent => exact absurd stage before

def Early (part : NumberPart) : Prop := part.stage ≠ .exponent → part.exponent = 0

theorem start?_early {char : Char} (starts : start? char = some part) : part.Early := by
  unfold start? at starts
  repeat' split at starts
  all_goals cases starts
  all_goals exact fun _ => rfl

theorem Advances.early (advances : Advances part longer) (early : part.Early) : longer.Early := by
  intro later
  cases advances with
  | passes before | whole _ before | fraction _ before | signs _ before => exact early before
  | exponent => exact absurd rfl later

theorem mantissa_le (more : part.digits * 10 ^ longer.places ≤ longer.digits * 10 ^ part.places) :
    part.mantissa ≤ longer.mantissa := by
  unfold mantissa
  rw [div_le_div_iff₀ (by positivity) (by positivity)]
  exact_mod_cast more

/-- No character makes the number smaller, if the exponent is taken into account only where it
raises the number. -/
theorem Advances.reach_le (advances : Advances part longer) (early : part.Early) : part.reach ≤ longer.reach := by
  cases advances with
  | passes => exact le_rfl
  | whole char =>
    apply mul_le_mul_of_nonneg_right _ part.raise_nonneg
    apply mantissa_le
    exact Nat.mul_le_mul_right _ (by simp only [addWhole]; omega)
  | fraction char =>
    apply mul_le_mul_of_nonneg_right _ part.raise_nonneg
    apply mantissa_le
    simp only [addFraction, Nat.pow_succ', ← Nat.mul_assoc]
    exact Nat.mul_le_mul_right _ (Nat.le_add_right _ _)
  | signs isNegative before =>
    have unraised : ∀ isNegative, { part with stage := .markSign, exponentIsNegative := isNegative }.raise = 1 := by
      intro isNegative
      simp only [raise, early before, pow_zero, ite_self]
    have same : part.raise = 1 := unraised part.exponentIsNegative
    unfold reach
    rw [unraised, same]
    exact le_rfl
  | exponent char =>
    apply mul_le_mul_of_nonneg_left _ part.mantissa_nonneg
    have further : part.exponent ≤ part.exponent * 10 + digitValue char := by omega
    by_cases lowered : part.exponentIsNegative = true
    · simp only [raise, addExponent, lowered, if_true, le_refl]
    · rw [raise, raise, addExponent, if_neg lowered, if_neg lowered]
      exact pow_le_pow_right₀ (by norm_num) further

theorem through_reach {chars : List Char} (early : part.Early) (taken : through step part chars = some longer) :
    longer.Early ∧ part.reach ≤ longer.reach := by
  induction chars generalizing part with
  | nil =>
    obtain rfl := Option.some.inj taken
    exact ⟨early, le_rfl⟩
  | cons char rest ih =>
    rw [through] at taken
    split at taken
    next next one =>
      have advances := step_advances one
      obtain ⟨later, further⟩ := ih (advances.early early) taken
      exact ⟨later, (advances.reach_le early).trans further⟩
    next => cases taken
    next => cases taken

theorem nearest_ok (within : part.magnitude < overflow) : ∃ number, part.nearest = .ok number := by
  have rounding := part.rounded_isRounding
  have value := part.nearest_value
  generalize Float64.ofDecimal? part.isNegative part.rounded.2 (part.scale part.rounded.1) = answer at rounding value
  cases answer with
  | none =>
    have nonneg : 0 ≤ part.magnitude := mul_nonneg (Nat.cast_nonneg _) (by positivity)
    have large := rounding.none_iff.mp rfl
    rw [Float64.abs_signed, abs_of_nonneg nonneg] at large
    exact absurd within (not_lt.mpr large)
  | some x =>
    cases found : part.nearest with
    | ok number => exact ⟨number, rfl⟩
    | error error =>
      rw [found] at value
      cases value

/-- A number in range is either a number already, or wants more characters. -/
theorem finish_of_reach (within : part.reach < overflow) :
    part.finish = .error .eofInValue ∨ ∃ number, part.finish = .ok number := by
  have number : ∃ number, part.number = .ok number := by
    have nearest := nearest_ok (part.magnitude_le_reach.trans_lt within)
    unfold NumberPart.number
    repeat' split
    · exact ⟨_, rfl⟩
    · exact nearest
    · exact ⟨_, rfl⟩
    · exact nearest
    · exact nearest
  unfold finish
  cases part.stage with
  | sign | point | mark | markSign => exact .inl rfl
  | zero | whole | fraction | exponent => exact .inr number

end RowAlgebra.Json.NumberPart

namespace RowAlgebra.Json.Literal
open Float64 (overflow)

private theorem ten_lt_overflow : (10 : ℚ) < overflow := by
  have within := (Float64.ofInt64_nearest 10).within
  have ten : ((10 : Int64).toInt : ℚ) = 10 := rfl
  rwa [ten, abs_of_pos (by norm_num)] at within

theorem magnitude_lt_overflow {literal : Literal} {number : Number} (found : literal.number = .ok number) :
    literal.magnitude < overflow := by
  have nonneg : 0 ≤ literal.magnitude := by
    rw [magnitude_digits]
    exact mul_nonneg (Nat.cast_nonneg _) (by positivity)
  have size : |literal.value| = literal.magnitude := by rw [value, Float64.abs_signed, abs_of_nonneg nonneg]
  rw [← size]
  by_cases integer : ∃ n, literal.IsInteger n
  · obtain ⟨n, same⟩ := integer
    rw [same.exact]
    exact (Float64.ofInt64_nearest n).within
  · obtain ⟨answer, rounding, same⟩ := number_rounded (not_exists.mp integer)
    rw [found] at same
    apply not_le.mp
    intro large
    rw [rounding.none_iff.mpr large] at same
    cases same

/-- No beginning of a literal is out of range if the literal is not, and has one whole digit where it
has an exponent. -/
theorem reach_lt_overflow {literal : Literal} {number : Number} (found : literal.number = .ok number)
    (short : literal.scale = none ∨ literal.whole.length = 1) (stage : NumberStage) :
    (literal.part stage).reach < overflow := by
  by_cases lowered : (literal.part stage).exponentIsNegative = true
  · have single : literal.whole.length = 1 := by
      apply short.resolve_left
      intro none
      rw [part, none] at lowered
      cases lowered
    have numeric : ∀ char ∈ literal.whole ++ literal.fraction, char.isDigit = true :=
      List.forall_mem_append.mpr ⟨literal.wholeNumeric, literal.fractionNumeric⟩
    have digits := ofDigitChars_lt numeric
    rw [List.length_append, single, Nat.pow_add, Nat.pow_one] at digits
    rw [NumberPart.reach, NumberPart.raise, if_pos lowered, mul_one, NumberPart.mantissa]
    calc (literal.digits : ℚ) / 10 ^ literal.fraction.length
      _ < 10 := by
        rw [div_lt_iff₀ (by positivity)]
        exact_mod_cast digits
      _ < overflow := ten_lt_overflow
  · rw [← NumberPart.magnitude_eq_reach (Bool.eq_false_iff.mpr lowered), magnitude_part]
    exact magnitude_lt_overflow found

end RowAlgebra.Json.Literal
