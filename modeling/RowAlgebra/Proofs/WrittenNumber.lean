import RowAlgebra.Json.Writer
import RowAlgebra.Proofs.NumberLiteral
import RowAlgebra.Proofs.ShortestDecimal

/-! The texts that are written for integers and for doubles are literals, and each gives back
the number it was written for. Integers never have a point or an exponent and doubles always
have one of them, so neither is taken for the other. -/

namespace RowAlgebra.Json

private theorem digits_numeric (n : Nat) : ∀ char ∈ Nat.toDigits 10 n, char.isDigit = true :=
  fun _ member => Nat.isDigit_of_mem_toDigits (by omega) (by omega) member

private theorem digits_leading {n : Nat} (nonzero : n ≠ 0) (more : List Char) :
    (Nat.toDigits 10 n ++ more).head? ≠ some '0' := by
  induction n using Nat.strongRecOn generalizing more with
  | ind n hypothesis =>
    by_cases single : n < 10
    · rw [Nat.toDigits_of_lt_base single, List.singleton_append, List.head?_cons]
      intro zero
      exact nonzero (Nat.digitChar_eq_zero.mp (Option.some.inj zero))
    · rw [Nat.toDigits_of_base_le (by omega) (Nat.le_of_not_lt single), List.append_assoc]
      exact hypothesis (n / 10) (by omega) (by omega) _

private theorem nil_numeric : ∀ char ∈ ([] : List Char), char.isDigit = true := List.forall_mem_nil _

private theorem zeros_numeric (zeros : Nat) : ∀ char ∈ List.replicate zeros '0', char.isDigit = true := by
  intro char member
  rw [List.eq_of_mem_replicate member]
  rfl

private theorem numeric_append {first second : List Char} (leading : ∀ char ∈ first, char.isDigit = true)
    (trailing : ∀ char ∈ second, char.isDigit = true) : ∀ char ∈ first ++ second, char.isDigit = true := by
  intro char member
  rcases List.mem_append.mp member with early | late
  · exact leading char early
  · exact trailing char late

namespace NumberPart

theorem number_negative {part : NumberPart} (integer : part.isInteger = true) (sign : part.isNegative = true)
    (range : part.digits ≠ 0 ∧ part.digits ≤ 2 ^ 63) :
    part.number = .ok (.negative (Int64.ofInt (-part.digits))) := by
  rw [number, if_pos integer, if_pos sign, if_pos range]

theorem number_natural {part : NumberPart} (integer : part.isInteger = true) (sign : part.isNegative = false)
    (range : part.digits < 2 ^ 64) : part.number = .ok (.natural (UInt64.ofNat part.digits)) := by
  rw [number, if_pos integer, sign, if_neg Bool.false_ne_true, if_pos range]

theorem trim_shift (places digits : Nat) :
    ∃ zeros, places = (trim places digits).1 + zeros ∧ digits = (trim places digits).2 * 10 ^ zeros := by
  induction places generalizing digits with
  | zero => exact ⟨0, rfl, (Nat.mul_one _).symm⟩
  | succ places hypothesis =>
    rw [trim]
    split
    next zero =>
      obtain ⟨zeros, moved, same⟩ := hypothesis (digits / 10)
      refine ⟨zeros + 1, by omega, ?_⟩
      rw [Nat.pow_succ, ← Nat.mul_assoc, ← same]
      omega
    next => exact ⟨0, rfl, (Nat.mul_one _).symm⟩

/-- Digits within the limit are taken for what they say. -/
theorem nearest_of_short {part : NumberPart} (short : part.digits < 10 ^ digitLimit) {x : Float64}
    (reads : Float64.ofDecimal? part.isNegative part.digits (part.scale part.places) = some x)
    (nonzero : part.isNegative = true → x ≠ 0) : part.nearest = .ok (.float x) := by
  obtain ⟨zeros, moved, same⟩ := trim_shift part.places part.digits
  have smaller : (trim part.places part.digits).2 < 10 ^ digitLimit := by
    have : (trim part.places part.digits).2 * 1 ≤ (trim part.places part.digits).2 * 10 ^ zeros :=
      Nat.mul_le_mul_left _ (Nat.pow_pos (by omega))
    omega
  have whole : part.rounded = trim part.places part.digits := by
    unfold rounded
    dsimp only
    rw [if_pos smaller]
  have exponent : part.scale (trim part.places part.digits).1 = part.scale part.places + zeros := by
    unfold scale
    omega
  have nearest : Float64.ofDecimal? part.isNegative (trim part.places part.digits).2
      (part.scale (trim part.places part.digits).1) = some x := by
    rw [exponent, ← Float64.ofDecimal?_shift, ← same, reads]
  unfold NumberPart.nearest
  rw [whole]
  dsimp only
  rw [nearest]
  dsimp only
  rw [if_neg]
  intro zero
  exact nonzero zero.1 zero.2

end NumberPart

namespace Literal

def ofInt (n : Int) : Literal where
  isNegative := n < 0
  whole := natChars n.natAbs
  fraction := []
  scale := none
  nonempty := Nat.toDigits_ne_nil
  leading := by
    by_cases zero : n.natAbs = 0
    · rw [zero]
      exact Or.inl rfl
    · have leading := digits_leading zero []
      rw [List.append_nil] at leading
      exact Or.inr leading
  wholeNumeric := digits_numeric _
  fractionNumeric := nil_numeric

theorem chars_ofInt (n : Int) : (ofInt n).chars = intChars n := by
  unfold intChars chars
  by_cases below : n < 0
  · simp [ofInt, fractionChars, scaleChars, below]
  · simp [ofInt, fractionChars, scaleChars, below]

theorem number_ofInt (n : Int64) : ∃ number, (ofInt n.toInt).number = .ok number ∧ number.value = .int n := by
  have low := n.le_toInt
  have high := n.toInt_lt
  have digits : ((ofInt n.toInt).part .whole).digits = n.toInt.natAbs := by
    unfold part Literal.digits ofInt
    rw [List.append_nil]
    exact Nat.ofDigitChars_ten_toDigits
  by_cases below : n.toInt < 0
  · refine ⟨_, NumberPart.number_negative rfl (decide_eq_true below) (by omega), ?_⟩
    rw [digits, (by omega : -(n.toInt.natAbs : Int) = n.toInt), Int64.ofInt_toInt]
    rfl
  · refine ⟨_, NumberPart.number_natural rfl (decide_eq_false below) (by omega), ?_⟩
    have range : n.toInt.natAbs < 2 ^ 64 := by omega
    have small : (UInt64.ofNat n.toInt.natAbs).toNat < 2 ^ 63 := by
      rw [UInt64.toNat_ofNat_of_lt' range]
      omega
    rw [digits, Number.value, Value.ofUInt64, if_pos small, UInt64.toInt64_ofNat', ← Int64.ofInt_eq_ofNat,
      (by omega : (n.toInt.natAbs : Int) = n.toInt), Int64.ofInt_toInt]

def exponent (literal : Literal) : Int := (literal.part .whole).scale literal.fraction.length

/-- A literal of the digits of a double, with zeros added behind them or not, gives that double. -/
private theorem number_of_written {literal : Literal} {x : Float64} {d : Decimal} (written : Float64.Written x d)
    (marked : (literal.part .whole).isInteger = false) (sign : literal.isNegative = x.negative) {zeros : Nat}
    (digits : literal.digits = d.coefficient * 10 ^ zeros) (short : literal.digits < 10 ^ NumberPart.digitLimit)
    (exponent : literal.exponent + zeros = d.exponent) : literal.number = .ok (.float x) := by
  have nonzero : x.negative = true → x ≠ 0 := by
    intro below zero
    rw [zero] at below
    cases below
  have reads : Float64.ofDecimal? literal.isNegative literal.digits literal.exponent = some x := by
    rw [digits, Float64.ofDecimal?_shift, exponent, sign, written.reads]
  unfold Literal.number NumberPart.number
  rw [marked, if_neg Bool.false_ne_true]
  apply NumberPart.nearest_of_short short reads
  intro below
  exact nonzero (sign.symm.trans below)

/-- A literal whose point stands behind the first digits, and at its end if those are all. -/
def cutAt (isNegative : Bool) (digits : List Char) (cut : Nat) (scale : Option Scale)
    (inside : 0 < cut) (nonempty : digits ≠ []) (leading : cut = 1 ∨ digits.head? ≠ some '0')
    (numeric : ∀ char ∈ digits, char.isDigit = true) : Literal where
  isNegative := isNegative
  whole := digits.take cut
  fraction := digits.drop cut
  scale := scale
  nonempty := by
    intro none
    rcases List.take_eq_nil_iff.mp none with zero | empty
    · omega
    · exact nonempty empty
  leading := by
    cases digits with
    | nil => exact absurd rfl nonempty
    | cons first rest =>
      obtain ⟨places, rfl⟩ := Nat.exists_eq_succ_of_ne_zero (Nat.ne_of_gt inside)
      rw [List.take_succ_cons, List.head?_cons, List.cons.injEq]
      rcases leading with single | other
      · obtain rfl : places = 0 := by omega
        by_cases zero : first = '0'
        · exact Or.inl ⟨zero, rfl⟩
        · exact Or.inr fun same => zero (Option.some.inj same)
      · exact Or.inr other
  wholeNumeric := fun char member => numeric char (List.mem_of_mem_take member)
  fractionNumeric := fun char member => numeric char (List.mem_of_mem_drop member)

section
variable {x : Float64} {d : Decimal} {digits : List Char} {cut : Nat} {scale : Option Scale} {inside : 0 < cut}
  {nonempty : digits ≠ []} {leading : cut = 1 ∨ digits.head? ≠ some '0'}
  {numeric : ∀ char ∈ digits, char.isDigit = true}

private theorem number_cutAt (written : Float64.Written x d) (zeros : Nat)
    (value : Nat.ofDigitChars 10 digits 0 = d.coefficient * 10 ^ zeros)
    (short : d.coefficient * 10 ^ zeros < 10 ^ NumberPart.digitLimit)
    (marked : cut < digits.length ∨ scale ≠ none)
    (exponent : (cutAt x.negative digits cut scale inside nonempty leading numeric).exponent + zeros = d.exponent) :
    (cutAt x.negative digits cut scale inside nonempty leading numeric).number = .ok (.float x) := by
  have same : (cutAt x.negative digits cut scale inside nonempty leading numeric).digits = d.coefficient * 10 ^ zeros := by
    unfold Literal.digits cutAt
    rw [List.take_append_drop, value]
  apply number_of_written written ?_ rfl same (same ▸ short) exponent
  unfold part cutAt
  dsimp only
  rcases marked with point | mark
  · rw [List.isEmpty_eq_false_iff.mpr (List.drop_eq_nil_iff.not.mpr (Nat.not_le.mpr point)), Bool.false_and]
  · cases scale with
    | none => exact absurd rfl mark
    | some scale => exact Bool.and_false _

private theorem number_cutAt_plain (written : Float64.Written x d) (value : Nat.ofDigitChars 10 digits 0 = d.coefficient)
    (marked : cut < digits.length ∨ scale ≠ none)
    (exponent : (cutAt x.negative digits cut scale inside nonempty leading numeric).exponent = d.exponent) :
    (cutAt x.negative digits cut scale inside nonempty leading numeric).number = .ok (.float x) := by
  apply number_cutAt written 0 ?_ ?_ marked ?_
  · rw [value, Nat.pow_zero, Nat.mul_one]
  · rw [Nat.pow_zero, Nat.mul_one]
    exact written.short
  · rw [exponent, Int.natCast_zero, Int.add_zero]

private theorem exponent_cutAt_none (isNegative : Bool) :
    (cutAt isNegative digits cut none inside nonempty leading numeric).exponent = -((digits.length - cut : Nat) : Int) := by
  unfold exponent NumberPart.scale part cutAt
  simp only [List.length_drop, Option.any_none, Option.map_none, Option.getD_none, Bool.false_eq_true, if_false]
  omega

private theorem exponent_cutAt_some (isNegative : Bool) (scale : Scale) :
    (cutAt isNegative digits cut (some scale) inside nonempty leading numeric).exponent =
      (if scale.sign = some '-' then -(scale.magnitude : Int) else scale.magnitude) - (digits.length - cut : Nat) := by
  unfold exponent NumberPart.scale part cutAt
  simp only [List.length_drop, Option.any_some, Option.map_some, Option.getD_some, decide_eq_true_eq]

private theorem chars_cutAt_none (isNegative : Bool) (fraction : cut < digits.length) :
    (cutAt isNegative digits cut none inside nonempty leading numeric).chars =
      (if isNegative then ['-'] else []) ++ (digits.take cut ++ '.' :: digits.drop cut) := by
  have point : (digits.drop cut).isEmpty = false :=
    List.isEmpty_eq_false_iff.mpr (List.drop_eq_nil_iff.not.mpr (Nat.not_le.mpr fraction))
  unfold chars fractionChars scaleChars cutAt
  dsimp only
  rw [point, if_neg Bool.false_ne_true, List.append_nil, List.append_assoc]

end

/-- A text that is read as one double. With an exponent it has one digit before the point. -/
def Spells (text : List Char) (x : Float64) : Prop :=
  ∃ literal : Literal, literal.chars = text ∧ literal.number = .ok (.float x) ∧
    (literal.scale = none ∨ literal.whole.length = 1)

private theorem e_marks : 'e' = 'e' ∨ 'e' = 'E' := Or.inl rfl

private theorem decimal_nonempty (d : Decimal) : d.digits ≠ [] := Nat.toDigits_ne_nil

private theorem decimal_numeric (d : Decimal) : ∀ char ∈ d.digits, char.isDigit = true := digits_numeric _

private theorem decimal_value (d : Decimal) : Nat.ofDigitChars 10 d.digits 0 = d.coefficient := Nat.ofDigitChars_ten_toDigits

private theorem decimal_leading {d : Decimal} (nonzero : d.coefficient ≠ 0) (more : List Char) :
    (d.digits ++ more).head? ≠ some '0' := digits_leading nonzero more

section
variable {x : Float64} {d : Decimal} (written : Float64.Written x d)
include written

private theorem spells_whole (within : d.leading ≤ 15) (whole : 0 ≤ d.exponent) :
    Spells ((if x.negative then ['-'] else []) ++ (d.digits ++ List.replicate d.exponent.toNat '0' ++ ['.', '0'])) x := by
  have some : 0 < d.digits.length := Nat.length_toDigits_pos
  have all : d.digits ++ List.replicate (d.exponent.toNat + 1) '0' =
      d.digits ++ List.replicate d.exponent.toNat '0' ++ ['0'] := by
    rw [List.replicate_succ', List.append_assoc]
  have length : (d.digits ++ List.replicate (d.exponent.toNat + 1) '0').length = d.digits.length + d.exponent.toNat + 1 := by
    rw [List.length_append, List.length_replicate, Nat.add_assoc]
  have value : Nat.ofDigitChars 10 (d.digits ++ List.replicate (d.exponent.toNat + 1) '0') 0 =
      d.coefficient * 10 ^ (d.exponent.toNat + 1) := by
    rw [Nat.ofDigitChars_append, decimal_value, Nat.ofDigitChars_replicate_zero, Nat.mul_comm]
  have short : d.coefficient * 10 ^ (d.exponent.toNat + 1) < 10 ^ NumberPart.digitLimit := by
    have places : d.digits.length + (d.exponent.toNat + 1) ≤ NumberPart.digitLimit := by
      unfold Decimal.leading at within
      unfold NumberPart.digitLimit
      omega
    calc d.coefficient * 10 ^ (d.exponent.toNat + 1)
      _ < 10 ^ d.digits.length * 10 ^ (d.exponent.toNat + 1) :=
        Nat.mul_lt_mul_of_pos_right (d.coefficient_lt) (Nat.pow_pos (by omega))
      _ = 10 ^ (d.digits.length + (d.exponent.toNat + 1)) := (Nat.pow_add ..).symm
      _ ≤ 10 ^ NumberPart.digitLimit := Nat.pow_le_pow_right (by omega) places
  have first : d.digits.length + d.exponent.toNat = 1 ∨
      (d.digits ++ List.replicate (d.exponent.toNat + 1) '0').head? ≠ Option.some '0' := by
    by_cases zero : d.coefficient = 0
    · left
      rw [Decimal.digits, zero, written.plain zero]
      rfl
    · exact Or.inr (decimal_leading zero _)
  have numeric := numeric_append (decimal_numeric d) (zeros_numeric (d.exponent.toNat + 1))
  refine ⟨cutAt x.negative (d.digits ++ List.replicate (d.exponent.toNat + 1) '0') (d.digits.length + d.exponent.toNat) none
    (by omega) (List.append_ne_nil_of_left_ne_nil (decimal_nonempty d) _) first numeric, ?_,
    number_cutAt written (d.exponent.toNat + 1) value short (Or.inl (by omega)) ?_, Or.inl rfl⟩
  · have behind : (d.digits ++ List.replicate d.exponent.toNat '0').length = d.digits.length + d.exponent.toNat := by
      rw [List.length_append, List.length_replicate]
    rw [chars_cutAt_none _ (by omega), all, List.take_left' behind, List.drop_left' behind]
  · rw [exponent_cutAt_none, length]
    omega

private theorem spells_split (small : d.exponent < 0) (split : (-d.exponent).toNat < d.digits.length) :
    Spells ((if x.negative then ['-'] else []) ++ (d.digits.take (d.digits.length - (-d.exponent).toNat) ++
      '.' :: d.digits.drop (d.digits.length - (-d.exponent).toNat))) x := by
  have nonzero : d.coefficient ≠ 0 := by
    intro zero
    have := written.plain zero
    omega
  have leading := decimal_leading nonzero []
  rw [List.append_nil] at leading
  refine ⟨cutAt x.negative d.digits (d.digits.length - (-d.exponent).toNat) none (by omega) (decimal_nonempty d)
    (Or.inr leading) (decimal_numeric d), chars_cutAt_none _ (by omega),
    number_cutAt_plain written (decimal_value d) (Or.inl (by omega)) ?_, Or.inl rfl⟩
  rw [exponent_cutAt_none]
  omega

private theorem spells_small (beneath : d.digits.length ≤ (-d.exponent).toNat) :
    Spells ((if x.negative then ['-'] else []) ++ ('0' :: '.' ::
      (List.replicate ((-d.exponent).toNat - d.digits.length) '0' ++ d.digits))) x := by
  have some : 0 < d.digits.length := Nat.length_toDigits_pos
  have length : ('0' :: (List.replicate ((-d.exponent).toNat - d.digits.length) '0' ++ d.digits)).length =
      (-d.exponent).toNat + 1 := by
    rw [List.length_cons, List.length_append, List.length_replicate]
    omega
  have value : Nat.ofDigitChars 10 ('0' :: (List.replicate ((-d.exponent).toNat - d.digits.length) '0' ++ d.digits)) 0 =
      d.coefficient := by
    rw [Nat.ofDigitChars_cons, Nat.ofDigitChars_append, Nat.ofDigitChars_replicate_zero, Nat.sub_self, Nat.mul_zero]
    exact decimal_value d
  have numeric := numeric_append (zeros_numeric ((-d.exponent).toNat - d.digits.length + 1)) (decimal_numeric d)
  refine ⟨cutAt x.negative ('0' :: (List.replicate ((-d.exponent).toNat - d.digits.length) '0' ++ d.digits)) 1 none
    (by omega) (List.cons_ne_nil _ _) (Or.inl rfl) numeric, chars_cutAt_none _ (by omega),
    number_cutAt_plain written value (Or.inl (by omega)) ?_, Or.inl rfl⟩
  rw [exponent_cutAt_none, length]
  omega

private def leadingScale (d : Decimal) : Scale where
  mark := 'e'
  sign := some (if d.leading < 0 then '-' else '+')
  digits := Nat.toDigits 10 d.leading.natAbs
  marks := e_marks
  signs := by
    intro char member
    obtain rfl := Option.some.inj member
    split
    · exact Or.inr rfl
    · exact Or.inl rfl
  nonempty := Nat.toDigits_ne_nil
  numeric := digits_numeric _

private theorem spells_scientific :
    Spells ((if x.negative then ['-'] else []) ++ FloatFormat.layScientific d) x := by
  have some : 0 < d.digits.length := Nat.length_toDigits_pos
  refine ⟨cutAt x.negative d.digits 1 (Option.some (leadingScale d)) (by omega) (decimal_nonempty d) (Or.inl rfl)
    (decimal_numeric d), ?_, number_cutAt_plain written (decimal_value d) (Or.inr (Option.some_ne_none _)) ?_,
    Or.inr (List.length_take_of_le some)⟩
  · unfold chars fractionChars scaleChars cutAt FloatFormat.layScientific leadingScale Scale.chars
    dsimp only
    rw [List.append_assoc, List.append_assoc, List.append_assoc]
    rfl
  · have magnitude : (leadingScale d).magnitude = d.leading.natAbs := Nat.ofDigitChars_ten_toDigits
    have sign : (leadingScale d).sign = Option.some '-' ↔ d.leading < 0 := by
      unfold leadingScale
      by_cases below : d.leading < 0
      · simp only [below, if_true]
      · simp only [below, if_false, iff_false]
        decide
    have position : d.leading = d.exponent + d.digits.length - 1 := rfl
    rw [exponent_cutAt_some, magnitude]
    simp only [sign]
    split <;> omega

end

/-- Every double is read back from its own text. -/
theorem spells_float (x : Float64) : Spells (Float64.jsonFormat.chars x) x := by
  have written := Float64.shortest_written Float64.jsonFormat.tie x
  unfold FloatFormat.chars FloatFormat.layPositional
  dsimp only
  generalize x.shortest Float64.jsonFormat.tie = d at written
  by_cases positional : Float64.jsonFormat.positional d.leading = true
  · have within : d.leading ≤ 15 := of_decide_eq_true (Bool.and_eq_true_iff.mp positional).2
    rw [if_pos positional]
    by_cases whole : 0 ≤ d.exponent
    · rw [if_pos whole]
      exact spells_whole written within whole
    · rw [if_neg whole]
      by_cases among : (-d.exponent).toNat < d.digits.length
      · rw [if_pos among]
        exact spells_split written (by omega) among
      · rw [if_neg among]
        exact spells_small written (by omega)
  · rw [if_neg positional]
    exact spells_scientific written

end Literal

end RowAlgebra.Json
