import RowAlgebra.Proofs.ExactValue

/-! Rounding to the nearest rank depends on a quotient only through its exact value, and a
quotient that is the value of a rank rounds to that rank. The decimal exponents that are
settled without expanding them are settled as the expansion would be. -/

namespace RowAlgebra

theorem roundQuotient_scale (dividend divisor : Nat) {factor : Nat} (positive : 0 < factor) :
    roundQuotient (dividend * factor) (divisor * factor) = roundQuotient dividend divisor := by
  have quotient : dividend * factor / (divisor * factor) = dividend / divisor := Nat.mul_div_mul_right _ _ positive
  have rest : 2 * (dividend * factor % (divisor * factor)) = 2 * (dividend % divisor) * factor := by
    rw [Nat.mul_mod_mul_right, Nat.mul_assoc]
  unfold roundQuotient
  dsimp only
  rw [quotient, rest]
  simp only [Nat.mul_lt_mul_right positive, Nat.mul_right_cancel_iff positive]

theorem roundQuotient_mul (quotient divisor : Nat) (positive : 0 < divisor) :
    roundQuotient (quotient * divisor) divisor = quotient := by
  unfold roundQuotient
  dsimp only
  rw [Nat.mul_mod_left, Nat.mul_div_cancel _ positive, if_neg (by omega)]

theorem le_roundQuotient (dividend divisor : Nat) : dividend / divisor ≤ roundQuotient dividend divisor := by
  unfold roundQuotient
  dsimp only
  split <;> omega

theorem roundQuotient_eq_zero {dividend divisor : Nat} (small : 2 * dividend < divisor) :
    roundQuotient dividend divisor = 0 := by
  unfold roundQuotient
  dsimp only
  rw [Nat.mod_eq_of_lt (by omega), Nat.div_eq_of_lt (by omega), if_neg (by omega)]

namespace Float64

theorem nearestRank_scale (dividend divisor : Nat) {factor : Nat} (positive : 0 < factor) :
    nearestRank (dividend * factor) (divisor * factor) = nearestRank dividend divisor := by
  unfold nearestRank excess
  dsimp only
  rw [Nat.mul_div_mul_right _ _ positive, Nat.mul_right_comm divisor, roundQuotient_scale _ _ positive]

theorem nearestRank_congr {a b c d : Nat} (first : 0 < b) (second : 0 < d) (same : a * d = c * b) :
    nearestRank a b = nearestRank c d := by
  rw [← nearestRank_scale a b second, same, Nat.mul_comm b d, nearestRank_scale c d first]

theorem nearestRank_eq_zero {dividend divisor : Nat} (small : 2 * dividend < divisor) :
    nearestRank dividend divisor = 0 := by
  have whole : excess 53 dividend divisor = 0 := by
    rw [excess, Nat.div_eq_of_lt (by omega), Nat.log2_zero]
  unfold nearestRank
  dsimp only
  rw [whole, Nat.pow_zero, Nat.mul_one, roundQuotient_eq_zero small, Nat.zero_mul]

/-- The binade of a rounding is not below that of the whole part. -/
theorem le_nearestRank {dividend divisor shift : Nat} (large : 2 ^ (shift + 53) ≤ dividend / divisor) :
    (shift + 2) * 2 ^ 52 ≤ nearestRank dividend divisor := by
  have positive : dividend / divisor ≠ 0 := Nat.ne_of_gt (Nat.lt_of_lt_of_le (Nat.pow_pos (by omega)) large)
  have long : shift + 53 ≤ (dividend / divisor).log2 := (Nat.le_log2 positive).mpr large
  unfold nearestRank
  dsimp only
  generalize found : excess 53 dividend divisor = places
  have enough : (dividend / divisor).log2 = 52 + places := by
    unfold excess at found
    omega
  have top : 2 ^ 52 ≤ dividend / (divisor * 2 ^ places) := by
    rw [← Nat.div_div_eq_div_mul, Nat.le_div_iff_mul_le (Nat.pow_pos (by omega)), ← Nat.pow_add, ← enough]
    exact Nat.log2_self_le positive
  have rounded := le_roundQuotient dividend (divisor * 2 ^ places)
  omega

theorem nearestRank_unitsOfRank (rank : Nat) : nearestRank (unitsOfRank rank) 1 = rank := by
  by_cases small : rank < 2 ^ 52
  · have whole : excess 53 rank 1 = 0 := by
      rw [excess, Nat.div_one]
      rcases Nat.eq_zero_or_pos rank with zero | positive
      · rw [zero, Nat.log2_zero]
      · have short := (Nat.log2_lt (by omega)).mpr small
        omega
    rw [unitsOfRank_subnormal small]
    unfold nearestRank
    dsimp only
    have exactly := roundQuotient_mul rank 1 (by omega)
    rw [Nat.mul_one] at exactly
    rw [whole, Nat.pow_zero, Nat.mul_one, exactly, Nat.zero_mul, Nat.add_zero]
  · obtain ⟨shift, place, inside, rfl⟩ := normal_rank (Nat.le_of_not_lt small)
    have whole : excess 53 ((2 ^ 52 + place) * 2 ^ shift) 1 = shift := by
      have length : ((2 ^ 52 + place) * 2 ^ shift).log2 = 52 + shift := by
        rw [Nat.log2_eq_iff (Nat.mul_ne_zero (by omega) (Nat.ne_of_gt (Nat.pow_pos (by omega))))]
        refine ⟨?_, ?_⟩
        · rw [Nat.pow_add]
          exact Nat.mul_le_mul_right _ (by omega)
        · rw [Nat.add_right_comm, Nat.pow_add]
          exact Nat.mul_lt_mul_of_pos_right (by omega) (Nat.pow_pos (by omega))
      rw [excess, Nat.div_one, length]
      omega
    rw [unitsOfRank_normal inside]
    unfold nearestRank
    dsimp only
    rw [whole, Nat.one_mul, roundQuotient_mul _ _ (Nat.pow_pos (by omega))]
    omega

def ofRank? (isNegative : Bool) (rank : Nat) : Option Float64 :=
  if within : rank < rankLimit then some (signed isNegative rank within) else none

theorem ofRatio?_eq (numerator : Int) (denominator : Nat) :
    ofRatio? numerator denominator =
      ofRank? (numerator < 0) (nearestRank (numerator.natAbs * unitsPerOne) denominator) := rfl

theorem ofRank?_zero (isNegative : Bool) : ofRank? isNegative 0 = some 0 := by
  cases isNegative <;> rfl

theorem ofRank?_self (x : Float64) : ofRank? x.negative x.rank.natAbs = some x := by
  rw [ofRank?, dif_pos x.bounded]
  apply congrArg some
  apply ext_rank
  unfold signed negative
  split
  next below =>
    have := of_decide_eq_true below
    exact (by omega : -(x.rank.natAbs : Int) = x.rank)
  next above =>
    have := of_decide_eq_false (Bool.eq_false_iff.mpr above)
    exact (by omega : (x.rank.natAbs : Int) = x.rank)

theorem natAbs_units (x : Float64) : x.units.natAbs = unitsOfRank x.rank.natAbs := by
  unfold units
  split <;> omega

def decimalRank (coefficient : Nat) (exponent : Int) : Nat :=
  nearestRank (coefficient * 10 ^ exponent.toNat * unitsPerOne) (10 ^ (-exponent).toNat)

theorem decimalRank_zero (exponent : Int) : decimalRank 0 exponent = 0 := by
  unfold decimalRank
  rw [Nat.zero_mul, Nat.zero_mul]
  exact nearestRank_eq_zero (Nat.pow_pos (by omega))

/-- Exponents out of reach overflow, whatever the digits are. -/
private theorem decimalRank_overflow {coefficient : Nat} {exponent : Int} (some : coefficient ≠ 0)
    (beyond : (decimalReach : Int) < exponent) : rankLimit ≤ decimalRank coefficient exponent := by
  have reach : decimalReach ≤ exponent.toNat := by omega
  have whole : (-exponent).toNat = 0 := by omega
  have large : 2 ^ (2045 + 53) ≤ coefficient * 10 ^ exponent.toNat * unitsPerOne := by
    calc 2 ^ (2045 + 53)
      _ ≤ 1 * 10 ^ decimalReach * unitsPerOne := by decide +kernel
      _ ≤ coefficient * 10 ^ exponent.toNat * unitsPerOne :=
        Nat.mul_le_mul_right _ (Nat.mul_le_mul (Nat.one_le_iff_ne_zero.mpr some) (Nat.pow_le_pow_right (by omega) reach))
  unfold decimalRank
  rw [whole, Nat.pow_zero]
  exact le_nearestRank (by rwa [Nat.div_one])

/-- Exponents out of reach vanish, since no coefficient of `b` binary digits reaches `10 ^ b`. -/
private theorem decimalRank_underflow {coefficient : Nat} {exponent : Int}
    (beneath : exponent + (coefficient.log2 + 1 : Nat) < -(decimalReach : Int)) :
    decimalRank coefficient exponent = 0 := by
  have none : exponent.toNat = 0 := by omega
  have reach : coefficient.log2 + 1 + decimalReach ≤ (-exponent).toNat := by omega
  have short : coefficient ≤ 10 ^ (coefficient.log2 + 1) :=
    Nat.le_trans (Nat.le_of_lt Nat.lt_log2_self) (Nat.pow_le_pow_left (by omega) _)
  unfold decimalRank
  rw [none, Nat.pow_zero, Nat.mul_one]
  apply nearestRank_eq_zero
  calc 2 * (coefficient * unitsPerOne)
    _ = coefficient * (2 * unitsPerOne) := Nat.mul_left_comm ..
    _ ≤ 10 ^ (coefficient.log2 + 1) * (2 * unitsPerOne) := Nat.mul_le_mul_right _ short
    _ < 10 ^ (coefficient.log2 + 1) * 10 ^ decimalReach :=
      Nat.mul_lt_mul_of_pos_left (by decide +kernel) (Nat.pow_pos (by omega))
    _ = 10 ^ (coefficient.log2 + 1 + decimalReach) := (Nat.pow_add ..).symm
    _ ≤ 10 ^ (-exponent).toNat := Nat.pow_le_pow_right (by omega) reach

/-- Reading a decimal is rounding it, at every exponent. -/
theorem ofDecimal?_eq (isNegative : Bool) (coefficient : Nat) (exponent : Int) :
    ofDecimal? isNegative coefficient exponent = ofRank? isNegative (decimalRank coefficient exponent) := by
  have sign : coefficient ≠ 0 → ∀ factor, 0 < factor →
      decide ((if isNegative then -((coefficient * factor : Nat) : Int) else (coefficient * factor : Nat)) < 0) = isNegative := by
    intro some factor positive
    have := Nat.mul_pos (Nat.pos_of_ne_zero some) positive
    cases isNegative
    · exact decide_eq_false (by simp only [Bool.false_eq_true, if_false]; omega)
    · exact decide_eq_true (by simp only [if_true]; omega)
  have size : ∀ n : Nat, (if isNegative then -(n : Int) else n).natAbs = n := by
    intro n
    cases isNegative <;> simp
  unfold ofDecimal?
  dsimp only
  split
  next none => rw [none, decimalRank_zero, ofRank?_zero]
  next some =>
    split
    next beyond => rw [ofRank?, dif_neg (Nat.not_lt.mpr (decimalRank_overflow some beyond))]
    next =>
      split
      next beneath => rw [decimalRank_underflow beneath, ofRank?_zero]
      next =>
        split
        next whole =>
          have below : (-exponent).toNat = 0 := by omega
          rw [ofRatio?_eq, size, sign some _ (Nat.pow_pos (by omega)), decimalRank, below, Nat.pow_zero]
        next =>
          have above : exponent.toNat = 0 := by omega
          have signed := sign some 1 (by omega)
          rw [Nat.mul_one] at signed
          rw [ofRatio?_eq, size, signed, decimalRank, above, Nat.pow_zero, Nat.mul_one]

theorem decimalRank_shift (coefficient places : Nat) (exponent : Int) :
    decimalRank (coefficient * 10 ^ places) exponent = decimalRank coefficient (exponent + places) := by
  unfold decimalRank
  apply nearestRank_congr (Nat.pow_pos (by omega)) (Nat.pow_pos (by omega))
  have powers : 10 ^ places * 10 ^ exponent.toNat * 10 ^ (-(exponent + places)).toNat =
      10 ^ (exponent + places).toNat * 10 ^ (-exponent).toNat := by
    rw [← Nat.pow_add, ← Nat.pow_add, ← Nat.pow_add]
    exact congrArg _ (by omega)
  generalize unitsPerOne = units
  calc coefficient * 10 ^ places * 10 ^ exponent.toNat * units * 10 ^ (-(exponent + places)).toNat
    _ = coefficient * units * (10 ^ places * 10 ^ exponent.toNat * 10 ^ (-(exponent + places)).toNat) := by ac_rfl
    _ = coefficient * units * (10 ^ (exponent + places).toNat * 10 ^ (-exponent).toNat) := by rw [powers]
    _ = coefficient * 10 ^ (exponent + places).toNat * units * 10 ^ (-exponent).toNat := by ac_rfl

theorem ofDecimal?_shift (isNegative : Bool) (coefficient places : Nat) (exponent : Int) :
    ofDecimal? isNegative (coefficient * 10 ^ places) exponent = ofDecimal? isNegative coefficient (exponent + places) := by
  rw [ofDecimal?_eq, ofDecimal?_eq, decimalRank_shift]

end Float64

end RowAlgebra
