import Mathlib.Tactic.Linarith
import Mathlib.Tactic.Ring
import RowAlgebra.Proofs.ExactOrder
import RowAlgebra.Proofs.Rounding

/-! Rounding, said of rational numbers: the result is the double nearest to the exact number, and
of two equally near ones the rule for ties tells which. Magnitudes from half-way behind the largest
double on have no nearest double. The rank that a quotient is rounded to is the one that this says,
since ranks between which a magnitude lies have no other double between them. -/

namespace RowAlgebra.Float64

def rational (x : Float64) : ℚ := denoted x.toBits

/-- Half-way between the largest double and the power of two behind it. -/
def overflow : ℚ := 2 ^ 1024 - 2 ^ 970

inductive Halfway where
  /-- It goes to the double whose pattern ends in a zero. -/
  | even
  /-- It goes to the double further from zero. -/
  | away
deriving DecidableEq

def Halfway.Prefers : Halfway → Float64 → Float64 → Prop
  | even, x, _ => x.toBits.toNat % 2 = 0
  | away, x, y => |y.rational| < |x.rational|

/-- No double is nearer to the number, and of those equally near this is the one to be taken. -/
structure Nearest (rule : Halfway) (q : ℚ) (x : Float64) : Prop where
  within : |q| < overflow
  nearest : ∀ y : Float64, |q - x.rational| ≤ |q - y.rational|
  settled : ∀ y : Float64, y ≠ x → |q - x.rational| = |q - y.rational| → rule.Prefers x y

def size (rank : Nat) : ℚ := (unitsOfRank rank : ℚ) / unitsPerOne

private theorem unit_pos : (0 : ℚ) < unitsPerOne := Nat.cast_pos.mpr unitsPerOne_pos

theorem size_strictMono : StrictMono size := by
  intro first second less
  exact div_lt_div_of_pos_right (Nat.cast_lt.mpr (unitsOfRank_strictMono less)) unit_pos

theorem size_nonneg (rank : Nat) : 0 ≤ size rank := div_nonneg (Nat.cast_nonneg _) unit_pos.le

theorem rational_units (x : Float64) : x.rational = x.units / unitsPerOne := denoted_toBits x

theorem rational_eq (x : Float64) :
    x.rational = if x.rank < 0 then -size x.rank.natAbs else size x.rank.natAbs := by
  rw [rational_units, units]
  split
  · rw [Int.cast_neg, Int.cast_natCast, neg_div, size]
  · rw [Int.cast_natCast, size]

theorem rational_lt_iff {x y : Float64} : x.rational < y.rational ↔ x.rank < y.rank := by
  rw [rational_units, rational_units, div_lt_div_iff_of_pos_right unit_pos, Int.cast_lt, units_lt_iff]

theorem rational_neg (x : Float64) : (-x).rational = -x.rational := by
  have size : (-x.rank).natAbs = x.rank.natAbs := Int.natAbs_neg _
  have flipped : (-x).rank = -x.rank := rfl
  rw [rational_eq, rational_eq, flipped, size]
  by_cases zero : x.rank = 0
  · have nothing : Float64.size 0 = 0 := by
      rw [Float64.size, unitsOfRank_subnormal (by decide), Nat.cast_zero, zero_div]
    rw [zero, Int.natAbs_zero, nothing, neg_zero, neg_zero, ite_self, neg_zero]
  · by_cases below : x.rank < 0
    · rw [if_neg (by omega), if_pos below, neg_neg]
    · rw [if_pos (by omega), if_neg below]

theorem parity_toBits (x : Float64) : x.toBits.toNat % 2 = x.rank.natAbs % 2 := by
  rw [toNat_toBits]
  split <;> omega

theorem rational_le_size {x : Float64} {rank : Nat} (upTo : x.rank ≤ rank) : x.rational ≤ size rank := by
  rw [rational_eq]
  split
  · linarith [size_nonneg x.rank.natAbs, size_nonneg rank]
  · exact size_strictMono.monotone (by omega)

theorem rational_lt_size {x : Float64} {rank : Nat} (before : x.rank < rank) : x.rational < size rank := by
  rw [rational_eq]
  split
  next below =>
    have positive : size 0 < size x.rank.natAbs := size_strictMono (by omega)
    linarith [size_nonneg 0, size_nonneg rank]
  · exact size_strictMono (by omega)

theorem size_le_rational {x : Float64} {rank : Nat} (onward : (rank : Int) ≤ x.rank) : size rank ≤ x.rational := by
  rw [rational_eq, if_neg (by omega)]
  exact size_strictMono.monotone (by omega)

theorem size_lt_rational {x : Float64} {rank : Nat} (behind : (rank : Int) < x.rank) : size rank < x.rational := by
  rw [rational_eq, if_neg (by omega)]
  exact size_strictMono (by omega)

/-- Two doubles that end in a zero have another double between them. -/
theorem exists_between {x y : Float64} (less : x.rank < y.rank) (first : x.toBits.toNat % 2 = 0)
    (second : y.toBits.toNat % 2 = 0) : ∃ z : Float64, x.rational < z.rational ∧ z.rational < y.rational := by
  rw [parity_toBits] at first second
  have boundedFirst := x.bounded
  have boundedSecond := y.bounded
  refine ⟨⟨x.rank + 1, by omega⟩, rational_lt_iff.mpr ?_, rational_lt_iff.mpr ?_⟩
  · exact Int.lt_succ x.rank
  · change x.rank + 1 < y.rank
    omega

private theorem nearer_between {q x y z : ℚ} (same : |q - x| = |q - y|) (above : x < z) (below : z < y) :
    |q - z| < |q - x| := by
  have middle : q - x = y - q := by
    rcases abs_eq_abs.mp same with equal | opposite
    · linarith
    · linarith
  have distance : |q - x| = y - q := by
    rw [middle]
    exact abs_of_pos (by linarith)
  rw [distance, abs_lt]
  constructor
  · linarith
  · linarith

theorem Nearest.unique {rule : Halfway} {q : ℚ} {x y : Float64} (first : Nearest rule q x) (second : Nearest rule q y) :
    x = y := by
  by_contra different
  have same : |q - x.rational| = |q - y.rational| := le_antisymm (first.nearest y) (second.nearest x)
  have winner := first.settled y (Ne.symm different) same
  have other := second.settled x different same.symm
  cases rule with
  | even =>
    have apart : x.rank ≠ y.rank := fun level => different (ext_rank level)
    rcases Int.lt_or_gt_of_ne apart with less | greater
    · obtain ⟨z, above, below⟩ := exists_between less winner other
      exact not_lt.mpr (first.nearest z) (nearer_between same above below)
    · obtain ⟨z, above, below⟩ := exists_between greater other winner
      exact not_lt.mpr (second.nearest z) (nearer_between same.symm above below)
  | away => exact lt_asymm winner other

theorem Nearest.neg {rule : Halfway} {q : ℚ} {x : Float64} (nearest : Nearest rule q x) : Nearest rule (-q) (-x) := by
  have mirrored : ∀ y : Float64, |-q - y.rational| = |q - (-y).rational| := by
    intro y
    rw [rational_neg, ← abs_neg]
    congr 1
    ring
  have back : ∀ y : Float64, - -y = y := fun y => ext_rank (Int.neg_neg _)
  constructor
  case within => rw [abs_neg]; exact nearest.within
  case nearest =>
    intro y
    rw [mirrored, mirrored, back]
    exact nearest.nearest (-y)
  case settled =>
    intro y different same
    rw [mirrored, mirrored, back] at same
    have other : -y ≠ x := fun equal => different (by rw [← equal, back])
    have wins := nearest.settled (-y) other same
    cases rule with
    | even =>
      rw [Halfway.Prefers, parity_toBits] at wins ⊢
      change (-x.rank).natAbs % 2 = 0
      rwa [Int.natAbs_neg]
    | away =>
      rw [Halfway.Prefers, rational_neg, abs_neg] at wins ⊢
      exact wins

/-- The rank that a magnitude is rounded to, told by the last rank that is not beyond it. -/
def Rounds (rule : Halfway) (q : ℚ) (rank : Nat) : Prop :=
  ∃ low, size low ≤ q ∧ q < size (low + 1) ∧
    rank = if 2 * q < size low + size (low + 1) ∨ (2 * q = size low + size (low + 1) ∧ rule = .even ∧ low % 2 = 0)
      then low else low + 1

theorem unitsOfRank_binade (quotient shift : Nat) (lower : shift = 0 ∨ 2 ^ 52 ≤ quotient) (upper : quotient ≤ 2 ^ 53) :
    unitsOfRank (quotient + shift * 2 ^ 52) = quotient * 2 ^ shift := by
  by_cases small : quotient < 2 ^ 52
  · obtain rfl := lower.resolve_right (by omega)
    rw [Nat.zero_mul, Nat.add_zero, unitsOfRank_subnormal small, Nat.pow_zero, Nat.mul_one]
  · by_cases last : quotient = 2 ^ 53
    · have next : quotient + shift * 2 ^ 52 = (shift + 1 + 1) * 2 ^ 52 + 0 := by omega
      rw [next, unitsOfRank_normal (by omega), last, Nat.add_zero, ← Nat.pow_add, ← Nat.pow_add]
      exact congrArg _ (by omega)
    · obtain ⟨place, rfl⟩ := Nat.exists_eq_add_of_le (Nat.le_of_not_lt small)
      have same : 2 ^ 52 + place + shift * 2 ^ 52 = (shift + 1) * 2 ^ 52 + place := by omega
      rw [same, unitsOfRank_normal (by omega)]

/-- A quotient shortened by its excess has 53 digits at most, and as many if anything was cut off. -/
theorem shortened_bounds (dividend divisor : Nat) :
    dividend / (divisor * 2 ^ excess 53 dividend divisor) < 2 ^ 53 ∧
      (excess 53 dividend divisor = 0 ∨ 2 ^ 52 ≤ dividend / (divisor * 2 ^ excess 53 dividend divisor)) := by
  rw [← Nat.div_div_eq_div_mul, excess]
  generalize dividend / divisor = whole
  constructor
  · apply Nat.div_lt_of_lt_mul
    rw [← Nat.pow_add]
    exact Nat.lt_of_lt_of_le Nat.lt_log2_self (Nat.pow_le_pow_right (by omega) (by omega))
  · by_cases short : whole.log2 + 1 - 53 = 0
    · exact .inl short
    · right
      have nonzero : whole ≠ 0 := by
        rintro rfl
        exact short (by decide)
      rw [Nat.le_div_iff_mul_le (Nat.pow_pos (by omega)), ← Nat.pow_add]
      exact Nat.le_trans (Nat.pow_le_pow_right (by omega) (by omega)) (Nat.log2_self_le nonzero)

theorem nearestRank_cases (dividend : Nat) {divisor : Nat} (defined : 0 < divisor) :
    ∃ low, unitsOfRank low * divisor ≤ dividend ∧ dividend < unitsOfRank (low + 1) * divisor ∧
      nearestRank dividend divisor =
        if 2 * dividend < (unitsOfRank low + unitsOfRank (low + 1)) * divisor ∨
            (2 * dividend = (unitsOfRank low + unitsOfRank (low + 1)) * divisor ∧ low % 2 = 0)
        then low else low + 1 := by
  obtain ⟨upper, lower⟩ := shortened_bounds dividend divisor
  unfold nearestRank
  dsimp only
  generalize excess 53 dividend divisor = shift at upper lower ⊢
  generalize step_eq : divisor * 2 ^ shift = step at upper lower ⊢
  have positive : 0 < step := step_eq ▸ Nat.mul_pos defined (Nat.pow_pos (by omega))
  unfold roundQuotient
  dsimp only
  have parts := Nat.div_add_mod dividend step
  have rest := Nat.mod_lt dividend positive
  generalize dividend / step = quotient at upper lower parts ⊢
  generalize dividend % step = rest at parts rest ⊢
  have first : unitsOfRank (quotient + shift * 2 ^ 52) * divisor = step * quotient := by
    rw [unitsOfRank_binade _ _ lower (by omega), Nat.mul_assoc, Nat.mul_comm (2 ^ shift), step_eq, Nat.mul_comm]
  have second : unitsOfRank (quotient + shift * 2 ^ 52 + 1) * divisor = step * quotient + step := by
    rw [Nat.add_right_comm, unitsOfRank_binade _ _ (lower.imp_right (by omega)) (by omega), Nat.mul_assoc,
      Nat.mul_comm (2 ^ shift), step_eq, Nat.mul_comm, Nat.mul_succ]
  refine ⟨quotient + shift * 2 ^ 52, by omega, by omega, ?_⟩
  rw [Nat.add_mul, first, second]
  generalize step * quotient = below at parts ⊢
  split <;> split <;> omega

/-- The rank of a quotient is that of the nearest double, if there were doubles of every rank. -/
theorem nearestRank_rounds (dividend : Nat) {divisor : Nat} (defined : 0 < divisor) :
    Rounds .even ((dividend : ℚ) / divisor / unitsPerOne) (nearestRank dividend divisor) := by
  obtain ⟨low, below, above, found⟩ := nearestRank_cases dividend defined
  have positive : (0 : ℚ) < divisor := Nat.cast_pos.mpr defined
  have unit := unit_pos
  have exact : (dividend : ℚ) = dividend / divisor * divisor := (div_mul_cancel₀ _ positive.ne').symm
  have scaled : ∀ n : Nat, (n : ℚ) = n / unitsPerOne * unitsPerOne := fun n => (div_mul_cancel₀ _ unit.ne').symm
  refine ⟨low, ?_, ?_, ?_⟩
  · rw [size, div_le_div_iff_of_pos_right unit, le_div_iff₀ positive]
    exact_mod_cast below
  · rw [size, div_lt_div_iff_of_pos_right unit, div_lt_iff₀ positive]
    exact_mod_cast above
  · have compared : ∀ middle : Nat,
        (2 * dividend < middle * divisor ↔ 2 * ((dividend : ℚ) / divisor / unitsPerOne) < middle / unitsPerOne) ∧
        (2 * dividend = middle * divisor ↔ 2 * ((dividend : ℚ) / divisor / unitsPerOne) = middle / unitsPerOne) := by
      intro middle
      rw [← mul_div_assoc, ← mul_div_assoc, div_lt_div_iff_of_pos_right unit, div_left_inj' unit.ne', div_lt_iff₀ positive,
        div_eq_iff positive.ne']
      exact ⟨by exact_mod_cast Iff.rfl, by exact_mod_cast Iff.rfl⟩
    have sum : size low + size (low + 1) = ((unitsOfRank low + unitsOfRank (low + 1) : Nat) : ℚ) / unitsPerOne := by
      rw [size, size, ← add_div, Nat.cast_add]
    rw [found, sum]
    simp only [compared, true_and]

theorem rational_signed {rank : Nat} (within : rank < rankLimit) : (signed false rank within).rational = size rank := by
  have ranked : (signed false rank within).rank = rank := rfl
  rw [rational_eq, ranked, if_neg (by omega), Int.natAbs_natCast]

theorem parity_signed {rank : Nat} (within : rank < rankLimit) :
    (signed false rank within).toBits.toNat % 2 = rank % 2 := by
  have ranked : (signed false rank within).rank = rank := rfl
  rw [parity_toBits, ranked, Int.natAbs_natCast]

section
variable {rule : Halfway} {q : ℚ} {low : Nat} (below : size low ≤ q) (above : q < size (low + 1))

private theorem distance_lower (below : size low ≤ q) {y : Float64} (upTo : y.rank ≤ low) :
    |q - y.rational| = q - y.rational :=
  abs_of_nonneg (by linarith [rational_le_size upTo])

private theorem distance_upper (above : q < size (low + 1)) {y : Float64} (onward : ((low + 1 : Nat) : Int) ≤ y.rank) :
    |q - y.rational| = y.rational - q := by
  rw [abs_sub_comm]
  exact abs_of_nonneg (by linarith [size_le_rational onward])

private theorem sides (low : Nat) (y : Float64) : y.rank ≤ low ∨ ((low + 1 : Nat) : Int) ≤ y.rank := by omega

include below above

/-- What lies up to the lower rank is no nearer than that, nor is what lies from the upper rank on
nearer than the upper rank. -/
private theorem nearest_lower (within : low < rankLimit) (small : q < overflow)
    (half : 2 * q ≤ size low + size (low + 1))
    (even : 2 * q = size low + size (low + 1) → rule = .even ∧ low % 2 = 0) : Nearest rule q (signed false low within) := by
  have distance := distance_lower below (y := signed false low within) (le_refl (low : Int))
  rw [rational_signed] at distance
  constructor
  case within => rwa [abs_of_nonneg (le_trans (size_nonneg low) below)]
  case nearest =>
    intro y
    rw [rational_signed, distance]
    rcases sides low y with upTo | onward
    · rw [distance_lower below upTo]
      linarith [rational_le_size upTo]
    · rw [distance_upper above onward]
      linarith [size_le_rational onward]
  case settled =>
    intro y different same
    rw [rational_signed, distance] at same
    rcases lt_trichotomy y.rank low with before | level | behind
    · rw [distance_lower below before.le] at same
      linarith [rational_lt_size before]
    · exact absurd (ext_rank level) different
    · have onward : ((low + 1 : Nat) : Int) ≤ y.rank := behind
      rw [distance_upper above onward] at same
      obtain ⟨rfl, zero⟩ := even (by linarith [size_le_rational onward])
      exact (parity_signed within).trans zero

private theorem nearest_upper (within : low + 1 < rankLimit) (small : q < overflow)
    (half : size low + size (low + 1) ≤ 2 * q)
    (odd : 2 * q = size low + size (low + 1) → rule = .even → low % 2 = 1) :
    Nearest rule q (signed false (low + 1) within) := by
  have distance := distance_upper above (y := signed false (low + 1) within) (le_refl ((low + 1 : Nat) : Int))
  rw [rational_signed] at distance
  constructor
  case within => rwa [abs_of_nonneg (le_trans (size_nonneg low) below)]
  case nearest =>
    intro y
    rw [rational_signed, distance]
    rcases sides low y with upTo | onward
    · rw [distance_lower below upTo]
      linarith [rational_le_size upTo]
    · rw [distance_upper above onward]
      linarith [size_le_rational onward]
  case settled =>
    intro y different same
    rw [rational_signed, distance] at same
    rcases lt_trichotomy y.rank ((low + 1 : Nat) : Int) with before | level | behind
    · have upTo : y.rank ≤ low := by omega
      rw [distance_lower below upTo] at same
      have tie : 2 * q = size low + size (low + 1) := by linarith [rational_le_size upTo]
      cases rule with
      | even =>
        have last := odd tie rfl
        exact (parity_signed within).trans (by omega)
      | away =>
        have lower : y.rational = size low := by linarith
        rw [Halfway.Prefers, rational_signed, lower, abs_of_nonneg (size_nonneg _), abs_of_nonneg (size_nonneg _)]
        exact size_strictMono (Nat.lt_succ_self low)
    · exact absurd (ext_rank level) different
    · rw [distance_upper above behind.le] at same
      linarith [size_lt_rational behind]

end

private theorem size_rankLimit : size rankLimit = 2 ^ 1024 := by
  have ranked : rankLimit = (2046 + 1) * 2 ^ 52 + 0 := rfl
  rw [size, ranked, unitsOfRank_normal (by omega), unitsPerOne, unitPlaces, div_eq_iff (by positivity), Nat.add_zero,
    Nat.cast_mul, Nat.cast_pow, Nat.cast_pow, Nat.cast_pow, Nat.cast_ofNat, ← pow_add, ← pow_add]

private theorem size_largest : size (rankLimit - 1) = 2 ^ 1024 - 2 ^ 971 := by
  have ranked : rankLimit - 1 = (2045 + 1) * 2 ^ 52 + (2 ^ 52 - 1) := rfl
  have leading : ((2 ^ 52 + (2 ^ 52 - 1) : Nat) : ℚ) = 2 ^ 53 - 1 := by norm_num
  rw [size, ranked, unitsOfRank_normal (by omega), unitsPerOne, unitPlaces, div_eq_iff (by positivity), Nat.cast_mul, leading,
    Nat.cast_pow, Nat.cast_pow, Nat.cast_ofNat, sub_mul, sub_mul, ← pow_add, ← pow_add, ← pow_add, one_mul]

private theorem overflow_middle : size (rankLimit - 1) + size rankLimit = 2 * overflow ∧
    size (rankLimit - 1) < overflow ∧ overflow < size rankLimit := by
  have whole : (2 : ℚ) ^ 1024 = 2 ^ 54 * 2 ^ 970 := by rw [← pow_add]
  have step : (2 : ℚ) ^ 971 = 2 * 2 ^ 970 := by rw [← pow_succ']
  have positive : (0 : ℚ) < 2 ^ 970 := by positivity
  rw [size_largest, size_rankLimit, overflow, whole, step]
  generalize (2 : ℚ) ^ 970 = unit at positive
  refine ⟨by ring, by linarith, by linarith⟩

section
variable {rule : Halfway} {q : ℚ} {rank : Nat} (rounds : Rounds rule q rank)
include rounds

theorem Rounds.nonneg : 0 ≤ q := by
  obtain ⟨low, below, -, -⟩ := rounds
  exact le_trans (size_nonneg low) below

/-- The first rank without a double is that of half-way behind the largest double, which has an odd rank. -/
theorem Rounds.lt_rankLimit_iff : rank < rankLimit ↔ q < overflow := by
  obtain ⟨low, below, above, rfl⟩ := rounds
  obtain ⟨middle, largest, beyond⟩ := overflow_middle
  rcases Nat.lt_trichotomy (low + 1) rankLimit with inside | last | outside
  · have within : size (low + 1) ≤ size (rankLimit - 1) := size_strictMono.monotone (by omega)
    refine iff_of_true ?_ (by linarith)
    split <;> omega
  · have odd : low % 2 = 1 := by
      unfold rankLimit at last
      omega
    have top : low = rankLimit - 1 := by omega
    rw [last, top, middle, ← top, odd]
    split
    next before => exact iff_of_true (by omega) (by simpa using before)
    next behind => exact iff_of_false (by omega) (by simpa using behind)
  · have outside : size rankLimit ≤ size low := size_strictMono.monotone (by omega)
    refine iff_of_false ?_ (by linarith)
    split <;> omega

theorem Rounds.nearest (within : rank < rankLimit) : Nearest rule q (signed false rank within) := by
  have small := rounds.lt_rankLimit_iff.mp within
  obtain ⟨low, below, above, found⟩ := rounds
  split at found
  next nearer =>
    subst found
    refine nearest_lower below above within small (nearer.elim le_of_lt fun tie => tie.1.le) ?_
    intro tie
    exact (nearer.resolve_left (by linarith)).2
  next farther =>
    subst found
    refine nearest_upper below above within small (not_lt.mp fun less => farther (.inl less)) ?_
    intro tie even
    have odd : low % 2 ≠ 0 := fun zero => farther (.inr ⟨tie, even, zero⟩)
    omega

end

/-- An answer is the nearest double, and there is none exactly from the bound on. -/
structure IsRounding (rule : Halfway) (q : ℚ) (answer : Option Float64) : Prop where
  some_iff : ∀ x, answer = some x ↔ Nearest rule q x
  none_iff : answer = none ↔ overflow ≤ |q|

theorem isRounding_none (rule : Halfway) {q : ℚ} (large : overflow ≤ |q|) : IsRounding rule q none :=
  ⟨fun _ => iff_of_false nofun fun nearest => not_lt.mpr large nearest.within, iff_of_true rfl large⟩

theorem isRounding_some {rule : Halfway} {q : ℚ} {x : Float64} (nearest : Nearest rule q x) : IsRounding rule q (some x) := by
  constructor
  case some_iff =>
    intro y
    rw [Option.some.injEq]
    exact ⟨fun same => same ▸ nearest, nearest.unique⟩
  case none_iff => exact iff_of_false nofun (not_le.mpr nearest.within)

theorem abs_signed (isNegative : Bool) (q : ℚ) : |if isNegative then -q else q| = |q| := by
  cases isNegative
  · rfl
  · exact abs_neg q

theorem ofRank?_isRounding {rule : Halfway} {q : ℚ} {rank : Nat} (rounds : Rounds rule q rank) (isNegative : Bool) :
    IsRounding rule (if isNegative then -q else q) (ofRank? isNegative rank) := by
  by_cases within : rank < rankLimit
  · rw [ofRank?, dif_pos within]
    cases isNegative
    · exact isRounding_some (rounds.nearest within)
    · exact isRounding_some (rounds.nearest within).neg
  · rw [ofRank?, dif_neg within]
    apply isRounding_none
    rw [abs_signed, abs_of_nonneg rounds.nonneg]
    exact not_lt.mp fun small => within (rounds.lt_rankLimit_iff.mpr small)

theorem ofRatio?_isRounding (numerator : Int) {denominator : Nat} (defined : 0 < denominator) :
    IsRounding .even ((numerator : ℚ) / denominator) (ofRatio? numerator denominator) := by
  have rounds := nearestRank_rounds (numerator.natAbs * unitsPerOne) defined
  have exact : ((numerator.natAbs * unitsPerOne : Nat) : ℚ) / denominator / unitsPerOne = numerator.natAbs / denominator := by
    rw [Nat.cast_mul, mul_div_right_comm, mul_div_assoc, div_self unit_pos.ne', mul_one]
  rw [exact] at rounds
  have rounding := ofRank?_isRounding rounds (numerator < 0)
  rw [ofRatio?_eq]
  convert rounding using 1
  by_cases below : numerator < 0
  · have size : (numerator : ℚ) = -(numerator.natAbs : ℚ) := by
      rw [← Int.cast_natCast, ← Int.cast_neg]
      exact congrArg _ (by omega)
    rw [decide_eq_true below, if_pos rfl, size, neg_div]
  · have size : (numerator : ℚ) = (numerator.natAbs : ℚ) := by
      rw [← Int.cast_natCast]
      exact congrArg _ (by omega)
    rw [decide_eq_false below, size, if_neg Bool.false_ne_true]

theorem ofInt_nearest (n : Int) (small : n.natAbs < 2 ^ 64) : Nearest .even n (ofInt n small) := by
  have rounding := ofRatio?_isRounding n Nat.one_pos
  rw [Nat.cast_one, div_one] at rounding
  exact (rounding.some_iff _).mp (dif_pos (nearestRank_lt_rankLimit small))

theorem ofInt64_nearest (n : Int64) : Nearest .even n.toInt (ofInt64 n) := ofInt_nearest _ _

theorem ofUInt64_nearest (n : UInt64) : Nearest .even n.toNat (ofUInt64 n) := by
  rw [← Int.cast_natCast]
  exact ofInt_nearest _ _

theorem decimalRank_rounds (coefficient : Nat) (exponent : Int) :
    Rounds .even (coefficient * 10 ^ exponent) (decimalRank coefficient exponent) := by
  have defined : 0 < 10 ^ (-exponent).toNat := Nat.pow_pos (by decide)
  have power : (10 : ℚ) ^ exponent = 10 ^ exponent.toNat / 10 ^ (-exponent).toNat := by
    rw [← zpow_natCast, ← zpow_natCast, ← zpow_sub₀ (by norm_num)]
    exact congrArg _ (by omega)
  have exact : (coefficient * 10 ^ exponent : ℚ) =
      (coefficient * 10 ^ exponent.toNat * unitsPerOne : Nat) / (10 ^ (-exponent).toNat : Nat) / unitsPerOne := by
    rw [power, Nat.cast_mul, mul_div_right_comm _ (unitsPerOne : ℚ), mul_div_assoc _ (unitsPerOne : ℚ), div_self unit_pos.ne',
      mul_one, Nat.cast_mul, Nat.cast_pow, Nat.cast_pow, Nat.cast_ofNat, mul_div_assoc]
  rw [exact]
  exact nearestRank_rounds _ defined

end RowAlgebra.Float64
