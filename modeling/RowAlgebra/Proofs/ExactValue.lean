import Mathlib.Order.Monotone.Basic
import RowAlgebra.Float64.Arithmetic

/-! The exact values of doubles. They grow strictly with the ranks, so comparing ranks is
comparing numbers. -/

namespace RowAlgebra.Float64

theorem unitsPerOne_pos : 0 < unitsPerOne := Nat.pow_pos (by omega)

theorem unitsOfRank_subnormal {rank : Nat} (small : rank < 2 ^ 52) : unitsOfRank rank = rank := by
  rw [unitsOfRank, if_pos (Nat.div_eq_of_lt small)]

theorem unitsOfRank_normal {shift place : Nat} (inside : place < 2 ^ 52) :
    unitsOfRank ((shift + 1) * 2 ^ 52 + place) = (2 ^ 52 + place) * 2 ^ shift := by
  have binade : ((shift + 1) * 2 ^ 52 + place) / 2 ^ 52 = shift + 1 := by omega
  have rest : ((shift + 1) * 2 ^ 52 + place) % 2 ^ 52 = place := by omega
  rw [unitsOfRank, binade, rest, if_neg (Nat.succ_ne_zero _), Nat.add_sub_cancel]

theorem normal_rank {rank : Nat} (large : 2 ^ 52 ≤ rank) :
    ∃ shift place, place < 2 ^ 52 ∧ rank = (shift + 1) * 2 ^ 52 + place :=
  ⟨rank / 2 ^ 52 - 1, rank % 2 ^ 52, by omega, by omega⟩

theorem unitsOfRank_lt_succ (rank : Nat) : unitsOfRank rank < unitsOfRank (rank + 1) := by
  by_cases small : rank < 2 ^ 52
  · rw [unitsOfRank_subnormal small]
    by_cases last : rank + 1 < 2 ^ 52
    · rw [unitsOfRank_subnormal last]
      exact Nat.lt_succ_self rank
    · obtain rfl : rank = 2 ^ 52 - 1 := by omega
      decide
  · obtain ⟨shift, place, inside, rfl⟩ := normal_rank (Nat.le_of_not_lt small)
    rw [unitsOfRank_normal inside]
    by_cases last : place + 1 < 2 ^ 52
    · rw [Nat.add_assoc, unitsOfRank_normal last]
      exact Nat.mul_lt_mul_of_pos_right (by omega) (Nat.pow_pos (by omega))
    · have next : (shift + 1) * 2 ^ 52 + place + 1 = (shift + 1 + 1) * 2 ^ 52 + 0 := by omega
      have double : 2 ^ (shift + 1) = 2 * 2 ^ shift := Nat.pow_succ'
      rw [next, unitsOfRank_normal (by omega), double, ← Nat.mul_assoc]
      exact Nat.mul_lt_mul_of_pos_right (by omega) (Nat.pow_pos (by omega))

theorem unitsOfRank_strictMono : StrictMono unitsOfRank := strictMono_nat_of_lt_succ unitsOfRank_lt_succ

theorem units_lt_iff {x y : Float64} : x.units < y.units ↔ x.rank < y.rank := by
  have positive : ∀ rank, 0 < rank → 0 < unitsOfRank rank := fun rank above =>
    Nat.lt_of_le_of_lt (Nat.zero_le _) (unitsOfRank_strictMono above)
  have forward := unitsOfRank_strictMono.lt_iff_lt (a := x.rank.natAbs) (b := y.rank.natAbs)
  have backward := unitsOfRank_strictMono.lt_iff_lt (a := y.rank.natAbs) (b := x.rank.natAbs)
  have first := positive x.rank.natAbs
  unfold units
  split
  · split
    · omega
    · omega
  · split
    next =>
      have second := positive y.rank.natAbs
      omega
    next => omega

theorem compare_congr {a b c d : Int} (less : a < b ↔ c < d) (greater : b < a ↔ d < c) : compare a b = compare c d := by
  rw [Int.compare_eq_ite_lt, Int.compare_eq_ite_lt]
  simp only [less, greater]

/-- Numeric order is the order of exact values. -/
theorem compare_eq_units (x y : Float64) : compare x y = compare x.units y.units :=
  compare_congr units_lt_iff.symm units_lt_iff.symm

end RowAlgebra.Float64
