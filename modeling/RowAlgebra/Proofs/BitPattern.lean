import RowAlgebra.Value.Wire

/-! Doubles and their bit patterns. Every double that can be stored has a pattern of its own,
which is neither that of an infinity nor that of a NaN nor that of the negative zero; and every
other pattern is that of a double. So numbers are equal, of one place in the order and of one
pattern all at once. -/

namespace RowAlgebra.Float64

def exponentField (bits : UInt64) : Nat := bits.toNat / 2 ^ 52 % 2 ^ 11

/-- Infinities and NaNs are the patterns with all bits of the exponent set. -/
def IsFinite (bits : UInt64) : Prop := exponentField bits ≠ 2047

instance (bits : UInt64) : Decidable (IsFinite bits) := inferInstanceAs (Decidable (_ ≠ _))

def negativeZero : UInt64 := 0x8000000000000000

/-- The patterns of the doubles that are stored. -/
structure Canonical (bits : UInt64) : Prop where
  finite : IsFinite bits
  unsigned : bits ≠ negativeZero

theorem toNat_negativeZero : negativeZero.toNat = 2 ^ 63 := rfl

theorem isFinite_iff (bits : UInt64) : IsFinite bits ↔ bits.toNat % 2 ^ 63 < rankLimit := by
  have size := bits.toNat_lt
  unfold IsFinite exponentField rankLimit
  omega

theorem toNat_toBits (x : Float64) :
    x.toBits.toNat = if x.rank < 0 then 2 ^ 63 + x.rank.natAbs else x.rank.natAbs := by
  have bounded := x.bounded
  unfold rankLimit at bounded
  unfold toBits
  split
  · exact UInt64.toNat_ofNat_of_lt (show 2 ^ 63 + x.rank.natAbs < 2 ^ 64 by omega)
  · exact UInt64.toNat_ofNat_of_lt (show x.rank.natAbs < 2 ^ 64 by omega)

theorem canonical_toBits (x : Float64) : Canonical x.toBits := by
  have bounded := x.bounded
  have pattern := toNat_toBits x
  constructor
  case finite =>
    rw [isFinite_iff, pattern]
    unfold rankLimit at bounded ⊢
    split <;> omega
  case unsigned =>
    intro same
    rw [same, toNat_negativeZero] at pattern
    unfold rankLimit at bounded
    split at pattern <;> omega

theorem ofBits?_eq_none_iff (bits : UInt64) : ofBits? bits = none ↔ ¬IsFinite bits := by
  rw [isFinite_iff, ofBits?]
  split
  next within => exact iff_of_false nofun (fun beyond => beyond within)
  next beyond => exact iff_of_true rfl beyond

theorem toBits_of_ofBits? {bits : UInt64} {x : Float64} (found : ofBits? bits = some x) :
    x.toBits = if bits = negativeZero then 0 else bits := by
  rw [ofBits?] at found
  split at found
  next within =>
    obtain rfl := Option.some.inj found
    apply UInt64.toNat_inj.mp
    have size := bits.toNat_lt
    have zero : bits = negativeZero ↔ bits.toNat = 2 ^ 63 := by rw [← UInt64.toNat_inj, toNat_negativeZero]
    rw [toNat_toBits, apply_ite UInt64.toNat, UInt64.toNat_zero]
    simp only [zero]
    unfold signed
    split
    next below =>
      have below := of_decide_eq_true below
      dsimp only
      split <;> split <;> omega
    next above =>
      have above := of_decide_eq_false (Bool.eq_false_iff.mpr above)
      dsimp only
      split <;> split <;> omega
  next => cases found

theorem toBits_inj {x y : Float64} : x.toBits = y.toBits ↔ x = y := by
  constructor
  · intro same
    have first := toNat_toBits x
    have second := toNat_toBits y
    have boundedFirst := x.bounded
    have boundedSecond := y.bounded
    rw [same, second] at first
    unfold rankLimit at boundedFirst boundedSecond
    apply ext_rank
    split at first <;> split at first <;> omega
  · exact congrArg toBits

theorem ofBits?_toBits (x : Float64) : ofBits? x.toBits = some x := by
  cases found : ofBits? x.toBits with
  | none => exact absurd (canonical_toBits x).finite ((ofBits?_eq_none_iff _).mp found)
  | some y =>
    have same := toBits_of_ofBits? found
    rw [if_neg (canonical_toBits x).unsigned] at same
    rw [toBits_inj.mp same]

theorem compare_eq_iff {x y : Float64} : compare x y = .eq ↔ x = y := by
  change compare x.rank y.rank = .eq ↔ x = y
  rw [Int.compare_eq_eq]
  exact ⟨ext_rank, congrArg rank⟩

end RowAlgebra.Float64

namespace RowAlgebra.Wire.Double

/-- The double that is stored for one that is offered, if it is finite. -/
def canonical? : Double → Option Float64
  | nan | infinite _ => none
  | negativeZero => some 0
  | finite number => some number

theorem canonical?_ofBits (bits : UInt64) : (ofBits bits).canonical? = Float64.ofBits? bits := by
  unfold ofBits
  cases found : Float64.ofBits? bits with
  | none =>
    dsimp only
    split <;> rfl
  | some x =>
    dsimp only
    split
    next isZero =>
      have same := Float64.toBits_of_ofBits? found
      rw [if_pos (UInt64.toNat_inj.mp isZero)] at same
      exact congrArg some (Float64.toBits_inj.mp same.symm)
    next => rfl

theorem readDouble_eq (double : Double) :
    readDouble double =
      match double.canonical? with
      | some x => .ok (.float x)
      | none => .error .nonFinite := by
  cases double <;> rfl

end RowAlgebra.Wire.Double
