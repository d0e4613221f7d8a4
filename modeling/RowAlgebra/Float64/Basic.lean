/-! Finite double-precision numbers with a single zero. A number is kept as its
rank: zero has rank 0, the least positive number rank 1, the next one rank 2, and
negation changes the sign of the rank. Numeric order is then the order of ranks,
and neither a negative zero nor an infinity nor a NaN has a rank. -/

namespace RowAlgebra

/-- Powers of natural numbers are the built-in ones, also where other instances are in scope. -/
@[default_instance 20000]
instance (priority := 20000) naturalPower : Pow Nat Nat := instPowNat

namespace Float64

/-- Ranks stay below the rank at which the infinity would stand. -/
def rankLimit : Nat := 2047 * 2 ^ 52

end Float64

/-- A finite double, by its place in numeric order counted from zero. -/
structure Float64 where
  rank : Int
  bounded : rank.natAbs < Float64.rankLimit
deriving DecidableEq

namespace Float64

instance : Zero Float64 := ⟨⟨0, by decide⟩⟩

instance : Inhabited Float64 := ⟨0⟩

/-- The biased exponent: numbers of binade 0 are zero and the subnormals. -/
def binade (x : Float64) : Nat := x.rank.natAbs / 2 ^ 52

/-- The magnitude counted in least positive doubles, each of which is `2 ^ (-1074)`. -/
def unitsOfRank (rank : Nat) : Nat :=
  if rank / 2 ^ 52 = 0 then rank else (2 ^ 52 + rank % 2 ^ 52) * 2 ^ (rank / 2 ^ 52 - 1)

/-- The exact value, as a count of least positive doubles: the number is
`x.units / 2 ^ 1074`. -/
def units (x : Float64) : Int :=
  if x.rank < 0 then -(unitsOfRank x.rank.natAbs : Int) else unitsOfRank x.rank.natAbs

/-- How many binary places lie behind the point of the least positive double. -/
def unitPlaces : Nat := 1074

def unitsPerOne : Nat := 2 ^ unitPlaces

def negative (x : Float64) : Bool := x.rank < 0

def signed (isNegative : Bool) (rank : Nat) (within : rank < rankLimit) : Float64 :=
  if isNegative then ⟨-rank, by simpa using within⟩ else ⟨rank, by simpa using within⟩

def neg (x : Float64) : Float64 := ⟨-x.rank, by simpa using x.bounded⟩

instance : Neg Float64 := ⟨neg⟩

/-- The interchange encoding: sign bit, then the magnitude of the rank. -/
def toBits (x : Float64) : UInt64 :=
  if x.rank < 0 then UInt64.ofNat (2 ^ 63 + x.rank.natAbs) else UInt64.ofNat x.rank.natAbs

/-- Reads the interchange encoding. Infinities and NaNs are refused, and both zeros
give the one zero. -/
def ofBits? (bits : UInt64) : Option Float64 :=
  let magnitude := bits.toNat % 2 ^ 63
  if within : magnitude < rankLimit then some (signed (2 ^ 63 ≤ bits.toNat) magnitude within) else none

instance : Ord Float64 := ⟨fun x y => compare x.rank y.rank⟩

theorem ext_rank {x y : Float64} (same : x.rank = y.rank) : x = y := by
  cases x; cases y; simp_all

end Float64

end RowAlgebra
