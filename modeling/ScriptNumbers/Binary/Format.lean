import ScriptNumbers.TwoPow

/-! Binary floating-point formats. The magnitudes of a format form one increasing sequence, and the
place of a magnitude in it is its rank: zero has rank 0, the subnormal numbers follow, then the normal
ones binade by binade, and the rank after the last is that of infinity. Written in binary, a rank is
the exponent field followed by the fraction field of the usual encoding. -/

namespace ScriptNumbers

/-- A binary interchange format: the number of significant bits, the leading one included, and the
width of the exponent field. -/
structure Format where
  precision : Nat
  exponentBits : Nat
  two_le_precision : 2 ≤ precision := by decide
  two_le_exponentBits : 2 ≤ exponentBits := by decide
deriving DecidableEq, Repr

namespace Format

def single : Format where
  precision := 24
  exponentBits := 8

def double : Format where
  precision := 53
  exponentBits := 11

variable (format : Format)

def fractionBits : Nat := format.precision - 1

/-- Number of ranks in one binade. -/
def binadeSize : Nat := twoPow format.fractionBits

/-- The least positive magnitude, the unit of all others, is `2 ^ (-unitBits)`. -/
def unitBits : Nat := twoPow (format.exponentBits - 1) + format.precision - 3

/-- One, measured in units. -/
def one : Nat := twoPow format.unitBits

/-- Rank of infinity: the finite magnitudes have the ranks below it. -/
def limit : Nat := (twoPow format.exponentBits - 1) * format.binadeSize

/-- The magnitude of the given rank, in units. Subnormal numbers and the first normal binade are
spaced by one unit; each later binade doubles the spacing. The formula goes on past `limit`, as if
the exponent were unbounded. -/
def units (rank : Nat) : Nat :=
  let doublings := rank / format.binadeSize - 1
  (rank - doublings * format.binadeSize) * twoPow doublings

/-- The magnitude of the given rank. -/
def magnitude (rank : Nat) : Rat := mkRat (format.units rank) format.one

theorem binadeSize_pos : 0 < format.binadeSize := twoPow_pos _

theorem one_pos : 0 < format.one := twoPow_pos _

theorem limit_pos : 0 < format.limit := by
  have exponents : twoPow 2 ≤ twoPow format.exponentBits := twoPow_le format.two_le_exponentBits
  exact Nat.mul_pos (Nat.sub_pos_of_lt (Nat.lt_of_lt_of_le (by decide) exponents)) format.binadeSize_pos

theorem units_zero : format.units 0 = 0 := by simp [units]

end Format

end ScriptNumbers
