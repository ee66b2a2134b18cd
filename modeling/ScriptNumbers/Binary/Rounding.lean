import ScriptNumbers.Binary.Format

/-! Rounding to nearest, ties to even, from exact rationals to the ranks of a format. -/

namespace ScriptNumbers

/-- The integer nearest to a quotient; a half goes to the even neighbour. -/
def roundHalfEven (numerator denominator : Nat) : Nat :=
  let floor := numerator / denominator
  let twice := 2 * (numerator % denominator)
  if twice < denominator ∨ (twice = denominator ∧ floor % 2 = 0) then floor else floor + 1

namespace Format

/-- Rank of the magnitude nearest to `numerator / denominator` units. The leading bit of the quotient
picks the binade, and the quotient is rounded on that binade's grid. A carry into the next binade is
the next rank, so it needs no case of its own. -/
def nearestRank (format : Format) (numerator denominator : Nat) : Nat :=
  let doublings := (numerator / denominator).log2 + 1 - format.precision
  doublings * format.binadeSize + roundHalfEven numerator (denominator * twoPow doublings)

/-- Rank of the magnitude nearest to the absolute value of a rational. -/
def rankOfRat (format : Format) (value : Rat) : Nat :=
  format.nearestRank (value.num.natAbs * format.one) value.den

end Format

end ScriptNumbers
