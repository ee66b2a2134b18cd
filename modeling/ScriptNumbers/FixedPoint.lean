import ScriptNumbers.TwoPow

/-! Logarithm and exponential in fixed point: an integer `a` stands for `a / 2 ^ bits`. Every step rounds
down by less than one unit in the last place, so the error of a sum of series terms is at most a few
units per term, and a caller asks for as many spare bits as it needs. -/

namespace ScriptNumbers.FixedPoint

def multiply (bits : Nat) (left right : Int) : Int := left * right / twoPow bits

/-- The terms `power / odd`, `power * square / (odd + 2)`, and so on. -/
def oddSeries (bits : Nat) (square : Int) : Nat → Int → Nat → Int
  | 0, _, _ => 0
  | terms + 1, power, odd =>
    power / odd + oddSeries bits square terms (multiply bits power square) (odd + 2)

/-- Logarithm of a quotient between one half and two, as twice the inverse hyperbolic tangent of
`(numerator - denominator) / (numerator + denominator)`. That ratio is at most a third, so each term
adds more than three bits. -/
def logNearOne (bits numerator denominator : Nat) : Int :=
  let ratio := ((numerator : Int) - denominator) * twoPow bits / ((numerator : Int) + denominator)
  2 * oddSeries bits (multiply bits ratio ratio) (bits / 3 + 2) ratio 1

def logTwo (bits : Nat) : Int := logNearOne bits 2 1

/-- Binary exponent of a positive rational, at most one off. -/
def binaryExponent (value : Rat) : Int := (value.num.natAbs.log2 : Int) - value.den.log2

/-- Logarithm of a positive rational. -/
def log (bits : Nat) (value : Rat) : Int :=
  let exponent := binaryExponent value
  exponent * logTwo bits +
    logNearOne bits (value.num.natAbs * twoPow (-exponent).toNat) (value.den * twoPow exponent.toNat)

/-- The terms `term`, `term * argument / index`, and so on, each from the one before. -/
def exponentialSeries (bits : Nat) (argument : Int) : Nat → Int → Nat → Int
  | 0, _, _ => 0
  | terms + 1, term, index =>
    term + exponentialSeries bits argument terms (multiply bits term argument / index) (index + 1)

/-- The exponential as a fixed-point significand near one and a number of doublings. -/
def exponential (bits : Nat) (argument : Int) : Int × Int :=
  let two := logTwo bits
  let doublings := (2 * argument + two) / (2 * two)
  (exponentialSeries bits (argument - doublings * two) (bits / 4 + 8) (twoPow bits) 1, doublings)

end ScriptNumbers.FixedPoint
