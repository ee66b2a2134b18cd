import ScriptNumbers.Binary.Basic
import ScriptNumbers.FixedPoint

/-! Powers of floating-point values, correctly rounded. A power that is rational and short is computed
exactly. Any other lies off the midpoints between neighbours, so bounds that are narrow enough round
to one value; they are narrowed until they do. -/

namespace ScriptNumbers

/-- The integer square root, rounded down, one binary digit for two of the argument. -/
def floorSqrt (value : Nat) : Nat :=
  if value = 0 then 0
  else
    let root := 2 * floorSqrt (value / 4)
    if (root + 1) * (root + 1) ≤ value then root + 1 else root
termination_by value

/-- The root of order `2 ^ halvings`, if it is an integer. -/
def exactRoot? : Nat → Nat → Option Nat
  | 0, value => some value
  | halvings + 1, value =>
    let root := floorSqrt value
    if root * root = value then exactRoot? halvings root else none

def isPowerOfTwo (value : Nat) : Bool := value == twoPow value.log2

namespace Format

variable (format : Format)

/-- Bound on the binary exponents of finite positive values and of half the least of them. -/
def exponentBound : Nat := twoPow (format.exponentBits + 2)

/-- Whether `base ^ exponent` has a binary exponent beyond `exponentBound`. The binary logarithm of
`base` is at least `|base - 1|` in size between one half and two, and elsewhere at least one and no
further than one from the binary exponent. -/
def powerIsFar (base exponent : Rat) : Bool :=
  let least : Rat :=
    if 1 / 2 < base ∧ base < 2 then (base - 1).abs
    else (max 1 ((FixedPoint.binaryExponent base).natAbs - 1) : Nat)
  format.exponentBound ≤ exponent.abs * least

/-- The power as an exact rational, where it is one and has few digits: the denominator of a dyadic
exponent asks for a square root as often as it has factors of two. -/
def exactPower? (base exponent : Rat) : Option Rat := do
  let numerator ← exactRoot? exponent.den.log2 base.num.natAbs
  let denominator ← exactRoot? exponent.den.log2 base.den
  let short := exponent.num.natAbs ≤ format.precision + 1
  let binary := isPowerOfTwo numerator && isPowerOfTwo denominator
  if short || binary then some (mkRat numerator denominator ^ exponent.num) else none

/-- Rank of a fixed-point significand times a power of two. -/
def rankOfScaled (bits : Nat) (significand : Int) (doublings : Int) : Nat :=
  let shift := doublings + format.unitBits - bits
  format.nearestRank (significand.toNat * twoPow shift.toNat) (twoPow (-shift).toNat)

/-- Spare bits of the working precision. The logarithm is divided by its own size, which is at least
`2 ^ (-precision)`, and multiplied by at most a small multiple of `exponentBound`. -/
def guardBits : Nat := format.precision + format.exponentBits + 32

/-- Rank of `base ^ exponent` by logarithm and exponential, doubling the working precision until the
bounds round to one rank. -/
def powerRank (base exponent : Rat) : Nat → Nat → Nat
  | 0, bits => scaled bits 0
  | attempts + 1, bits =>
    let low := scaled bits (-1)
    let high := scaled bits 1
    if low = high then low else powerRank base exponent attempts (2 * bits)
where
  scaled (bits : Nat) (side : Int) : Nat :=
    let argument := exponent.num * FixedPoint.log bits base / exponent.den
    let (significand, doublings) := FixedPoint.exponential bits argument
    format.rankOfScaled bits (significand + side * twoPow format.guardBits) doublings

/-- Rank of `base ^ exponent` for a positive `base` other than one and an `exponent` other than zero. -/
def rankOfPower (base exponent : Rat) : Nat :=
  if format.powerIsFar base exponent then
    if decide (1 < base) = decide (0 < exponent) then format.limit else 0
  else
    match format.exactPower? base exponent with
    | some power => format.rankOfRat power
    | none => powerRank format base exponent 4 (2 * format.guardBits)

end Format

namespace Binary

variable {format : Format}

/-- Whether the value is an odd integer. Infinities count as even. -/
def isOddInteger : Binary format → Bool
  | .finite _ rank => format.units rank % (2 * format.one) == format.one
  | _ => false

/-- Whether the value is an integer. Infinities count as integers. -/
def isInteger : Binary format → Bool
  | .finite _ rank => format.units rank % format.one == 0
  | .infinity _ => true
  | .nan => false

/-- The power of magnitudes: the base without its sign, and the sign of the result given. -/
def powerOfMagnitude (negative : Bool) (base exponent : Binary format) : Binary format :=
  match base, exponent with
  | .nan, _ | _, .nan => .nan
  | .infinity _, _ => if exponent.isNegative then zero negative else .infinity negative
  | .finite _ rank, .infinity down =>
    match Ord.compare (format.units rank) format.one with
    | .lt => if down then .infinity negative else zero negative
    | .eq => ofRank negative (format.rankOfRat 1)
    | .gt => if down then zero negative else .infinity negative
  | .finite _ rank, .finite down power =>
    if rank.val = 0 then if down then .infinity negative else zero negative
    else if format.units rank = format.one then ofRank negative (format.rankOfRat 1)
    else ofRank negative (format.rankOfPower (format.magnitude rank) (signedMagnitude format down power))

/-- One to any power and any value to the power zero are one, even if the other operand is not a number.
A finite negative base other than zero has powers with integer exponents only, and a power is negative if
the base is and the exponent is odd. -/
def power (base exponent : Binary format) : Binary format :=
  if exponent.isZero || base == one then one
  else if base.isNegative && base.isFinite && !base.isZero && !exponent.isInteger then .nan
  else powerOfMagnitude (base.isNegative && exponent.isOddInteger) base exponent

end Binary

end ScriptNumbers
