import ScriptNumbers.Decimal.Basic

/-! The shortest decimal that reads back as a given magnitude, and of the shortest ones the nearest. The
decimals with a fixed number of digits form a grid around the magnitude. If any point of a grid reads
back, then so does one of the two that enclose the magnitude, so grid after grid only those two are
tried. -/

namespace ScriptNumbers

/-- Which of two neighbours is taken when the value lies halfway. -/
inductive Tie where
  | up
  | toEven
deriving DecidableEq, Repr

namespace Decimal

/-- Number of digits of a natural number; zero has one. -/
def length (value : Nat) : Nat := (toDigits value).length

/-- The least `k` with `value < 10 ^ k`, for a positive value. -/
def leadingExponent (value : Rat) : Int :=
  let numerator := value.num.natAbs
  if numerator < value.den then 1 - (length ((value.den - 1) / numerator) : Int)
  else length (numerator / value.den)

/-- The last grid point not above a value, on the grid of spacing `10 ^ exponent`. -/
def floorAt (value : Rat) (exponent : Int) : Nat := (value / (10 : Rat) ^ exponent).floor.toNat

/-- The nearer of two neighbours `lower` and `lower + 1` on a grid. -/
def nearer (tie : Tie) (value : Rat) (lower : Nat) (exponent : Int) : Nat :=
  let twice := value / (10 : Rat) ^ exponent * 2
  match compareOfLessAndEq twice (2 * lower + 1 : Rat) with
  | .lt => lower
  | .gt => lower + 1
  | .eq => match tie with
    | .up => lower + 1
    | .toEven => if lower % 2 = 0 then lower else lower + 1

/-- The better of the two grid points that enclose a magnitude, if one of them reads back. -/
def pick? (format : Format) (tie : Tie) (rank : Nat) (value : Rat) (exponent : Int) : Option Decimal :=
  let lower := floorAt value exponent
  match format.rankOfDecimal ⟨lower, exponent⟩ == rank, format.rankOfDecimal ⟨lower + 1, exponent⟩ == rank with
  | true, true => some ⟨nearer tie value lower exponent, exponent⟩
  | true, false => some ⟨lower, exponent⟩
  | false, true => some ⟨lower + 1, exponent⟩
  | false, false => none

/-- The first hit from a grid on, trying `attempts` finer grids. -/
def search (format : Format) (tie : Tie) (rank : Nat) (value : Rat) : Nat → Int → Decimal
  | 0, exponent => ⟨floorAt value exponent, exponent⟩
  | attempts + 1, exponent =>
    match pick? format tie rank value exponent with
    | some decimal => decimal
    | none => search format tie rank value attempts (exponent - 1)

/-- Drops the trailing zeros of the digits. -/
def strip (decimal : Decimal) : Decimal :=
  if positive : decimal.digits ≠ 0 ∧ decimal.digits % 10 = 0 then
    strip ⟨decimal.digits / 10, decimal.exponent + 1⟩
  else decimal
termination_by decimal.digits
decreasing_by omega

/-- The shortest decimal that reads back as the magnitude of a rank, without trailing zeros. Every
magnitude is a whole number of units, so it is itself a point of the grid of spacing
`10 ^ (-unitBits)`, where the search ends at the latest. -/
def shortest (format : Format) (tie : Tie) (rank : Nat) : Decimal :=
  if rank = 0 then ⟨0, 0⟩
  else
    let value := format.magnitude rank
    let start := leadingExponent value - 1
    (search format tie rank value (start + format.unitBits).toNat start).strip

end Decimal

end ScriptNumbers
