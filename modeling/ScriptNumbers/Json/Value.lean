import ScriptNumbers.Binary.Arithmetic
import ScriptNumbers.Json.Fault
import ScriptNumbers.Json.Token

/-! What a number of a text is read as. An integer that fits a word keeps its value. Any other number is cut
to as many digits as a word holds, and those are scaled by a power of ten in double arithmetic. Each step
may round, so the result can be a neighbour of the nearest double. -/

namespace ScriptNumbers.Json

/-- Integers that fit a signed or an unsigned 64-bit word stay integers. All others become doubles, and so
does a zero with a sign, which an integer could not keep. -/
inductive Value where
  | integer (value : Int)
  | floating (value : Double)
deriving DecidableEq

/-- Appends digits to a word up to the first that it cannot hold, and leaves the digits from there on. -/
def appendDigits (word : Nat) : List Char → Nat × List Char
  | [] => (word, [])
  | c :: rest =>
    let next := 10 * word + Decimal.digitValue c
    if next < UInt64.size then appendDigits next rest else (word, c :: rest)

/-- Exponent of the largest power of ten that is a double. -/
def largestTens : Nat := 308

def powerOfTen (exponent : Nat) : Double := .ofDecimal false ⟨1, exponent⟩

/-- Divides by the largest power of ten as often as told, or until nothing is left. -/
def divideByLargest (value : Double) : Nat → Double
  | 0 => value
  | times + 1 =>
    if value.isZero then value else divideByLargest (value.divide (powerOfTen largestTens)) times

/-- A decimal in double arithmetic: its digits are rounded, then multiplied or divided by the power of ten.
An exponent far below zero takes several divisors, all but the last of them the largest power. One above
that of the largest power has no factor, and only zero stays finite. -/
def scale (decimal : Decimal) : Double :=
  let digits : Double := .ofInt decimal.digits
  match decimal.exponent with
  | .ofNat tens =>
    if tens ≤ largestTens then digits.multiply (powerOfTen tens)
    else if digits.isZero then digits else .infinity false
  | .negSucc tens =>
    (divideByLargest digits (tens / largestTens)).divide (powerOfTen (tens % largestTens + 1))

namespace NumberToken

/-- The digits that a word holds and their power of ten, without the sign. Digits before the point that the
word cannot hold count as zeros, and those behind the point are dropped. -/
def leading (token : NumberToken) : Decimal :=
  let fraction := token.mantissa.fraction.getD []
  let (word, zeros) := appendDigits 0 token.mantissa.whole
  let (word, dropped) := appendDigits word fraction
  let exponent := (token.exponent.map (·.toInt)).getD 0
  ⟨word, exponent + zeros.length + dropped.length - fraction.length⟩

/-- The token as a double, as long as it is finite. -/
def floating (token : NumberToken) : Except Fault Value :=
  match scale token.leading with
  | .infinity _ => .error .malformed
  | value => .ok (.floating (if token.negative then value.negate else value))

def isInteger (token : NumberToken) : Bool := token.mantissa.fraction.isNone && token.exponent.isNone

def value (token : NumberToken) : Except Fault Value :=
  let magnitude := Decimal.ofDigits token.mantissa.whole
  if token.isInteger && !token.negative && magnitude < UInt64.size then .ok (.integer magnitude)
  else if token.isInteger && token.negative && 0 < magnitude && Int64.minValue.toInt ≤ -magnitude then
    .ok (.integer (-magnitude))
  else token.floating

end NumberToken

end ScriptNumbers.Json
