import ScriptNumbers.Binary.Basic

/-! Decimal numbers as digits and a power of ten, and the value of a format nearest to one. -/

namespace ScriptNumbers

/-- The number `digits * 10 ^ exponent`. -/
structure Decimal where
  digits : Nat
  exponent : Int
deriving DecidableEq, Repr

namespace Decimal

def toRat (decimal : Decimal) : Rat := (decimal.digits : Rat) * (10 : Rat) ^ decimal.exponent

/-- Value of a digit character. -/
def digitValue (c : Char) : Nat := c.toNat - '0'.toNat

/-- Value of a run of digit characters. -/
def ofDigits (digits : List Char) : Nat := Nat.ofDigitChars 10 digits 0

/-- The digits of a natural number, with no leading zero. -/
def toDigits (value : Nat) : List Char := Nat.toDigits 10 value

theorem ofDigits_toDigits (value : Nat) : ofDigits (toDigits value) = value := Nat.ofDigitChars_ten_toDigits

theorem isDigit_of_mem_toDigits {value : Nat} {c : Char} (member : c ∈ toDigits value) : c.isDigit :=
  Nat.isDigit_of_mem_toDigits (by decide) (by decide) member

theorem toDigits_ne_nil (value : Nat) : toDigits value ≠ [] := Nat.toDigits_ne_nil

end Decimal

namespace Format

/-- Rank of the magnitude nearest to a decimal. Since ten exceeds two cubed, some decimals are out of range
by their exponent alone, and for those the power of ten is not computed: the others have exponents of
moderate size, whatever their digits. -/
def rankOfDecimal (format : Format) (decimal : Decimal) : Nat :=
  if decimal.digits = 0 then 0
  else if twoPow (format.exponentBits - 1) ≤ 3 * decimal.exponent then format.limit
  else if decimal.digits.log2 + 2 + format.unitBits ≤ -3 * decimal.exponent then 0
  else format.rankOfRat decimal.toRat

end Format

/-- The value with the given sign nearest to a decimal. -/
def Binary.ofDecimal {format : Format} (negative : Bool) (decimal : Decimal) : Binary format :=
  ofRank negative (format.rankOfDecimal decimal)

end ScriptNumbers
