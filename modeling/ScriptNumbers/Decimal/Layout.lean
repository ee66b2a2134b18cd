import ScriptNumbers.Decimal.Basic

/-! The two ways to write a decimal: positionally, or with one digit before the point and an exponent. -/

namespace ScriptNumbers.Decimal

def zeros (count : Nat) : List Char := List.replicate count '0'

/-- Positional text. Digits that end above the units are padded with zeros, and a point stands only before
a digit. -/
def positional (decimal : Decimal) : List Char :=
  let digits := toDigits decimal.digits
  let point := digits.length + decimal.exponent
  if 0 ≤ decimal.exponent then digits ++ zeros decimal.exponent.toNat
  else if 0 < point then digits.take point.toNat ++ '.' :: digits.drop point.toNat
  else '0' :: '.' :: zeros (-point).toNat ++ digits

/-- Exponent of the leading digit. -/
def scale (decimal : Decimal) : Int := (toDigits decimal.digits).length + decimal.exponent - 1

/-- The digits with a point after the first, unless it is the only one. -/
def mantissa : List Char → List Char
  | first :: second :: rest => first :: '.' :: second :: rest
  | digits => digits

/-- Text with an exponent that always has its sign. -/
def scientific (decimal : Decimal) : List Char :=
  mantissa (toDigits decimal.digits) ++
    'e' :: (if decimal.scale < 0 then '-' else '+') :: toDigits decimal.scale.natAbs

end ScriptNumbers.Decimal
