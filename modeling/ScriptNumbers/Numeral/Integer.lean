import ScriptNumbers.Decimal.Basic
import ScriptNumbers.Error

/-! Integer numerals: an optional sign and digits, read from left to right within bounds. Reading stops at
the first problem, so a text with both a foreign character and too many digits is blamed for whichever
comes first. -/

namespace ScriptNumbers.Numeral

/-- An integer checked against bounds. -/
def checkRange (low high value : Int) : Except Reason Int :=
  if value < low then .error .tooSmall else if high < value then .error .tooLarge else .ok value

/-- Appends digits to a value, which grows away from zero. -/
def accumulate (low high : Int) (negative : Bool) (value : Int) : List Char → Except Reason Int
  | [] => .ok value
  | c :: rest =>
    if c.isDigit then
      let digit : Int := Decimal.digitValue c
      match checkRange low high (10 * value + if negative then -digit else digit) with
      | .ok next => accumulate low high negative next rest
      | .error reason => .error reason
    else .error .invalidDigit

/-- The digits behind the sign; there has to be one. -/
def unsigned (low high : Int) (negative : Bool) : List Char → Except Reason Int
  | [] => .error .invalidDigit
  | digits => accumulate low high negative 0 digits

/-- The integer that a whole text denotes. -/
def integer (low high : Int) : List Char → Except Reason Int
  | [] => .error .emptyInteger
  | '+' :: rest => unsigned low high false rest
  | '-' :: rest => unsigned low high true rest
  | text => unsigned low high false text

end ScriptNumbers.Numeral
