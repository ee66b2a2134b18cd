import ScriptNumbers.Error

/-! Hexadecimal numerals: digits in either case, read from left to right below a bound. As with other numerals, the first
problem ends the reading. -/

namespace ScriptNumbers.Numeral

def hexDigit? (c : Char) : Option Nat :=
  if c.isDigit then some (c.toNat - '0'.toNat)
  else if 'a' ≤ c ∧ c ≤ 'f' then some (c.toNat - 'a'.toNat + 10)
  else if 'A' ≤ c ∧ c ≤ 'F' then some (c.toNat - 'A'.toNat + 10)
  else none

/-- Appends digits to a value, which stays below a size. -/
def accumulateHex (size value : Nat) : List Char → Except Reason Nat
  | [] => .ok value
  | c :: rest =>
    match hexDigit? c with
    | none => .error .invalidDigit
    | some digit =>
      if 16 * value + digit < size then accumulateHex size (16 * value + digit) rest else .error .tooLarge

/-- The digits behind the sign; there has to be one. -/
def unsignedHex (size : Nat) : List Char → Except Reason Nat
  | [] => .error .invalidDigit
  | digits => accumulateHex size 0 digits

/-- The natural number that a whole text denotes. A plus in front is taken, a minus is not. -/
def hexadecimal (size : Nat) : List Char → Except Reason Nat
  | [] => .error .emptyInteger
  | '+' :: rest => unsignedHex size rest
  | text => unsignedHex size text

end ScriptNumbers.Numeral
