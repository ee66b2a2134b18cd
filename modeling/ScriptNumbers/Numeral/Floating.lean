import ScriptNumbers.Error
import ScriptNumbers.Numeral.Scientific

/-! Floating numerals: a decimal, or the name of a value that is not finite, in any case of letters. A
decimal is rounded once, from its exact value to the format. -/

namespace ScriptNumbers.Numeral

variable {format : Format}

/-- The values with names. -/
def named? (negative : Bool) (text : List Char) : Option (Binary format) :=
  let name := text.map Char.toLower
  if name = ['i', 'n', 'f'] ∨ name = ['i', 'n', 'f', 'i', 'n', 'i', 't', 'y'] then some (.infinity negative)
  else if name = ['n', 'a', 'n'] then some .nan
  else none

/-- A mantissa and an optional exponent, up to the end of the text. -/
def decimal? (text : List Char) : Option Decimal := do
  match ← Mantissa.split? text with
  | (mantissa, []) => some (mantissa.scaled 0)
  | (mantissa, marker :: rest) =>
    if marker = 'e' ∨ marker = 'E' then
      match ← Exponent.split? rest with
      | (exponent, []) => some (mantissa.scaled exponent.toInt)
      | _ => none
    else none

/-- The value that a whole text denotes. -/
def floating (text : List Char) : Except Reason (Binary format) :=
  if text.isEmpty then .error .emptyFloat
  else
    let (sign, rest) := splitSign text
    let negative := sign == some true
    match named? negative rest with
    | some value => .ok value
    | none => match decimal? rest with
      | some decimal => .ok (.ofDecimal negative decimal)
      | none => .error .invalidFloat

end ScriptNumbers.Numeral
