import ScriptNumbers.Decimal.Layout
import ScriptNumbers.Decimal.Shortest
import ScriptNumbers.Number.Basic
import ScriptNumbers.Numeral.Floating
import ScriptNumbers.Numeral.Integer
import ScriptNumbers.Text.Blank

/-! The text of a number and the number of a text. A floating number is written positionally, with the
fewest digits that read back in its own precision. -/

namespace ScriptNumbers

/-- A magnitude behind the sign of its value. -/
def signed (negative : Bool) (text : List Char) : List Char := if negative then '-' :: text else text

def integerText (value : Int) : List Char := signed (value < 0) (Decimal.toDigits value.natAbs)

/-- A value halfway between the two nearest shortest decimals is written as the upper one. -/
def Binary.text {format : Format} : Binary format → List Char
  | .nan => ['N', 'a', 'N']
  | .infinity negative => signed negative ['i', 'n', 'f']
  | .finite negative rank => signed negative (Decimal.shortest format .up rank).positional

namespace Number

def chars : Number → List Char
  | int32 value => integerText value.toInt
  | int64 value => integerText value.toInt
  | float value => value.text
  | double value => value.text

def text (number : Number) : String := String.ofList number.chars

/-- Reads a trimmed numeral of a kind. -/
def ofChars (kind : Kind) (text : List Char) : Except Reason Number :=
  match kind with
  | .int32 => (Numeral.integer Int32.minValue.toInt Int32.maxValue.toInt text).map (int32 <| .ofInt ·)
  | .int64 => (Numeral.integer Int64.minValue.toInt Int64.maxValue.toInt text).map (int64 <| .ofInt ·)
  | .float => (Numeral.floating text).map float
  | .double => (Numeral.floating text).map double

/-- Reads a numeral of a kind; blanks around it are ignored, but kept in the error. -/
def ofText (kind : Kind) (text : String) : Except ParseError Number :=
  (ofChars kind (Text.trim text.toList)).mapError (⟨some kind, text, ·⟩)

end Number

end ScriptNumbers
