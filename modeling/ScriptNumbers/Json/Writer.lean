import ScriptNumbers.Literal.Settings
import ScriptNumbers.Number.Text

/-! The JSON form of numbers, kinds and settings. -/

namespace ScriptNumbers.Json

/-- The exponents of the leading digit at which a format is written with a point; outside them it is
written with an exponent. -/
structure PointRange where
  lowest : Int
  highest : Int

def singleRange : PointRange := ⟨-6, 12⟩

def doubleRange : PointRange := ⟨-5, 15⟩

/-- A decimal with a point, or with an exponent and no needless point. -/
def decimalText (range : PointRange) (decimal : Decimal) : List Char :=
  if range.lowest ≤ decimal.scale ∧ decimal.scale ≤ range.highest then
    if 0 ≤ decimal.exponent then decimal.positional ++ ['.', '0'] else decimal.positional
  else decimal.scientific

/-- A value halfway between the two nearest shortest decimals is written with the even digit. There is no
JSON number for a value that is not finite. -/
def floatText {format : Format} (range : PointRange) : Binary format → List Char
  | .nan | .infinity _ => ['n', 'u', 'l', 'l']
  | .finite negative rank => signed negative (decimalText range (Decimal.shortest format .toEven rank))

def singleText (value : Single) : List Char := floatText singleRange value

def doubleText (value : Double) : List Char := floatText doubleRange value

/-- A number without its kind. -/
def bareText : Number → List Char
  | .int32 value => integerText value.toInt
  | .int64 value => integerText value.toInt
  | .float value => singleText value
  | .double value => doubleText value

/-- A name in quotes; the names that are written need no escapes. -/
def nameText (name : String) : List Char := '"' :: name.toList ++ ['"']

def boolText : Bool → List Char
  | true => ['t', 'r', 'u', 'e']
  | false => ['f', 'a', 'l', 's', 'e']

def memberText (name : String) (value : List Char) : List Char := nameText name ++ ':' :: value

/-- An object of members in the order given. -/
def objectText (members : List (List Char)) : List Char := '\x7b' :: [','].intercalate members ++ ['\x7d']

/-- A number marked with its kind. -/
def numberText (number : Number) : List Char := objectText [memberText number.kind.tag (bareText number)]

def settingsText (settings : Literal.Settings) : List Char :=
  objectText [memberText "typeSuffixes" (boolText settings.typeSuffixes), memberText "hex" (boolText settings.hex),
    memberText "oversizedInteger" (nameText settings.oversizedInteger.name)]

end ScriptNumbers.Json

namespace ScriptNumbers

def Number.json (number : Number) : String := String.ofList (Json.numberText number)

def Literal.Settings.json (settings : Settings) : String := String.ofList (Json.settingsText settings)

end ScriptNumbers
