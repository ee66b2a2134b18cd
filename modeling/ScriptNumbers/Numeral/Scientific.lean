import ScriptNumbers.Decimal.Basic

/-! The decimal part of numerals and literals: digits around an optional point, and an exponent with an
optional sign. Each piece is split off the front of a text and takes as many digits as there are. -/

namespace ScriptNumbers.Numeral

/-- Digits with an optional point. A point may stand first or last, but not alone. -/
structure Mantissa where
  whole : List Char
  fraction : Option (List Char)
deriving DecidableEq, Repr

/-- A signed power of ten; the sign is kept as written. -/
structure Exponent where
  sign : Option Bool
  digits : List Char
deriving DecidableEq, Repr

namespace Mantissa

def split? (text : List Char) : Option (Mantissa × List Char) :=
  let whole := text.takeWhile Char.isDigit
  match text.dropWhile Char.isDigit with
  | '.' :: rest =>
    let fraction := rest.takeWhile Char.isDigit
    if whole.isEmpty && fraction.isEmpty then none
    else some (⟨whole, some fraction⟩, rest.dropWhile Char.isDigit)
  | rest => if whole.isEmpty then none else some (⟨whole, none⟩, rest)

/-- The text that the mantissa was read from. -/
def text (mantissa : Mantissa) : List Char :=
  mantissa.whole ++ match mantissa.fraction with
    | some fraction => '.' :: fraction
    | none => []

/-- A text as a mantissa, which takes the first point in it for its own. -/
def ofText (text : List Char) : Mantissa :=
  ⟨text.takeWhile (· != '.'), match text.dropWhile (· != '.') with
    | _ :: fraction => some fraction
    | [] => none⟩

/-- The mantissa times a power of ten. -/
def scaled (mantissa : Mantissa) (exponent : Int) : Decimal :=
  let fraction := mantissa.fraction.getD []
  ⟨Decimal.ofDigits (mantissa.whole ++ fraction), exponent - fraction.length⟩

end Mantissa

/-- A leading sign, true if negative, and the text behind it. -/
def splitSign : List Char → Option Bool × List Char
  | '+' :: rest => (some false, rest)
  | '-' :: rest => (some true, rest)
  | text => (none, text)

namespace Exponent

def split? (text : List Char) : Option (Exponent × List Char) :=
  let (sign, rest) := splitSign text
  let digits := rest.takeWhile Char.isDigit
  if digits.isEmpty then none else some (⟨sign, digits⟩, rest.dropWhile Char.isDigit)

def text (exponent : Exponent) : List Char :=
  match exponent.sign with
  | some true => '-' :: exponent.digits
  | some false => '+' :: exponent.digits
  | none => exponent.digits

/-- A text as an exponent: a sign, if it begins with one, and all that is behind it. -/
def ofText (text : List Char) : Exponent :=
  let (sign, digits) := splitSign text
  ⟨sign, digits⟩

def toInt (exponent : Exponent) : Int :=
  let value : Int := Decimal.ofDigits exponent.digits
  if exponent.sign = some true then -value else value

end Exponent

end ScriptNumbers.Numeral
