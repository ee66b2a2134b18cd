import ScriptNumbers.Literal.Parts
import ScriptNumbers.Literal.Settings
import ScriptNumbers.Number.Text
import ScriptNumbers.Numeral.Hexadecimal

/-! The number that a literal stands for. Its form picks the kind: a suffix first, then the exponent marker
or the point; a plain integer takes the narrowest kind that holds it. The number itself is that of a numeral, which the
parts are spelled as. -/

namespace ScriptNumbers.Literal

open Numeral

/-- What is wrong with a literal; the kind is the one that it was to have. -/
structure Cause where
  kind : Option Kind
  reason : Reason
deriving DecidableEq, Repr

/-- The number of a literal, and whether it is a plain integer that got a wider kind. -/
structure Reading where
  number : Number
  promoted : Bool
deriving DecidableEq

/-- Hexadecimal digits are the bits of a word, and a sign negates that word. -/
def readHex (negative : Bool) (digits : List Char) (suffix : Option Kind) : Except Cause Number :=
  match suffix.getD .int32 with
  | .int32 =>
    match hexadecimal UInt32.size digits with
    | .ok bits => .ok (.int32 (if negative then -.ofNat bits else .ofNat bits))
    | .error reason => .error ⟨some .int32, reason⟩
  | .int64 =>
    match hexadecimal UInt64.size digits with
    | .ok bits => .ok (.int64 (if negative then -.ofNat bits else .ofNat bits))
    | .error reason => .error ⟨some .int64, reason⟩
  | kind => .error ⟨some kind, .hexFloating⟩

/-- The numeral of a decimal. It has no suffix, and the same letter for every exponent. -/
def numeral (negative : Bool) (mantissa : Mantissa) (exponent : Option (Marker × Exponent)) : String :=
  String.ofList (signed negative (mantissa.text ++ match exponent with
    | some (_, value) => 'e' :: value.text
    | none => []))

/-- A decimal as a number of the kind that it was to have. An error of the numeral is one of the literal. -/
def readNumeral (kind : Kind) (negative : Bool) (mantissa : Mantissa) (exponent : Option (Marker × Exponent)) :
    Except Cause Number :=
  (Number.ofText kind (numeral negative mantissa exponent)).mapError fun error => ⟨some kind, error.reason⟩

def isIntegral (mantissa : Mantissa) (exponent : Option (Marker × Exponent)) : Bool :=
  mantissa.fraction.isNone && exponent.isNone

/-- A decimal as a number of a kind that was asked for. -/
def readTyped (kind : Kind) (negative : Bool) (mantissa : Mantissa) (exponent : Option (Marker × Exponent)) :
    Except Cause Number :=
  if kind.isFloating || isIntegral mantissa exponent then readNumeral kind negative mantissa exponent
  else .error ⟨some kind, .fractionOnInteger⟩

/-- A plain integer as a number of the wider kinds, of which the last has room for all of them. -/
def readWide (negative : Bool) (mantissa : Mantissa) : Except Cause Number :=
  match readNumeral .int64 negative mantissa none with
  | .ok number => .ok number
  | .error _ => readNumeral .double negative mantissa none

/-- The narrowest kind that holds a plain integer. -/
def readPlain (oversized : Oversized) (negative : Bool) (mantissa : Mantissa) : Except Cause Reading :=
  match readNumeral .int32 negative mantissa none, oversized with
  | .ok number, _ => .ok ⟨number, false⟩
  | .error cause, .reject => .error cause
  | .error _, .promote => (readWide negative mantissa).map (⟨·, true⟩)

/-- The kind of a decimal with a point or an exponent but without a suffix. -/
def floatingKind : Option (Marker × Exponent) → Kind
  | some (.d, _) => .double
  | _ => .float

def readDecimal (oversized : Oversized) (negative : Bool) (mantissa : Mantissa)
    (exponent : Option (Marker × Exponent)) (suffix : Option Kind) : Except Cause Reading :=
  match suffix with
  | some kind => (readTyped kind negative mantissa exponent).map (⟨·, false⟩)
  | none =>
    if isIntegral mantissa exponent then readPlain oversized negative mantissa
    else (readNumeral (floatingKind exponent) negative mantissa exponent).map (⟨·, false⟩)

/-- The number of scanned parts, unless the settings forbid their form. -/
def ofParts (settings : Settings) (parts : Parts) : Except Cause Reading :=
  if parts.suffix.isSome && !settings.typeSuffixes then .error ⟨none, .suffixesDisabled⟩
  else match parts.body with
    | .hex digits =>
      if settings.hex then (readHex parts.negative digits parts.suffix).map (⟨·, false⟩)
      else .error ⟨none, .hexDisabled⟩
    | .decimal mantissa exponent =>
      readDecimal settings.oversizedInteger parts.negative mantissa exponent parts.suffix

def readChars (settings : Settings) (text : List Char) : Except Cause Reading :=
  match scan text with
  | .ok parts => ofParts settings parts
  | .error reason => .error ⟨none, reason⟩

/-- Reads a literal. -/
def read (settings : Settings) (text : String) : Except ParseError Reading :=
  (readChars settings text.toList).mapError fun cause => ⟨cause.kind, text, cause.reason⟩

/-- The number of a literal. -/
def parse (settings : Settings) (text : String) : Except ParseError Number :=
  (read settings text).map Reading.number

end ScriptNumbers.Literal
