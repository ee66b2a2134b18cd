import ScriptNumbers.Numeral.Hexadecimal
import ScriptNumbers.Numeral.Scientific

/-! The tokens of a JSON text. A text that cannot be cut into tokens to its end gives those up to the first
fault and a last one for the fault itself, so that a reader which is content with the tokens before it
never meets it. -/

namespace ScriptNumbers.Json

open Numeral

/-- A number as written. -/
structure NumberToken where
  negative : Bool
  mantissa : Mantissa
  exponent : Option Exponent
deriving DecidableEq

/-- How the tokens of a text break off: at a character that fits nowhere, or because the text ends inside a
word, a number or a string. Of a string that is cut short it matters whether the escapes up to the cut
denote characters. -/
inductive Break where
  | character
  | word
  | number
  | string (sound : Bool)
deriving DecidableEq

/-- A string whose escapes do not denote characters has no content. -/
inductive Token where
  | openObject
  | closeObject
  | openArray
  | closeArray
  | colon
  | comma
  | null
  | boolean (value : Bool)
  | number (token : NumberToken)
  | string (content : Option String)
  | broken (cause : Break)
deriving DecidableEq

def isBlank (c : Char) : Bool := c == ' ' || c == '\n' || c == '\t' || c == '\r'

/-- The rest of a word behind its first letter. -/
def word : List Char → List Char → Except Break (List Char)
  | [], rest => .ok rest
  | _ :: _, [] => .error .word
  | expected :: letters, c :: rest => if c = expected then word letters rest else .error .character

/-- Some digits, as many as there are. -/
def digits (text : List Char) : Except Break (List Char × List Char) :=
  match text with
  | [] => .error .number
  | c :: _ =>
    if c.isDigit then .ok (text.takeWhile Char.isDigit, text.dropWhile Char.isDigit) else .error .character

/-- The digits before the point: no zero leads another digit. -/
def wholeDigits : List Char → Except Break (List Char × List Char)
  | '0' :: c :: rest => if c.isDigit then .error .character else .ok (['0'], c :: rest)
  | text => digits text

/-- The digits behind a point, if there is one. -/
def fractionDigits : List Char → Except Break (Option (List Char) × List Char)
  | '.' :: rest => (digits rest).map fun (fraction, rest) => (some fraction, rest)
  | text => .ok (none, text)

/-- An exponent, if its marker is there. -/
def exponentPart : List Char → Except Break (Option Exponent × List Char)
  | [] => .ok (none, [])
  | c :: rest =>
    if c = 'e' ∨ c = 'E' then
      let (sign, rest) := splitSign rest
      (digits rest).map fun (value, rest) => (some ⟨sign, value⟩, rest)
    else .ok (none, c :: rest)

/-- A number behind its sign. -/
def unsignedNumber (negative : Bool) (text : List Char) : Except Break (NumberToken × List Char) := do
  let (whole, rest) ← wholeDigits text
  let (fraction, rest) ← fractionDigits rest
  let (exponent, rest) ← exponentPart rest
  return (⟨negative, ⟨whole, fraction⟩, exponent⟩, rest)

def numberToken : List Char → Except Break (NumberToken × List Char)
  | '-' :: rest => unsignedNumber true rest
  | text => unsignedNumber false text

/-- A character of a string, or a number given by an escape, which is a character or half of one. -/
inductive Piece where
  | plain (c : Char)
  | unit (value : Nat)
deriving DecidableEq

export Numeral (hexDigit?)

/-- Value of four hexadecimal digits. -/
def hexUnit? (a b c d : Char) : Option Nat := do
  return (((← hexDigit? a) * 16 + (← hexDigit? b)) * 16 + (← hexDigit? c)) * 16 + (← hexDigit? d)

/-- The character that a one-letter escape stands for. -/
def escaped? : Char → Option Char
  | '"' => some '"'
  | '\\' => some '\\'
  | '/' => some '/'
  | 'b' => some '\x08'
  | 'f' => some '\x0c'
  | 'n' => some '\n'
  | 'r' => some '\r'
  | 't' => some '\t'
  | _ => none

/-- The pieces of a string up to its closing quote and the text behind it, or the pieces up to the place
where it breaks off. A numeric escape counts as cut short when fewer than four bytes are left for it. -/
def pieces : List Char → List Piece × Except Break (List Char)
  | [] => ([], .error (.string true))
  | '"' :: rest => ([], .ok rest)
  | '\\' :: 'u' :: a :: b :: c :: d :: rest =>
    match hexUnit? a b c d with
    | some value => let (more, ending) := pieces rest; (.unit value :: more, ending)
    | none => ([], .error .character)
  | '\\' :: 'u' :: rest => ([], .error (if (String.ofList rest).utf8ByteSize < 4 then .string true else .character))
  | ['\\'] => ([], .error (.string true))
  | '\\' :: c :: rest =>
    match escaped? c with
    | some value => let (more, ending) := pieces rest; (.plain value :: more, ending)
    | none => ([], .error .character)
  | c :: rest =>
    if c.toNat < 0x20 then ([], .error .character)
    else let (more, ending) := pieces rest; (.plain c :: more, ending)

def isHighHalf (value : Nat) : Bool := 0xD800 ≤ value && value ≤ 0xDBFF

def isLowHalf (value : Nat) : Bool := 0xDC00 ≤ value && value ≤ 0xDFFF

/-- The characters of the pieces of a string. Halves of a character have to come as a pair. -/
def characters? : List Piece → Option (List Char)
  | [] => some []
  | .plain c :: rest => (characters? rest).map (c :: ·)
  | .unit high :: .unit low :: rest =>
    if isHighHalf high then
      if isLowHalf low then
        (characters? rest).map (Char.ofNat (0x10000 + (high - 0xD800) * 0x400 + (low - 0xDC00)) :: ·)
      else none
    else if isLowHalf high then none
    else (characters? (.unit low :: rest)).map (Char.ofNat high :: ·)
  | .unit value :: rest =>
    if isHighHalf value || isLowHalf value then none
    else (characters? rest).map (Char.ofNat value :: ·)

/-- Whether pieces that are cut short may still become characters: only the last one may lack its pair. -/
def isSound (pieces : List Piece) : Bool :=
  (characters? pieces).isSome ||
    match pieces.getLast? with
    | some (.unit value) => isHighHalf value && (characters? pieces.dropLast).isSome
    | _ => false

/-- A string behind its opening quote. -/
def string (text : List Char) : Except Break (Option String × List Char) :=
  match pieces text with
  | (content, .ok rest) => .ok ((characters? content).map String.ofList, rest)
  | (content, .error (.string _)) => .error (.string (isSound content))
  | (_, .error cause) => .error cause

/-- The token that begins with a given character, and the text behind it. -/
def next (c : Char) (rest : List Char) : Except Break (Token × List Char) :=
  match c with
  | '\x7b' => .ok (.openObject, rest)
  | '\x7d' => .ok (.closeObject, rest)
  | '[' => .ok (.openArray, rest)
  | ']' => .ok (.closeArray, rest)
  | ':' => .ok (.colon, rest)
  | ',' => .ok (.comma, rest)
  | 'n' => (word ['u', 'l', 'l'] rest).map (.null, ·)
  | 't' => (word ['r', 'u', 'e'] rest).map (.boolean true, ·)
  | 'f' => (word ['a', 'l', 's', 'e'] rest).map (.boolean false, ·)
  | '"' => (string rest).map fun (content, rest) => (.string content, rest)
  | _ =>
    if c = '-' ∨ c.isDigit then (numberToken (c :: rest)).map fun (value, rest) => (.number value, rest)
    else .error .character

/-- The tokens of a text, at most as many as the bound says. -/
def tokensWithin : Nat → List Char → List Token
  | 0, _ => []
  | _, [] => []
  | bound + 1, c :: rest =>
    if isBlank c then tokensWithin bound rest
    else match next c rest with
      | .ok (token, rest) => token :: tokensWithin bound rest
      | .error cause => [.broken cause]

/-- The tokens of a text. Each token has a character of its own, so the length of the text bounds them. -/
def tokens (text : List Char) : List Token := tokensWithin text.length text

end ScriptNumbers.Json
