import ScriptNumbers.Numeral.Scientific

/-! The grammar of numeric literals in program text: a sign, then hexadecimal digits behind `&H` or a
decimal with an optional exponent, then a suffix that names the kind. A text of the grammar is cut into nodes, one
for each symbol of the grammar that has matched. A text outside the grammar is blamed on the place where scanning
was stuck. A mantissa, an exponent value and a run of hexadecimal digits are taken whole or not at all, so a missing
one is blamed on its own start. -/

namespace ScriptNumbers.Literal

open Numeral

inductive Symbol where
  | literal
  | sign
  | hex
  | hexDigits
  | decimal
  | mantissa
  | exponent
  | exponentMarker
  | exponentValue
  | suffix
  | endOfInput
deriving DecidableEq, Repr

def Symbol.name : Symbol → String
  | literal => "literal"
  | sign => "sign"
  | hex => "hex"
  | hexDigits => "hex_digits"
  | decimal => "decimal"
  | mantissa => "mantissa"
  | exponent => "exponent"
  | exponentMarker => "exponent_marker"
  | exponentValue => "exponent_value"
  | suffix => "suffix"
  | endOfInput => "EOI"

/-- A symbol, the text that it has matched, and the nodes inside of it. -/
inductive Node where
  | node (symbol : Symbol) (text : List Char) (inside : List Node)

namespace Node

def symbol : Node → Symbol
  | node symbol _ _ => symbol

def text : Node → List Char
  | node _ text _ => text

def inside : Node → List Node
  | node _ _ inside => inside

end Node

def isHexDigit (c : Char) : Bool :=
  c.isDigit || ('a' ≤ c && c ≤ 'f') || ('A' ≤ c && c ≤ 'F')

def isMarker (c : Char) : Bool := ['e', 'E', 'd', 'D'].contains c

def isSuffix (c : Char) : Bool := ['%', '&', '!', '#'].contains c

/-- The digits behind `&H`. This and the next scanners split a piece off the front of a text; a failure is
the text that was left where they were stuck. -/
def scanHex (marker : Char) (text : List Char) : Except (List Char) (Node × List Char) :=
  let digits := text.takeWhile isHexDigit
  if digits.isEmpty then .error text
  else .ok (.node .hex ('&' :: marker :: digits) [.node .hexDigits digits []], text.dropWhile isHexDigit)

/-- An exponent, if its marker is there. -/
def scanExponent (text : List Char) : Except (List Char) (List Node × List Char) :=
  match text with
  | [] => .ok ([], [])
  | c :: rest =>
    if isMarker c then
      match Exponent.split? rest with
      | none => .error rest
      | some (value, rest) =>
        let inside := [.node .exponentMarker [c] [], .node .exponentValue value.text []]
        .ok ([.node .exponent (c :: value.text) inside], rest)
    else .ok ([], text)

def scanDecimal (text : List Char) : Except (List Char) (Node × List Char) :=
  match Mantissa.split? text with
  | none => .error text
  | some (mantissa, rest) =>
    (scanExponent rest).map fun (exponent, rest) =>
      (.node .decimal (mantissa.text ++ exponent.flatMap Node.text) (.node .mantissa mantissa.text [] :: exponent), rest)

def scanBody (text : List Char) : Except (List Char) (Node × List Char) :=
  match text with
  | '&' :: 'h' :: rest => scanHex 'h' rest
  | '&' :: 'H' :: rest => scanHex 'H' rest
  | _ => scanDecimal text

/-- A suffix, if there is one, and then the end of the text. -/
def scanEnd (text : List Char) : Except (List Char) (List Node) :=
  match text with
  | [] => .ok [.node .endOfInput [] []]
  | c :: rest =>
    if isSuffix c then
      if rest.isEmpty then .ok [.node .suffix [c] [], .node .endOfInput [] []] else .error rest
    else .error text

/-- A sign, if there is one. -/
def signNodes : Option Bool → List Node
  | none => []
  | some negative => [.node .sign [if negative then '-' else '+'] []]

/-- The nodes of a whole literal, or the text left where scanning was stuck. -/
def scanNodes (text : List Char) : Except (List Char) (List Node) := do
  let (sign, rest) := splitSign text
  let (body, rest) ← scanBody rest
  let behind ← scanEnd rest
  return [.node .literal text (signNodes sign ++ body :: behind)]

/-- The column, counted from one, at which a text is stuck with the given rest. -/
def column (text rest : List Char) : Nat := text.length - rest.length + 1

end ScriptNumbers.Literal
