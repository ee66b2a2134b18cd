import ScriptNumbers.Error
import ScriptNumbers.Literal.Node

/-! The parts of a literal, collected from its nodes. Each node is asked for what its symbol stands for, and a node that
does not belong where it is found is an error. -/

namespace ScriptNumbers.Literal

open Numeral

/-- The letter that begins an exponent; it also picks the precision. -/
inductive Marker where
  | e
  | d
deriving DecidableEq, Repr

inductive Body where
  | hex (digits : List Char)
  | decimal (mantissa : Mantissa) (exponent : Option (Marker × Exponent))
deriving DecidableEq, Repr

structure Parts where
  negative : Bool
  body : Body
  suffix : Option Kind
deriving DecidableEq, Repr

/-- A marker in either case. -/
def Marker.ofText (text : List Char) : Marker := if (text.head?.getD 'e').toLower = 'd' then .d else .e

namespace Node

/-- The first node inside. -/
def single (node : Node) : Except Reason Node :=
  match node.inside with
  | [] => .error .missingDigits
  | first :: _ => .ok first

def unexpected {α : Type} (node : Node) : Except Reason α := .error (.unexpectedToken node.symbol.name)

def exponentPart (node : Node) : Except Reason (Marker × Exponent) :=
  node.inside.foldlM (fun (marker, value) piece =>
    match piece.symbol with
    | .exponentMarker => .ok (.ofText piece.text, value)
    | .exponentValue => .ok (marker, .ofText piece.text)
    | _ => piece.unexpected) (.e, .ofText [])

def decimalPart (node : Node) : Except Reason (Mantissa × Option (Marker × Exponent)) :=
  node.inside.foldlM (fun (mantissa, exponent) piece =>
    match piece.symbol with
    | .mantissa => .ok (.ofText piece.text, exponent)
    | .exponent => piece.exponentPart.map fun found => (mantissa, some found)
    | _ => piece.unexpected) (.ofText [], none)

def suffixPart (node : Node) : Except Reason Kind :=
  match node.text with
  | ['%'] => .ok .int32
  | ['&'] => .ok .int64
  | ['!'] => .ok .float
  | ['#'] => .ok .double
  | text => .error (.unknownSuffix (String.ofList text))

end Node

/-- The parts that have been found so far. -/
structure Draft where
  negative : Bool := false
  body : Option Body := none
  suffix : Option Kind := none

def Draft.take (draft : Draft) (node : Node) : Except Reason Draft :=
  match node.symbol with
  | .sign => .ok { draft with negative := node.text == ['-'] }
  | .hex => node.single.map fun digits => { draft with body := some (.hex digits.text) }
  | .decimal => node.decimalPart.map fun (mantissa, exponent) => { draft with body := some (.decimal mantissa exponent) }
  | .suffix => node.suffixPart.map fun kind => { draft with suffix := some kind }
  | .endOfInput => .ok draft
  | _ => node.unexpected

/-- The parts of the first node, which should be that of a literal. -/
def Parts.ofNodes (nodes : List Node) : Except Reason Parts :=
  match nodes with
  | [] => .error .emptyLiteral
  | literal :: _ => do
    let draft ← literal.inside.foldlM Draft.take {}
    match draft.body with
    | some body => return ⟨draft.negative, body, draft.suffix⟩
    | none => .error .noDigits

/-- The parts of a whole literal. -/
def scan (text : List Char) : Except Reason Parts :=
  match scanNodes text with
  | .ok nodes => Parts.ofNodes nodes
  | .error rest => .error (.unexpectedInput (column text rest))

end ScriptNumbers.Literal
