import ScriptNumbers.Proofs.LiteralGrammar

/-! The nodes of a text that is cut as the grammar does, and what is collected from them. Collecting is written for any
nodes, so it has answers for nodes out of place and for nodes that are missing. On the nodes of a literal none of these
is ever given: what is collected is what the pieces denote. -/

namespace ScriptNumbers.Literal

open Numeral

/-- The node of a piece that may be empty, and then has none. -/
def optionalNode (symbol : Symbol) (text : List Char) : List Node := if text.isEmpty then [] else [.node symbol text []]

def exponentNode (marker : Char) (value : List Char) : Node :=
  .node .exponent (marker :: value) [.node .exponentMarker [marker] [], .node .exponentValue value []]

def BodyPieces.node (pieces : BodyPieces) : Node :=
  match pieces with
  | hex _ digits => .node .hex pieces.text [.node .hexDigits digits []]
  | plain mantissa => .node .decimal pieces.text [.node .mantissa mantissa []]
  | scaled mantissa marker exponent =>
    .node .decimal pieces.text [.node .mantissa mantissa [], exponentNode marker exponent]

/-- The nodes behind a body. -/
def endNodes (suffix : List Char) : List Node := optionalNode .suffix suffix ++ [.node .endOfInput [] []]

def Pieces.node (pieces : Pieces) : Node :=
  .node .literal pieces.text (optionalNode .sign pieces.sign ++ pieces.body.node :: endNodes pieces.suffix)

theorem signNodes_eq (mark : Option Bool) : signNodes mark = optionalNode .sign (signText mark) := by
  rcases mark with _ | _ | _ <;> rfl

private theorem Marker.ofText_singleton {letter : Char} {marker : Marker} (same : letter.toLower = marker.letter) :
    Marker.ofText [letter] = marker := by
  rw [Marker.ofText, List.head?_cons, Option.getD_some, same]
  cases marker <;> rfl

private theorem exponentPart_node {letter : Char} {marker : Marker} (same : letter.toLower = marker.letter)
    {value : Exponent} (formed : value.WellFormed) :
    (exponentNode letter value.text).exponentPart = .ok (marker, value) := by
  have collected : (exponentNode letter value.text).exponentPart = .ok (.ofText [letter], .ofText value.text) := rfl
  rw [collected, Marker.ofText_singleton same, Exponent.ofText_of_wellFormed formed]

private theorem Draft.take_sign {sign : List Char} (legal : sign ∈ Grammar.optional Grammar.sign) :
    (optionalNode .sign sign).foldlM Draft.take {} = .ok { negative := decide (sign = ['-']) } := by
  rcases Grammar.mem_optional_sign.mp legal with rfl | rfl | rfl <;> rfl

private theorem Draft.take_body {pieces : BodyPieces} {body : Body} (denotes : pieces.Denotes body) (draft : Draft) :
    draft.take pieces.node = .ok { draft with body := some body } := by
  cases denotes with
  | hex marker digits => rfl
  | @plain mantissa front =>
    have collected : draft.take (BodyPieces.plain mantissa.text).node =
        .ok { draft with body := some (.decimal (.ofText mantissa.text) none) } := rfl
    rw [collected, Mantissa.ofText_of_wellFormed front]
  | @scaled mantissa front letter marker same exponent behind =>
    have collected : draft.take (BodyPieces.scaled mantissa.text letter exponent.text).node =
        Except.map (fun found => { draft with body := some (.decimal found.1 found.2) })
          ((exponentNode letter exponent.text).exponentPart.map (fun found => (Mantissa.ofText mantissa.text, some found))
            >>= pure) := rfl
    rw [collected, exponentPart_node same behind, Mantissa.ofText_of_wellFormed front]
    rfl

private theorem Draft.take_end (draft : Draft) (kind : Option Kind) (undecided : draft.suffix = none) :
    (endNodes (suffixText kind)).foldlM Draft.take draft = .ok { draft with suffix := kind } := by
  obtain ⟨negative, body, suffix⟩ := draft
  cases undecided
  rcases kind with _ | kind
  · rfl
  · cases kind <;> rfl

/-- Collecting never fails on the nodes of a literal. -/
theorem Pieces.ofNodes_node {pieces : Pieces} (formed : pieces.WellFormed) {parts : Parts}
    (denotes : pieces.Denotes parts) : Parts.ofNodes [pieces.node] = .ok parts := by
  obtain ⟨sign, body, suffix⟩ := pieces
  obtain ⟨negative, meaning, kind⟩ := parts
  obtain ⟨minus, middle, rfl⟩ := denotes
  have behind := Draft.take_end { negative := decide (sign = ['-']), body := some meaning } kind rfl
  have whole : (Pieces.node ⟨sign, body, suffixText kind⟩).inside.foldlM Draft.take {} =
      .ok { negative := decide (sign = ['-']), body := some meaning, suffix := kind } := by
    simp only [Pieces.node, Node.inside, List.foldlM_append, List.foldlM_cons, Draft.take_sign formed.sign,
      Draft.take_body middle, behind, bind, Except.bind]
  have sign : decide (sign = ['-']) = negative := by rw [Bool.eq_iff_iff, minus, decide_eq_true_iff]
  rw [Parts.ofNodes, whole, sign]
  rfl

end ScriptNumbers.Literal
