import ScriptNumbers.Literal.Reading

/-! What reading a literal reports to an observer: a promotion, if there was one, and then the number. A
literal that is not accepted reports nothing. -/

namespace ScriptNumbers.Literal

inductive Event where
  | promoted (literal : String) (kind : Kind)
  | materialized (literal : String) (number : Number)
deriving DecidableEq

namespace Event

def level : Event → String
  | promoted .. => "DEBUG"
  | materialized .. => "TRACE"

def literal : Event → String
  | promoted literal _ | materialized literal _ => literal

def kind : Event → Kind
  | promoted _ kind => kind
  | materialized _ number => number.kind

/-- Text of the number, where the event has one. -/
def value? : Event → Option String
  | promoted .. => none
  | materialized _ number => some number.text

def message : Event → String
  | promoted .. => "integer literal does not fit into " ++ Kind.int32.typeName
  | materialized .. => "materialized numeric literal"

end Event

/-- The events of an accepted literal. -/
def Reading.events (literal : String) (reading : Reading) : List Event :=
  (if reading.promoted then [.promoted literal reading.number.kind] else []) ++
    [.materialized literal reading.number]

/-- The events of reading a literal, in order. -/
def events (settings : Settings) (literal : String) : List Event :=
  match read settings literal with
  | .ok reading => reading.events literal
  | .error _ => []

end ScriptNumbers.Literal
