import ScriptNumbers.Json.Reader

/-! Reading numbers and kinds from JSON. An integer kind takes integers of its range and nothing else; a
floating kind takes any number and rounds it. -/

namespace ScriptNumbers.Json

/-- A value as a number of a kind. -/
def Value.toNumber (kind : Kind) (value : Value) : Except Fault Number :=
  let mismatched (found : Found) : Except Fault Number := .error (.data (.invalidType found (.number kind)))
  match kind, value with
  | .int32, .integer value =>
    if Int32.minValue.toInt ≤ value ∧ value ≤ Int32.maxValue.toInt then .ok (.int32 (.ofInt value))
    else .error (.data (.outOfRange value kind))
  | .int64, .integer value =>
    if Int64.minValue.toInt ≤ value ∧ value ≤ Int64.maxValue.toInt then .ok (.int64 (.ofInt value))
    else .error (.data (.outOfRange value kind))
  | .int32, .floating value | .int64, .floating value => mismatched (.floating value)
  | .float, .integer value => .ok (.float (.ofInt value))
  | .float, .floating value => .ok (.float value.convert)
  | .double, .integer value => .ok (.double (.ofInt value))
  | .double, .floating value => .ok (.double value)

/-- A number of a given kind, written without it. -/
def bareNumber (kind : Kind) : Reader Number
  | [] => .error .truncated
  | .number token :: rest => do
    let value ← token.value
    let number ← value.toNumber kind
    return (number, rest)
  | token :: _ => .error (mismatch token (.number kind))

/-- A number marked with its kind. -/
def number : Reader Number :=
  Variants.read {
    named? := Kind.ofTag?
    names := Kind.all.map Kind.tag
    bare := fun _ => .error (.data (.invalidType .bareVariant .payload))
    payload := bareNumber }

/-- The name of a kind. -/
def kind : Reader Kind :=
  Variants.read {
    named? := Kind.ofTag?
    names := Kind.all.map Kind.tag
    bare := .ok
    payload := fun variant tokens => (unit tokens).map fun (_, rest) => (variant, rest) }

def readNumber (text : String) : Except Fault Number := document number text

def readBareNumber (kind : Kind) (text : String) : Except Fault Number := document (bareNumber kind) text

def readKind (text : String) : Except Fault Kind := document kind text

end ScriptNumbers.Json
