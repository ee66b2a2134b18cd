import ScriptNumbers.Json.Value

/-! Readers of typed values from tokens. A reader takes the tokens of one value off the front, and the first
fault in the order of the text is the one reported. -/

namespace ScriptNumbers.Json

abbrev Reader (α : Type) := List Token → Except Fault (α × List Token)

/-- The fault of a break in a place where a value is read. -/
def Break.fault : Break → Fault
  | character => .malformed
  | word | number => .truncated
  | string sound => if sound then .truncated else .malformed

/-- The fault of a token that is not what was expected. What is no value at all is malformed. -/
def mismatch (token : Token) (expected : Expected) : Fault :=
  let found (content : Found) : Fault := .data (.invalidType content expected)
  match token with
  | .null => found .null
  | .boolean value => found (.boolean value)
  | .number number => match number.value with
    | .ok (.integer value) => found (.integer value)
    | .ok (.floating value) => found (.floating value)
    | .error fault => fault
  | .string (some content) => found (.text content)
  | .string none => .malformed
  | .openArray => found .sequence
  | .openObject => found .map
  | .closeObject | .closeArray | .colon | .comma => .malformed
  | .broken cause => cause.fault

def punctuation (expected : Token) : Reader Unit
  | [] => .error .truncated
  | token :: rest => if token = expected then .ok ((), rest) else .error .malformed

def boolean : Reader Bool
  | [] => .error .truncated
  | .boolean value :: rest => .ok (value, rest)
  | token :: _ => .error (mismatch token .boolean)

def unit : Reader Unit
  | [] => .error .truncated
  | .null :: rest => .ok ((), rest)
  | token :: _ => .error (mismatch token .unit)

/-- The fault of a token in a place that only a string may take. -/
def notString : Token → Fault
  | .broken (.string sound) => (Break.string sound).fault
  | _ => .malformed

/-- The key of a member. -/
def key : Reader String
  | [] => .error .truncated
  | .string (some content) :: rest => .ok (content, rest)
  | token :: _ => .error (notString token)

/-- The name of a variant that stands as the key of an object. -/
def variantName : Reader String
  | [] => .error .truncated
  | .string (some content) :: rest => .ok (content, rest)
  | token :: _ => .error (mismatch token .variantName)

/-- A set of named variants. A variant is written as its name, if `bare` gives it a value, or as an object
whose only member has its name and a payload. -/
structure Variants (ν α : Type) where
  named? : String → Option ν
  names : List String
  bare : ν → Except Fault α
  payload : ν → Reader α

/-- The variant of a name. -/
def Variants.find {ν α : Type} (variants : Variants ν α) (name : String) : Except Fault ν :=
  match variants.named? name with
  | some variant => .ok variant
  | none => .error (.data (.unknownVariant name variants.names))

/-- Reads one of some variants. Nothing but a string or an object is even looked at. -/
def Variants.read {ν α : Type} (variants : Variants ν α) : Reader α
  | [] => .error .truncated
  | .openObject :: rest => do
    let (name, rest) ← variantName rest
    let variant ← variants.find name
    let (_, rest) ← punctuation .colon rest
    let (value, rest) ← variants.payload variant rest
    let (_, rest) ← punctuation .closeObject rest
    return (value, rest)
  | .string (some name) :: rest => do
    let variant ← variants.find name
    let value ← variants.bare variant
    return (value, rest)
  | token :: _ => .error (notString token)

/-- The value of a whole text. -/
def document {α : Type} (reader : Reader α) (text : String) : Except Fault α :=
  match reader (tokens text.toList) with
  | .ok (value, []) => .ok value
  | .ok (_, _ :: _) => .error .malformed
  | .error fault => .error fault

end ScriptNumbers.Json
