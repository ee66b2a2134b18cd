import ScriptNumbers.Json.Reader

/-! Skipping a value of any content. The open brackets are kept on a stack, so the nesting may have any
depth, and each token is looked at once. Strings and numbers are not evaluated: escapes need not denote
characters, and numbers may have any size. -/

namespace ScriptNumbers.Json

inductive Bracket where
  | array
  | object
deriving DecidableEq

/-- What comes next inside the brackets that are open. -/
inductive Awaited where
  | value
  | firstItem
  | firstKey
  | key
  | colon
  | separator
deriving DecidableEq

/-- The fault of a break in a skipped value. A number that is cut short is no number, and of a string only
the end is missing. -/
def Break.skipFault : Break → Fault
  | character | number => .malformed
  | word | string _ => .truncated

/-- What one token does to the open brackets. -/
def advance (awaited : Awaited) (stack : List Bracket) (token : Token) :
    Except Fault (Awaited × List Bracket) :=
  match awaited, token, stack with
  | .value, .openArray, _ | .firstItem, .openArray, _ => .ok (.firstItem, .array :: stack)
  | .value, .openObject, _ | .firstItem, .openObject, _ => .ok (.firstKey, .object :: stack)
  | .firstItem, .closeArray, _ :: stack | .firstKey, .closeObject, _ :: stack => .ok (.separator, stack)
  | .value, .null, _ | .value, .boolean _, _ | .value, .number _, _ | .value, .string _, _
  | .firstItem, .null, _ | .firstItem, .boolean _, _ | .firstItem, .number _, _ | .firstItem, .string _, _ =>
    .ok (.separator, stack)
  | .value, .broken cause, _ | .firstItem, .broken cause, _ => .error cause.skipFault
  | .firstKey, .string _, _ | .key, .string _, _ => .ok (.colon, stack)
  | .firstKey, .broken (.string sound), _ | .key, .broken (.string sound), _ =>
    .error (Break.string sound).skipFault
  | .colon, .colon, _ => .ok (.value, stack)
  | .separator, .comma, .array :: _ => .ok (.value, stack)
  | .separator, .comma, .object :: _ => .ok (.key, stack)
  | .separator, .closeArray, .array :: stack | .separator, .closeObject, .object :: stack =>
    .ok (.separator, stack)
  | _, _, _ => .error .malformed

/-- The tokens behind the value that is under way. It is complete when no bracket is open any more. -/
def skipFrom (awaited : Awaited) (stack : List Bracket) : List Token → Except Fault (List Token)
  | [] => .error .truncated
  | token :: rest =>
    match advance awaited stack token with
    | .error fault => .error fault
    | .ok (.separator, []) => .ok rest
    | .ok (awaited, stack) => skipFrom awaited stack rest

def skip : Reader Unit := fun tokens => (skipFrom .value [] tokens).map ((), ·)

end ScriptNumbers.Json
