import ScriptNumbers.Json.Writer
import ScriptNumbers.Text.Quoted

/-! Why a JSON text is not accepted: it is no JSON, it ends too early, or it is JSON of the wrong content. -/

namespace ScriptNumbers.Json

/-- What stood in a place where something else was expected. -/
inductive Found where
  | null
  | boolean (value : Bool)
  | integer (value : Int)
  | floating (value : Double)
  | text (content : String)
  | sequence
  | map
  | bareVariant
deriving DecidableEq

def Found.describe : Found → String
  | null => "null"
  | boolean value => "boolean `" ++ String.ofList (boolText value) ++ "`"
  | integer value => "integer `" ++ String.ofList (integerText value) ++ "`"
  | floating value => "floating point `" ++ String.ofList (doubleText value) ++ "`"
  | text content => "string " ++ Text.quoted content
  | sequence => "sequence"
  | map => "map"
  | bareVariant => "unit variant"

inductive Expected where
  | boolean
  | number (kind : Kind)
  | unit
  | settings
  | variantName
  | payload
deriving DecidableEq

def Expected.describe : Expected → String
  | boolean => "a boolean"
  | number .int32 => "i32"
  | number .int64 => "i64"
  | number .float => "f32"
  | number .double => "f64"
  | unit => "unit"
  | settings => "struct LiteralConfig"
  | variantName => "variant identifier"
  | payload => "newtype variant"

inductive DataFault where
  | invalidType (found : Found) (expected : Expected)
  | outOfRange (value : Int) (kind : Kind)
  | unknownVariant (name : String) (known : List String)
  | duplicateField (name : String)
deriving DecidableEq

/-- The alternatives of a choice. -/
def alternatives (names : List String) : String :=
  match names.map fun name => "`" ++ name ++ "`" with
  | [first, second] => first ++ " or " ++ second
  | quoted => "one of " ++ ", ".intercalate quoted

def DataFault.message : DataFault → String
  | invalidType found expected => "invalid type: " ++ found.describe ++ ", expected " ++ expected.describe
  | outOfRange value kind =>
    "invalid value: " ++ (Found.integer value).describe ++ ", expected " ++ (Expected.number kind).describe
  | unknownVariant name known => "unknown variant `" ++ name ++ "`, expected " ++ alternatives known
  | duplicateField name => "duplicate field `" ++ name ++ "`"

inductive Fault where
  | malformed
  | truncated
  | data (fault : DataFault)
deriving DecidableEq

end ScriptNumbers.Json
