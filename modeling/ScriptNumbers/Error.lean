import ScriptNumbers.Kind
import ScriptNumbers.Operator

/-! Why a text is not a number, why an operation has no result, and the messages that say so. -/

namespace ScriptNumbers

/-- What is wrong with the text of a number. -/
inductive Reason where
  | emptyInteger
  | invalidDigit
  | tooLarge
  | tooSmall
  | emptyFloat
  | invalidFloat
  | unexpectedInput (column : Nat)
  | emptyLiteral
  | noDigits
  | missingDigits
  | unexpectedToken (name : String)
  | unknownSuffix (text : String)
  | suffixesDisabled
  | hexDisabled
  | hexFloating
  | fractionOnInteger
deriving DecidableEq, Repr

def Reason.message : Reason → String
  | emptyInteger => "cannot parse integer from empty string"
  | invalidDigit => "invalid digit found in string"
  | tooLarge => "number too large to fit in target type"
  | tooSmall => "number too small to fit in target type"
  | emptyFloat => "cannot parse float from empty string"
  | invalidFloat => "invalid float literal"
  | unexpectedInput column => "unexpected input at column " ++ toString column
  | emptyLiteral => "empty literal"
  | noDigits => "no digits"
  | missingDigits => "missing digits"
  | unexpectedToken name => "unexpected token: " ++ name
  | unknownSuffix text => "unknown suffix `" ++ text ++ "`"
  | suffixesDisabled => "type suffixes are disabled"
  | hexDisabled => "hexadecimal literals are disabled"
  | hexFloating => "hexadecimal literals are always integers"
  | fractionOnInteger => "fraction or exponent on an integer"

/-- A text that is not a number. The kind is missing if the text was to decide it and did not get that far;
the text is the one given, blanks included. -/
structure ParseError where
  kind : Option Kind
  text : String
  reason : Reason
deriving DecidableEq, Repr

def ParseError.message (error : ParseError) : String :=
  let expected := (error.kind.map Kind.typeName).getD "numeric"
  "`" ++ error.text ++ "` is not a valid " ++ expected ++ " literal: " ++ error.reason.message

/-- An operation without a result. Operators work on numbers, so a text that is not one is no such error: it has been a
`ParseError` before. -/
inductive NumericError where
  | notNumeric (operator : ArithmeticOp) (left : Kind) (right : String)
  | divisionByZero (operator : ArithmeticOp) (left right : Kind)
deriving DecidableEq, Repr

def NumericError.message : NumericError → String
  | notNumeric operator left right =>
    "binary operation " ++ operator.spelling ++ " cannot be applied to " ++ left.typeName ++ " and " ++ right
  | divisionByZero operator left right =>
    "divide by zero in " ++ left.typeName ++ " " ++ operator.spelling ++ " " ++ right.typeName

end ScriptNumbers
