import ScriptNumbers.Number.Arithmetic
import ScriptNumbers.Number.Order

/-! Right operands of expressions: numbers, or values of the surrounding interpreter, which may be numeric
under a type name of their own. -/

namespace ScriptNumbers

inductive Operand where
  | number (value : Number)
  | foreign (typeName : String) (value : Option Number)
deriving DecidableEq

namespace Operand

def number? : Operand → Option Number
  | number value => some value
  | foreign _ value => value

def typeName : Operand → String
  | number value => value.kind.typeName
  | foreign name _ => name

end Operand

namespace Number

/-- The result of an operator on two numbers. -/
def applyNumber (left : Number) (operator : ArithmeticOp) (right : Number) : Except NumericError Number :=
  match operator with
  | .add => .ok (left.add right)
  | .subtract => .ok (left.subtract right)
  | .multiply => .ok (left.multiply right)
  | .divide => left.divide right
  | .modulo => left.modulo right
  | .intDivide => left.intDivide right
  | .power => .ok (left.power right)

def apply (left : Number) (operator : ArithmeticOp) (right : Operand) : Except NumericError Number :=
  match right.number? with
  | some value => left.applyNumber operator value
  | none => .error (.notNumeric operator left.kind right.typeName)

/-- Order against an operand, if it is numeric and the two are ordered. -/
def compareOperand (left : Number) (right : Operand) : Option Ordering := right.number?.bind left.compare

/-- Every comparison with an operand that is not numeric is false, `<>` too. -/
def test (left : Number) (operator : ComparisonOp) (right : Operand) : Bool :=
  right.number?.isSome && operator.holds (left.compareOperand right)

end Number

end ScriptNumbers
