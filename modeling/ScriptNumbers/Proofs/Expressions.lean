import ScriptNumbers.Operand

/-! Expressions that an interpreter evaluates bottom-up. Operators take the values of both sides, so the
first side without a value decides the error. -/

namespace ScriptNumbers

inductive Expression where
  | number (value : Number)
  | apply (left : Expression) (operator : ArithmeticOp) (right : Expression)
  | negate (source : Expression)
  | cast (kind : Kind) (source : Expression)

namespace Expression

def evaluate : Expression → Except NumericError Number
  | number value => .ok value
  | apply left operator right =>
    match left.evaluate, right.evaluate with
    | .ok leftValue, .ok rightValue => leftValue.apply operator (.number rightValue)
    | .error error, _ => .error error
    | .ok _, .error error => .error error
  | negate source => source.evaluate.map Number.negate
  | cast kind source => source.evaluate.map (·.cast kind)

theorem evaluate_apply {left right : Expression} {leftValue rightValue : Number} (operator : ArithmeticOp)
    (leftDone : left.evaluate = .ok leftValue) (rightDone : right.evaluate = .ok rightValue) :
    (left.apply operator right).evaluate = leftValue.applyNumber operator rightValue := by
  simp only [evaluate, leftDone, rightDone]
  rfl

theorem evaluate_negate {source : Expression} {value : Number} (done : source.evaluate = .ok value) :
    source.negate.evaluate = .ok value.negate := by
  simp only [evaluate, done]
  rfl

end Expression

end ScriptNumbers
