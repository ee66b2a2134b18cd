import ScriptNumbers.Proofs.Expressions

/-! The kind of an expression's value is known before the value is. All that can go wrong is a zero divisor, and the
report of it names the kinds that were known for the two sides of the operator. -/

namespace ScriptNumbers

namespace ArithmeticOp

/-- The kind of a result, from the kinds of the operands. -/
def resultKind (operator : ArithmeticOp) (left right : Kind) : Kind :=
  match operator with
  | add | subtract | multiply | divide | modulo => max left right
  | intDivide => if right = .int64 then .int64 else .int32
  | power => if left = .double ∨ right = .double then .double else .float

end ArithmeticOp

namespace Promoted

def kind : Promoted → Kind
  | int32 .. => .int32
  | int64 .. => .int64
  | float .. => .float
  | double .. => .double

theorem kind_of (left right : Number) : (of left right).kind = max left.kind right.kind := by
  unfold of
  cases max left.kind right.kind <;> rfl

theorem kind_combine (onInt32 : Int32 → Int32 → Int32) (onInt64 : Int64 → Int64 → Int64)
    (onDouble : Double → Double → Double) (operands : Promoted) :
    (operands.combine onInt32 onInt64 onDouble).kind = operands.kind := by
  cases operands <;> rfl

end Promoted

namespace Number

theorem kind_negate (number : Number) : number.negate.kind = number.kind := by
  cases number <;> rfl

private theorem kind_into (kind : Kind) (quotient : IntegerQuotient) :
    (quotient.into kind).kind = if kind = .int64 then .int64 else .int32 := by
  cases quotient <;> cases kind <;> rfl

private theorem kind_power (base exponent : Number) :
    (base.power exponent).kind = ArithmeticOp.power.resultKind base.kind exponent.kind := by
  simp only [power, ArithmeticOp.resultKind]
  split <;> rfl

/-- One operator has a result of the kind that its rule says, or it is one that divides and reports the kinds of its
operands. -/
theorem applyNumber_outcome (left : Number) (operator : ArithmeticOp) (right : Number) :
    (∃ result, left.applyNumber operator right = .ok result ∧
      result.kind = operator.resultKind left.kind right.kind) ∨
    operator ∈ [.divide, .modulo, .intDivide] ∧
      left.applyNumber operator right = .error (.divisionByZero operator left.kind right.kind) := by
  have promoted (onInt32 onInt64 onDouble) :
      ((Promoted.of left right).combine onInt32 onInt64 onDouble).kind = max left.kind right.kind := by
    rw [Promoted.kind_combine, Promoted.kind_of]
  cases operator with
  | add | subtract | multiply => exact Or.inl ⟨_, rfl, promoted _ _ _⟩
  | divide =>
    simp only [applyNumber, divide]
    split
    · exact Or.inr ⟨by simp, rfl⟩
    · exact Or.inl ⟨_, rfl, promoted _ _ _⟩
  | modulo =>
    simp only [applyNumber, modulo]
    split
    · exact Or.inr ⟨by simp, rfl⟩
    · exact Or.inl ⟨_, rfl, promoted _ _ _⟩
  | intDivide =>
    simp only [applyNumber, intDivide]
    split
    · exact Or.inr ⟨by simp, rfl⟩
    · exact Or.inl ⟨_, rfl, kind_into _ _⟩
  | power => exact Or.inl ⟨_, rfl, kind_power left right⟩

end Number

namespace Expression

/-- The kind of the value, from the leaves up. -/
def staticKind : Expression → Kind
  | number value => value.kind
  | apply left operator right => operator.resultKind left.staticKind right.staticKind
  | negate source => source.staticKind
  | cast kind _ => kind

/-- A node of an expression, which may be its root. -/
inductive Within (node : Expression) : Expression → Prop where
  | root : Within node node
  | left {left operator right} (inside : Within node left) : Within node (.apply left operator right)
  | right {left operator right} (inside : Within node right) : Within node (.apply left operator right)
  | negate {source} (inside : Within node source) : Within node (.negate source)
  | cast {kind source} (inside : Within node source) : Within node (.cast kind source)

/-- An operator that divides, with values on both sides for which it has no result. -/
structure DividesByZero (left : Expression) (operator : ArithmeticOp) (right : Expression) : Prop where
  divides : operator ∈ [.divide, .modulo, .intDivide]
  fails : ∃ leftValue rightValue, left.evaluate = .ok leftValue ∧ right.evaluate = .ok rightValue ∧
    leftValue.apply operator (.number rightValue) = .error (.divisionByZero operator left.staticKind right.staticKind)

/-- The report of a node that divides by zero. -/
def Reports (tree : Expression) (error : NumericError) : Prop :=
  ∃ left operator right, Within (.apply left operator right) tree ∧ DividesByZero left operator right ∧
    error = .divisionByZero operator left.staticKind right.staticKind

variable {left right source tree : Expression} {operator : ArithmeticOp} {error : NumericError}

private theorem Reports.lift (reports : source.Reports error)
    (keeps : ∀ {node}, Within node source → Within node tree) : tree.Reports error := by
  obtain ⟨left, operator, right, inside, stuck, report⟩ := reports
  exact ⟨left, operator, right, keeps inside, stuck, report⟩

private theorem evaluate_left_error (failed : left.evaluate = .error error) :
    (left.apply operator right).evaluate = .error error := by
  simp only [evaluate, failed]

private theorem evaluate_right_error {leftValue : Number} (done : left.evaluate = .ok leftValue)
    (failed : right.evaluate = .error error) : (left.apply operator right).evaluate = .error error := by
  simp only [evaluate, done, failed]

/-- One node: with values of the known kinds on both sides, it has such a value itself or is the node that fails. -/
theorem apply_outcome {leftValue rightValue : Number} (leftDone : left.evaluate = .ok leftValue)
    (rightDone : right.evaluate = .ok rightValue) (leftKind : leftValue.kind = left.staticKind)
    (rightKind : rightValue.kind = right.staticKind) :
    (∃ value, (left.apply operator right).evaluate = .ok value ∧
      value.kind = (left.apply operator right).staticKind) ∨
    ∃ error, (left.apply operator right).evaluate = .error error ∧ (left.apply operator right).Reports error := by
  have applied := evaluate_apply operator leftDone rightDone
  rcases leftValue.applyNumber_outcome operator rightValue with ⟨value, done, result⟩ | ⟨divides, failed⟩
  · left
    refine ⟨value, applied.trans done, ?_⟩
    rw [result, leftKind, rightKind]
    rfl
  · right
    rw [leftKind, rightKind] at failed
    have stuck : DividesByZero left operator right := ⟨divides, leftValue, rightValue, leftDone, rightDone, failed⟩
    exact ⟨_, applied.trans failed, left, operator, right, .root, stuck, rfl⟩

/-- A value has the kind known for its expression. An expression without a value has a node that divides by zero, and
its error is the report of that node. -/
theorem evaluate_staticKind (tree : Expression) :
    (∃ value, tree.evaluate = .ok value ∧ value.kind = tree.staticKind) ∨
      ∃ error, tree.evaluate = .error error ∧ tree.Reports error := by
  induction tree with
  | number value => exact Or.inl ⟨value, rfl, rfl⟩
  | apply left operator right leftOutcome rightOutcome =>
    rcases leftOutcome with ⟨leftValue, leftDone, leftKind⟩ | ⟨error, failed, reports⟩
    · rcases rightOutcome with ⟨rightValue, rightDone, rightKind⟩ | ⟨error, failed, reports⟩
      · exact apply_outcome leftDone rightDone leftKind rightKind
      · exact Or.inr ⟨error, evaluate_right_error leftDone failed, reports.lift .right⟩
    · exact Or.inr ⟨error, evaluate_left_error failed, reports.lift .left⟩
  | negate source outcome =>
    rcases outcome with ⟨value, done, kind⟩ | ⟨error, failed, reports⟩
    · exact Or.inl ⟨value.negate, evaluate_negate done, value.kind_negate.trans kind⟩
    · refine Or.inr ⟨error, ?_, reports.lift .negate⟩
      simp only [evaluate, failed, Except.map]
  | cast kind source outcome =>
    rcases outcome with ⟨value, done, -⟩ | ⟨error, failed, reports⟩
    · refine Or.inl ⟨value.cast kind, ?_, value.kind_cast kind⟩
      simp only [evaluate, done, Except.map]
    · refine Or.inr ⟨error, ?_, reports.lift .cast⟩
      simp only [evaluate, failed, Except.map]

/-- A narrow divisor makes a long quotient narrow, and the operator above it reports it so. -/
example : (Expression.apply (.apply (.number (.int64 7)) .intDivide (.number (.int32 2))) .modulo
    (.number (.int32 0))).evaluate = .error (.divisionByZero .modulo .int32 .int32) := by
  rfl

end Expression

end ScriptNumbers
