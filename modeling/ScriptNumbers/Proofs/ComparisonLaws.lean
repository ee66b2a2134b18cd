import ScriptNumbers.Operand
import ScriptNumbers.Proofs.ExactOrder

/-! The six comparisons of a number with an operand. All of them are read off one order, which has an answer unless a side
is not a number, and which an operand that is not numeric never reaches. So they obey the laws of a linear order only in
the first of three cases, and in the last not even `<>` holds. -/

namespace ScriptNumbers

namespace ComparisonOp

/-- The comparison to make when the sides are exchanged. -/
def mirrored : ComparisonOp → ComparisonOp
  | less => greater
  | lessEqual => greaterEqual
  | greater => less
  | greaterEqual => lessEqual
  | equal => equal
  | notEqual => notEqual

/-- The comparison that holds of ordered values where this one does not. -/
def opposite : ComparisonOp → ComparisonOp
  | less => greaterEqual
  | lessEqual => greater
  | greater => lessEqual
  | greaterEqual => less
  | equal => notEqual
  | notEqual => equal

/-- The comparisons of which no two hold together. -/
def exclusive : List ComparisonOp := [less, equal, greater]

/-- The one of them that holds of values in an order. -/
def ofOrder : Ordering → ComparisonOp
  | .lt => less
  | .eq => equal
  | .gt => greater

private theorem holds_mirrored (operator : ComparisonOp) (order : Option Ordering) :
    operator.mirrored.holds (order.map Ordering.swap) = operator.holds order := by
  cases order with
  | none => cases operator <;> rfl
  | some order => cases operator <;> cases order <;> rfl

private theorem holds_opposite (operator : ComparisonOp) (order : Ordering) :
    operator.opposite.holds (some order) = !operator.holds (some order) := by
  cases operator <;> cases order <;> rfl

private theorem holds_none (operator : ComparisonOp) : operator.holds none = (operator == notEqual) := by
  cases operator <;> rfl

private theorem holds_exclusive_iff {operator : ComparisonOp} (member : operator ∈ exclusive) (order : Ordering) :
    operator.holds (some order) ↔ operator = ofOrder order := by
  cases operator with
  | less | equal | greater => cases order <;> simp [holds, ofOrder]
  | lessEqual | greaterEqual | notEqual => simp [exclusive] at member

private theorem existsUnique_exclusive (order : Ordering) :
    ∃! operator, operator ∈ exclusive ∧ operator.holds (some order) := by
  have member : ofOrder order ∈ exclusive := by cases order <;> simp [exclusive, ofOrder]
  refine ⟨ofOrder order, ⟨member, (holds_exclusive_iff member order).mpr rfl⟩, ?_⟩
  intro operator only
  exact (holds_exclusive_iff only.1 order).mp only.2

end ComparisonOp

namespace Binary

variable {format : Format}

private theorem compare_swap (left right : Binary format) :
    right.compare left = (left.compare right).map Ordering.swap := by
  unfold Binary.compare
  cases left.key? with
  | none => cases right.key? <;> rfl
  | some l =>
    cases right.key? with
    | none => rfl
    | some r => exact congrArg some (Int.compare_swap l r).symm

end Binary

namespace Number

private theorem compare_swap (left right : Number) : right.compare left = (left.compare right).map Ordering.swap := by
  by_cases floating : left.toInt? = none ∨ right.toInt? = none
  · rw [compare_of_floating floating, compare_of_floating floating.symm, Binary.compare_swap]
  · simp only [not_or, ← ne_eq, Option.ne_none_iff_exists'] at floating
    obtain ⟨⟨l, leftExact⟩, ⟨r, rightExact⟩⟩ := floating
    rw [compare_of_integers leftExact rightExact, compare_of_integers rightExact leftExact, Option.map_some,
      Int.compare_swap]

private theorem doubleKey?_of_isNan {number : Number} (improper : number.isNan) :
    number.toInt? = none ∧ number.doubleKey? = none := by
  cases number with
  | int32 | int64 => cases improper
  | float value | double value =>
    cases value with
    | nan => exact ⟨rfl, rfl⟩
    | infinity | finite => cases improper

private theorem compare_of_isNan {left right : Number} (improper : left.isNan) : left.compare right = none := by
  obtain ⟨floating, unordered⟩ := doubleKey?_of_isNan improper
  rw [compare_of_floating (Or.inl floating), Binary.compare, show left.toDouble.key? = none from unordered]

private theorem exists_compare {left right : Number} (leftProper : ¬left.isNan) (rightProper : ¬right.isNan) :
    ∃ order, left.compare right = some order := by
  obtain ⟨l, leftExact⟩ := exists_toExtended? leftProper
  obtain ⟨r, rightExact⟩ := exists_toExtended? rightProper
  rcases compare_exact_or_rounded leftExact rightExact with compared | ⟨-, compared⟩
  · exact ⟨_, compared⟩
  · exact ⟨_, compared⟩

private theorem compare_eq_none_iff {left right : Number} : left.compare right = none ↔ left.isNan ∨ right.isNan := by
  constructor
  · intro unordered
    by_contra proper
    simp only [not_or] at proper
    obtain ⟨order, compared⟩ := exists_compare proper.1 proper.2
    rw [unordered] at compared
    cases compared
  · rintro (improper | improper)
    · exact compare_of_isNan improper
    · rw [compare_swap right left, compare_of_isNan improper, Option.map_none]

variable {left right : Number} {operand : Operand}

private theorem test_of_number? (numeric : operand.number? = some right) (operator : ComparisonOp) :
    left.test operator operand = operator.holds (left.compare right) := by
  simp [test, compareOperand, numeric]

private theorem test_of_not_numeric (foreign : operand.number? = none) (operator : ComparisonOp) :
    left.test operator operand = false := by
  simp [test, foreign]

/-- Two numbers have an order unless one of them is not a number, and it is reversed with the sides. Between numbers that
have one, the comparisons obey the laws of a linear order; otherwise `<>` alone holds, and none against an operand that is
not numeric. -/
theorem test_laws (left right : Number) :
    (left.compare right = none ↔ left.isNan ∨ right.isNan) ∧
    right.compare left = (left.compare right).map Ordering.swap ∧
    (∀ operand : Operand, operand.number? = some right →
      (¬left.isNan → ¬right.isNan →
        (∃! operator, operator ∈ ComparisonOp.exclusive ∧ left.test operator operand) ∧
        ∀ operator, left.test (ComparisonOp.opposite operator) operand = !left.test operator operand) ∧
      (left.isNan ∨ right.isNan → ∀ operator, left.test operator operand = (operator == .notEqual)) ∧
      ∀ exchanged : Operand, exchanged.number? = some left →
        ∀ operator, right.test (ComparisonOp.mirrored operator) exchanged = left.test operator operand) ∧
    ∀ operand : Operand, operand.number? = none → ∀ operator, left.test operator operand = false := by
  refine ⟨compare_eq_none_iff, compare_swap left right, ?_, fun operand => test_of_not_numeric⟩
  intro operand numeric
  simp only [test_of_number? numeric]
  refine ⟨?_, ?_, ?_⟩
  · intro leftProper rightProper
    obtain ⟨order, compared⟩ := exists_compare leftProper rightProper
    simp only [compared]
    exact ⟨ComparisonOp.existsUnique_exclusive order, fun operator => operator.holds_opposite order⟩
  · intro improper operator
    rw [compare_eq_none_iff.mpr improper, ComparisonOp.holds_none]
  · intro exchanged backward operator
    rw [test_of_number? backward, compare_swap left right, ComparisonOp.holds_mirrored]

/-- A long integer and the double that it is rounded to, as a foreign value, are equal in both directions. Against a
value that is not a number only `<>` holds. -/
theorem test_laws_boxed :
    (Operand.foreign "Box" (some (double (.ofInt 9007199254740992)))).number? =
      some (double (.ofInt 9007199254740992)) ∧
    (Operand.number (int64 9007199254740993)).number? = some (int64 9007199254740993) ∧
    (Operand.foreign "String" none).number? = none ∧
    ¬(int64 9007199254740993).isNan ∧ ¬(double (.ofInt 9007199254740992)).isNan ∧ (float .nan).isNan ∧
    (int64 9007199254740993).compare (double (.ofInt 9007199254740992)) = some .eq ∧
    (∃! operator, operator ∈ ComparisonOp.exclusive ∧
      (int64 9007199254740993).test operator (.foreign "Box" (some (double (.ofInt 9007199254740992))))) ∧
    (double (.ofInt 9007199254740992)).test .greaterEqual (.number (int64 9007199254740993)) =
      (int64 9007199254740993).test .lessEqual (.foreign "Box" (some (double (.ofInt 9007199254740992)))) ∧
    (float .nan).test .notEqual (.number (int64 9007199254740993)) = true ∧
    (float .nan).test .notEqual (.foreign "String" none) = false := by
  have integer : ¬(int64 9007199254740993).isNan := by decide
  have proper : ¬(double (.ofInt 9007199254740992)).isNan := by decide +kernel
  have same : (int64 9007199254740993).compare (double (.ofInt 9007199254740992)) = some .eq := by decide +kernel
  obtain ⟨-, -, boxed, -⟩ := test_laws (int64 9007199254740993) (double (.ofInt 9007199254740992))
  obtain ⟨ordered, -, exchanged⟩ := boxed (.foreign "Box" (some (double (.ofInt 9007199254740992)))) rfl
  obtain ⟨-, -, unordered, foreign⟩ := test_laws (float .nan) (int64 9007199254740993)
  exact ⟨rfl, rfl, rfl, integer, proper, rfl, same, (ordered integer proper).1,
    exchanged (.number (int64 9007199254740993)) rfl .lessEqual,
    (unordered (.number (int64 9007199254740993)) rfl).2.1 (Or.inl rfl) .notEqual,
    foreign (.foreign "String" none) rfl .notEqual⟩

end Number

end ScriptNumbers
