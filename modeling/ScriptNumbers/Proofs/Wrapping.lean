import Mathlib.Data.Int.ModEq
import ScriptNumbers.Proofs.Expressions

/-! Integer expressions with the operators that wrap. Wrapping is a ring map, so no overflow on the way can
spoil the low half of a result. The high half of a long integer is spoiled only where a value was narrow
when it overflowed, that is in the maximal narrow parts of the expression. -/

namespace ScriptNumbers.Proofs.Wrapping

/-- The binary operators that have a result for all integers. -/
inductive RingOperator where
  | add
  | subtract
  | multiply
deriving DecidableEq

namespace RingOperator

def operator : RingOperator → ArithmeticOp
  | add => .add
  | subtract => .subtract
  | multiply => .multiply

def onInt : RingOperator → Int → Int → Int
  | add => (· + ·)
  | subtract => (· - ·)
  | multiply => (· * ·)

def onInt32 : RingOperator → Int32 → Int32 → Int32
  | add => (· + ·)
  | subtract => (· - ·)
  | multiply => (· * ·)

def onInt64 : RingOperator → Int64 → Int64 → Int64
  | add => (· + ·)
  | subtract => (· - ·)
  | multiply => (· * ·)

private theorem ofInt32_onInt (operator : RingOperator) (left right : Int) :
    Int32.ofInt (operator.onInt left right) = operator.onInt32 (.ofInt left) (.ofInt right) := by
  cases operator <;> simp [onInt, onInt32]

private theorem ofInt64_onInt (operator : RingOperator) (left right : Int) :
    Int64.ofInt (operator.onInt left right) = operator.onInt64 (.ofInt left) (.ofInt right) := by
  cases operator <;> simp [onInt, onInt64]

private theorem toInt32_onInt64 (operator : RingOperator) (left right : Int64) :
    (operator.onInt64 left right).toInt32 = operator.onInt32 left.toInt32 right.toInt32 := by
  cases operator <;> simp [onInt64, onInt32]

private theorem applyNumber_of_int32 (operator : RingOperator) {left right : Number} {leftWord rightWord : Int32}
    (promoted : Promoted.of left right = .int32 leftWord rightWord) :
    left.applyNumber operator.operator right = .ok (.int32 (operator.onInt32 leftWord rightWord)) := by
  cases operator <;>
    simp [operator, onInt32, Number.applyNumber, Number.add, Number.subtract, Number.multiply, promoted,
      Promoted.combine]

private theorem applyNumber_of_int64 (operator : RingOperator) {left right : Number} {leftWord rightWord : Int64}
    (promoted : Promoted.of left right = .int64 leftWord rightWord) :
    left.applyNumber operator.operator right = .ok (.int64 (operator.onInt64 leftWord rightWord)) := by
  cases operator <;>
    simp [operator, onInt64, Number.applyNumber, Number.add, Number.subtract, Number.multiply, promoted,
      Promoted.combine]

end RingOperator

/-- Integer expressions. The leaves may be of either width, in any mix. -/
inductive Polynomial where
  | int32 (value : Int32)
  | int64 (value : Int64)
  | combine (left : Polynomial) (operator : RingOperator) (right : Polynomial)
  | negate (source : Polynomial)
deriving DecidableEq

namespace Polynomial

def expression : Polynomial → Expression
  | int32 value => .number (.int32 value)
  | int64 value => .number (.int64 value)
  | combine left operator right => left.expression.apply operator.operator right.expression
  | negate source => source.expression.negate

def exact : Polynomial → Int
  | int32 value => value.toInt
  | int64 value => value.toInt
  | combine left operator right => operator.onInt left.exact right.exact
  | negate source => -source.exact

def leafKinds : Polynomial → List Kind
  | int32 _ => [.int32]
  | int64 _ => [.int64]
  | combine left _ right => left.leafKinds ++ right.leafKinds
  | negate source => source.leafKinds

def Narrow (tree : Polynomial) : Prop := .int64 ∉ tree.leafKinds

instance (tree : Polynomial) : Decidable tree.Narrow := inferInstanceAs (Decidable (_ ∉ _))

/-- The narrow subtrees that are in no larger narrow subtree. -/
def narrowParts (tree : Polynomial) : List Polynomial :=
  if tree.Narrow then [tree] else match tree with
    | int32 _ | int64 _ => []
    | combine left _ right => left.narrowParts ++ right.narrowParts
    | negate source => source.narrowParts

/-- The exact value of every maximal narrow subtree is a narrow integer. -/
def NarrowPartsFit (tree : Polynomial) : Prop :=
  ∀ part ∈ tree.narrowParts, Int32.minValue.toInt ≤ part.exact ∧ part.exact ≤ Int32.maxValue.toInt

private theorem narrow_combine {left right : Polynomial} {operator : RingOperator} :
    (combine left operator right).Narrow ↔ left.Narrow ∧ right.Narrow := by
  simp [Narrow, leafKinds]

private theorem narrowPartsFit_of_narrow {tree : Polynomial} (narrow : tree.Narrow) (fit : tree.NarrowPartsFit) :
    Int32.minValue.toInt ≤ tree.exact ∧ tree.exact ≤ Int32.maxValue.toInt := by
  apply fit
  rw [narrowParts.eq_def, if_pos narrow]
  exact List.mem_singleton_self tree

private theorem narrowParts_combine {left right : Polynomial} {operator : RingOperator}
    (wide : ¬(combine left operator right).Narrow) :
    (combine left operator right).narrowParts = left.narrowParts ++ right.narrowParts := by
  rw [narrowParts.eq_def, if_neg wide]

private theorem narrowParts_negate {source : Polynomial} (wide : ¬source.negate.Narrow) :
    source.negate.narrowParts = source.narrowParts := by
  rw [narrowParts.eq_def, if_neg wide]

private theorem narrowPartsFit_combine {left right : Polynomial} {operator : RingOperator}
    (wide : ¬(combine left operator right).Narrow) (fit : (combine left operator right).NarrowPartsFit) :
    left.NarrowPartsFit ∧ right.NarrowPartsFit := by
  simp only [NarrowPartsFit, narrowParts_combine wide, List.mem_append] at fit
  exact ⟨fun part member => fit part (Or.inl member), fun part member => fit part (Or.inr member)⟩

private theorem narrowPartsFit_negate {source : Polynomial} (wide : ¬source.negate.Narrow)
    (fit : source.negate.NarrowPartsFit) : source.NarrowPartsFit := by
  simpa only [NarrowPartsFit, narrowParts_negate wide] using fit

private theorem leafKinds_ne_nil (tree : Polynomial) : tree.leafKinds ≠ [] := by
  induction tree with
  | int32 value => exact List.cons_ne_nil _ _
  | int64 value => exact List.cons_ne_nil _ _
  | combine left operator right leftSome rightSome => simp [leafKinds, leftSome]
  | negate source sourceSome => exact sourceSome

private theorem not_narrow_of_wide {tree : Polynomial} (wide : ∀ kind ∈ tree.leafKinds, kind = .int64) :
    ¬tree.Narrow := by
  obtain ⟨kind, member⟩ := List.exists_mem_of_ne_nil _ tree.leafKinds_ne_nil
  exact fun narrow => narrow (wide kind member ▸ member)

private theorem narrowParts_of_wide {tree : Polynomial} (wide : ∀ kind ∈ tree.leafKinds, kind = .int64) :
    tree.narrowParts = [] := by
  induction tree with
  | int32 value => cases wide .int32 (List.mem_singleton_self _)
  | int64 value => rfl
  | combine left operator right leftParts rightParts =>
    rw [narrowParts_combine (not_narrow_of_wide wide), leftParts fun kind member => wide kind (List.mem_append_left _ member),
      rightParts fun kind member => wide kind (List.mem_append_right _ member), List.append_nil]
  | negate source sourceParts =>
    rw [narrowParts_negate (not_narrow_of_wide wide)]
    exact sourceParts wide

/-- Without narrow leaves there are no narrow parts that could overflow. -/
theorem narrowPartsFit_of_wide {tree : Polynomial} (wide : ∀ kind ∈ tree.leafKinds, kind = .int64) :
    tree.NarrowPartsFit := by
  simp [NarrowPartsFit, narrowParts_of_wide wide]

/-- What a result tells of the exact value. The low half is always right. -/
structure Follows (tree : Polynomial) (result : Number) : Prop where
  kind : result.kind = if tree.Narrow then .int32 else .int64
  low : result.toInt32 = .ofInt tree.exact
  whole : tree.NarrowPartsFit → result.toInt64 = .ofInt tree.exact

/-- In a narrow tree nothing but the range of its own value matters for the whole result. -/
theorem follows_of_narrow {tree : Polynomial} (narrow : tree.Narrow) :
    tree.Follows (.int32 (.ofInt tree.exact)) where
  kind := (if_pos narrow).symm
  low := rfl
  whole fit := by
    obtain ⟨above, below⟩ := narrowPartsFit_of_narrow narrow fit
    exact Int32.toInt64_ofInt above below

private theorem Follows.eq_of_narrow {tree : Polynomial} {result : Number} (follows : tree.Follows result)
    (narrow : tree.Narrow) : result = .int32 (.ofInt tree.exact) := by
  have kind := follows.kind
  rw [if_pos narrow] at kind
  cases result with
  | int32 value => exact congrArg Number.int32 follows.low
  | int64 value => cases kind
  | float value => cases kind
  | double value => cases kind

private theorem Follows.low_of_widened {tree : Polynomial} {result : Number} (follows : tree.Follows result) :
    result.toInt64.toInt32 = .ofInt tree.exact := by
  rw [← follows.low]
  have kind := follows.kind
  cases result with
  | int32 value => exact Int32.toInt32_toInt64 value
  | int64 value => rfl
  | float value => split at kind <;> cases kind
  | double value => split at kind <;> cases kind

private theorem Follows.promoted_of_wide {left right : Polynomial} {leftValue rightValue : Number}
    (leftFollows : left.Follows leftValue) (rightFollows : right.Follows rightValue)
    (wide : ¬(left.Narrow ∧ right.Narrow)) :
    Promoted.of leftValue rightValue = .int64 leftValue.toInt64 rightValue.toInt64 := by
  have kind : max leftValue.kind rightValue.kind = .int64 := by
    rw [leftFollows.kind, rightFollows.kind]
    by_cases leftNarrow : left.Narrow
    · rw [if_pos leftNarrow, if_neg (fun rightNarrow => wide ⟨leftNarrow, rightNarrow⟩)]
      rfl
    · rw [if_neg leftNarrow]
      split <;> rfl
  simp only [Promoted.of, kind]

private theorem Follows.combine {left right : Polynomial} {leftValue rightValue : Number} (operator : RingOperator)
    (leftFollows : left.Follows leftValue) (rightFollows : right.Follows rightValue) :
    ∃ result, leftValue.applyNumber operator.operator rightValue = .ok result ∧
      (Polynomial.combine left operator right).Follows result := by
  by_cases narrow : left.Narrow ∧ right.Narrow
  · refine ⟨_, ?_, follows_of_narrow (narrow_combine.mpr narrow)⟩
    rw [leftFollows.eq_of_narrow narrow.1, rightFollows.eq_of_narrow narrow.2, operator.applyNumber_of_int32 rfl,
      exact, operator.ofInt32_onInt]
    rfl
  · have wide : ¬(Polynomial.combine left operator right).Narrow := fun both => narrow (narrow_combine.mp both)
    refine ⟨_, operator.applyNumber_of_int64 (leftFollows.promoted_of_wide rightFollows narrow), (if_neg wide).symm,
      ?_, ?_⟩
    · rw [exact, operator.ofInt32_onInt, ← leftFollows.low_of_widened, ← rightFollows.low_of_widened]
      exact operator.toInt32_onInt64 _ _
    · intro fit
      obtain ⟨leftFit, rightFit⟩ := narrowPartsFit_combine wide fit
      rw [exact, operator.ofInt64_onInt, ← leftFollows.whole leftFit, ← rightFollows.whole rightFit]
      rfl

private theorem Follows.negate {source : Polynomial} {value : Number} (follows : source.Follows value) :
    source.negate.Follows value.negate := by
  by_cases narrow : source.negate.Narrow
  · rw [follows.eq_of_narrow narrow]
    have result := follows_of_narrow narrow
    rwa [exact, Int32.ofInt_neg] at result
  · have kind : value.kind = .int64 := follows.kind.trans (if_neg narrow)
    cases value with
    | int64 word =>
      refine ⟨(if_neg narrow).symm, ?_, fun fit => ?_⟩
      · rw [exact, Int32.ofInt_neg, ← follows.low]
        exact Int64.toInt32_neg word
      · rw [exact, Int64.ofInt_neg, ← follows.whole (narrowPartsFit_negate narrow fit)]
        rfl
    | int32 word => cases kind
    | float word => cases kind
    | double word => cases kind

/-- Evaluation has a result, and the result follows the tree. -/
theorem evaluates (tree : Polynomial) : ∃ result, tree.expression.evaluate = .ok result ∧ tree.Follows result := by
  induction tree with
  | int32 value =>
    have narrow : (int32 value).Narrow := by simp [Narrow, leafKinds]
    have follows := follows_of_narrow narrow
    rw [exact, Int32.ofInt_toInt] at follows
    exact ⟨_, rfl, follows⟩
  | int64 value => exact ⟨_, rfl, rfl, by simp [exact, Number.toInt32], by simp [exact, Number.toInt64]⟩
  | combine left operator right leftEvaluates rightEvaluates =>
    obtain ⟨leftValue, leftDone, leftFollows⟩ := leftEvaluates
    obtain ⟨rightValue, rightDone, rightFollows⟩ := rightEvaluates
    obtain ⟨result, applied, follows⟩ := leftFollows.combine operator rightFollows
    exact ⟨result, (Expression.evaluate_apply operator.operator leftDone rightDone).trans applied, follows⟩
  | negate source sourceEvaluates =>
    obtain ⟨value, done, follows⟩ := sourceEvaluates
    exact ⟨value.negate, Expression.evaluate_negate done, follows.negate⟩

end Polynomial

private theorem modEq_of_ofInt32_eq {value : Int} {word : Int32} (same : word = .ofInt value) :
    word.toInt ≡ value [ZMOD 2 ^ 32] := by
  rw [same, Int32.toInt_ofInt]
  exact Int.bmod_emod

private theorem modEq_of_ofInt64_eq {value : Int} {word : Int64} (same : word = .ofInt value) :
    word.toInt ≡ value [ZMOD 2 ^ 64] := by
  rw [same, Int64.toInt_ofInt]
  exact Int.bmod_emod

private theorem modEq_of_toInt32_eq {value : Int} {word : Int64} (same : word.toInt32 = .ofInt value) :
    word.toInt ≡ value [ZMOD 2 ^ 32] := by
  have low := modEq_of_ofInt32_eq same
  rw [Int64.toInt_toInt32] at low
  exact (Int.bmod_emod (x := word.toInt) (m := 2 ^ 32)).symm.trans low

open Wrapping.Polynomial in
/-- The low half of a result is that of the exact value, and so is the whole result if it is long and no narrow
part of the expression has overflowed, as when there are no narrow leaves. -/
theorem evaluate_congruent (tree : Polynomial) :
    ∃ result value, tree.expression.evaluate = .ok result ∧ result.toInt? = some value ∧
      result.kind = (if .int64 ∈ tree.leafKinds then .int64 else .int32) ∧
      value ≡ tree.exact [ZMOD 2 ^ 32] ∧
      (result.kind = .int64 → tree.NarrowPartsFit → value ≡ tree.exact [ZMOD 2 ^ 64]) ∧
      ((∀ kind ∈ tree.leafKinds, kind = .int64) → value ≡ tree.exact [ZMOD 2 ^ 64]) := by
  obtain ⟨result, done, follows⟩ := tree.evaluates
  have kind : result.kind = if .int64 ∈ tree.leafKinds then .int64 else .int32 := by
    rw [follows.kind]
    exact ite_not _ _ _
  cases result with
  | int32 word =>
    refine ⟨_, _, done, rfl, kind, modEq_of_ofInt32_eq follows.low, nofun, fun wide => ?_⟩
    have narrow := follows.kind
    rw [if_neg (not_narrow_of_wide wide)] at narrow
    cases narrow
  | int64 word =>
    have whole (fit : tree.NarrowPartsFit) := modEq_of_ofInt64_eq (follows.whole fit)
    exact ⟨_, _, done, rfl, kind, modEq_of_toInt32_eq follows.low, fun _ => whole,
      fun wide => whole (narrowPartsFit_of_wide wide)⟩
  | float word => split at kind <;> cases kind
  | double word => split at kind <;> cases kind

end ScriptNumbers.Proofs.Wrapping
