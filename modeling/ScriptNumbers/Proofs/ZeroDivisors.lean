import ScriptNumbers.Operand
import ScriptNumbers.Proofs.FloatArithmetic

/-! When an operator has no result. The divisor is looked at after both operands have been promoted, and promotion neither
loses a zero nor makes one: not as a word of the wider kind, and not as a double. A floating quotient always has a value,
and only one that is to be an integer is refused a zero. -/

namespace ScriptNumbers

namespace Kind

theorem isInteger_max {left right : Kind} : (max left right).isInteger ↔ left.isInteger ∧ right.isInteger := by
  cases left <;> cases right <;> decide

theorem eq_int32_of_max {left right : Kind} (narrow : max left right = int32) : right = int32 := by
  cases left <;> cases right <;> first | rfl | cases narrow

end Kind

namespace Binary

open Format

variable {format : Format}

theorem isZero_iff {value : Binary format} : value.isZero ↔ value.toRat? = some 0 := by
  cases value with
  | nan | infinity negative => simp [isZero, toRat?]
  | finite negative rank =>
    have zero : format.magnitude rank = 0 ↔ rank.val = 0 := by
      rw [← format.magnitude_zero, format.magnitude_strictMono.injective.eq_iff]
    cases negative <;> simp [isZero, toRat?, signedMagnitude, zero]

private theorem isZero_ofRank {rank : Nat} (nonzero : rank ≠ 0) (negative : Bool) :
    ¬(ofRank negative rank : Binary format).isZero := by
  rw [ofRank]
  split <;> simp [isZero, nonzero]

/-- An integer other than zero is too large for its double to be zero. -/
theorem isZero_ofInt {value : Int} : (ofInt value : Double).isZero ↔ value = 0 := by
  constructor
  · intro zero
    by_contra some
    have least : double.magnitude 1 ≤ |(value : ℚ)| := by
      have one : double.magnitude 1 ≤ 1 := by decide +kernel
      have size : (1 : ℚ) ≤ |(value : ℚ)| := by exact_mod_cast Int.one_le_abs some
      exact one.trans size
    have positive := double.le_rankOfRat_of_magnitude_le least
    exact isZero_ofRank (by omega) _ zero
  · rintro rfl
    decide +kernel

end Binary

namespace Number

theorem isZero_iff {number : Number} : number.isZero ↔ number.toRat? = some 0 := by
  cases number with
  | int32 word => simp [isZero, toRat?, ← Int32.toInt_inj]
  | int64 word => simp [isZero, toRat?, ← Int64.toInt_inj]
  | float value | double value => exact Binary.isZero_iff

private theorem toInt32_eq_zero_iff {number : Number} (narrow : number.kind = .int32) :
    number.toInt32 = 0 ↔ number.isZero := by
  cases number with
  | int32 word => exact beq_iff_eq.symm
  | int64 | float | double => cases narrow

private theorem toInt64_eq_zero_iff {number : Number} (integer : number.kind.isInteger) :
    number.toInt64 = 0 ↔ number.isZero := by
  cases number with
  | int32 word => simp [toInt64, isZero, ← Int64.toInt_inj, ← Int32.toInt_inj]
  | int64 word => exact beq_iff_eq.symm
  | float | double => cases integer

/-- As a double, a number is a zero exactly if it is one. Neither a subnormal nor a long integer is rounded to zero. -/
theorem isZero_toDouble (number : Number) : number.toDouble.isZero ↔ number.isZero := by
  cases number with
  | int32 word => simp [toDouble, isZero, Binary.isZero_ofInt, ← Int32.toInt_inj]
  | int64 word => simp [toDouble, isZero, Binary.isZero_ofInt, ← Int64.toInt_inj]
  | float value => rw [toDouble, isZero, Binary.isZero_iff, Binary.isZero_iff, (Binary.widens_convert value).toRat?]
  | double value => rfl

end Number

namespace Promoted

theorem hasZeroDivisor_of (left right : Number) :
    (of left right).hasZeroDivisor ↔ left.kind.isInteger ∧ right.kind.isInteger ∧ right.isZero := by
  have both : (max left.kind right.kind).isInteger ↔ _ := Kind.isInteger_max
  rw [← and_assoc, ← both]
  unfold of
  cases wider : max left.kind right.kind with
  | int32 =>
    have narrow := Kind.eq_int32_of_max wider
    simp only [hasZeroDivisor, beq_iff_eq, Number.toInt32_eq_zero_iff narrow, Kind.isInteger, true_and]
  | int64 =>
    have integer := (both.mp (wider ▸ rfl)).2
    simp only [hasZeroDivisor, beq_iff_eq, Number.toInt64_eq_zero_iff integer, Kind.isInteger, true_and]
  | float | double => exact iff_of_false Bool.false_ne_true fun integer => Bool.false_ne_true integer.1

theorem isRightZero_of (left right : Number) : (of left right).isRightZero ↔ right.isZero := by
  unfold of
  cases wider : max left.kind right.kind with
  | int32 =>
    have narrow := Kind.eq_int32_of_max wider
    simp only [isRightZero, beq_iff_eq, Number.toInt32_eq_zero_iff narrow]
  | int64 =>
    have integer := (Kind.isInteger_max.mp (wider ▸ rfl : (max left.kind right.kind).isInteger)).2
    simp only [isRightZero, beq_iff_eq, Number.toInt64_eq_zero_iff integer]
  | float | double => exact right.isZero_toDouble

end Promoted

namespace Number

/-- Two numbers that an operator divides without a result. `/` and `MOD` refuse an integer zero under an integer, and
`\` a zero of any kind. -/
def LacksQuotient (left : Number) (operator : ArithmeticOp) (right : Number) : Prop :=
  operator ∈ [.divide, .modulo] ∧ left.kind.isInteger ∧ right.kind.isInteger ∧ right.toRat? = some 0 ∨
    operator = .intDivide ∧ right.toRat? = some 0

/-- What an operator makes of two numbers. -/
theorem applyNumber_quotient (left : Number) (operator : ArithmeticOp) (right : Number) :
    (left.LacksQuotient operator right ∧
      left.applyNumber operator right = .error (.divisionByZero operator left.kind right.kind)) ∨
    (¬left.LacksQuotient operator right ∧ ∃ result, left.applyNumber operator right = .ok result) := by
  have divisor := Promoted.hasZeroDivisor_of left right
  rw [isZero_iff] at divisor
  cases operator with
  | add | subtract | multiply | power => exact Or.inr ⟨by simp [LacksQuotient], _, rfl⟩
  | divide | modulo =>
    simp only [applyNumber, divide, modulo]
    by_cases zero : (Promoted.of left right).hasZeroDivisor
    · rw [if_pos zero]
      exact Or.inl ⟨Or.inl ⟨by simp, divisor.mp zero⟩, rfl⟩
    · rw [if_neg zero]
      rw [divisor] at zero
      exact Or.inr ⟨by simpa [LacksQuotient] using zero, _, rfl⟩
  | intDivide =>
    have refused := Promoted.isRightZero_of left right
    rw [isZero_iff] at refused
    simp only [applyNumber, intDivide]
    by_cases zero : (Promoted.of left right).isRightZero
    · rw [if_pos zero]
      exact Or.inl ⟨Or.inr ⟨rfl, refused.mp zero⟩, rfl⟩
    · rw [if_neg zero]
      rw [refused] at zero
      exact Or.inr ⟨by simpa [LacksQuotient] using zero, _, rfl⟩

/-- An operator fails with an operand that is not numeric, and with a zero that it cannot divide by. Each failure has
its own report, and in every other case there is a result. -/
theorem apply_result_iff (left : Number) (operator : ArithmeticOp) (right : Operand) :
    (left.apply operator right = .error (.notNumeric operator left.kind right.typeName) ↔ right.number? = none) ∧
    (∀ value, right.number? = some value →
      (left.apply operator right = .error (.divisionByZero operator left.kind value.kind) ↔
        left.LacksQuotient operator value)) ∧
    ((∃ result, left.apply operator right = .ok result) ↔
      ∃ value, right.number? = some value ∧ ¬left.LacksQuotient operator value) := by
  unfold apply
  cases numeric : right.number? with
  | none => simp
  | some value =>
    rcases left.applyNumber_quotient operator value with ⟨lacks, failed⟩ | ⟨has, result, done⟩
    · simp [failed, lacks]
    · simp [done, has]

/-- A foreign negative zero, which as a double only `\` refuses to divide by, and the least divisor that is none. -/
theorem apply_result_iff_negativeZero :
    (float .one).apply .intDivide (.foreign "Box" (some (double (.zero true)))) =
      .error (.divisionByZero .intDivide .float .double) ∧
    (∃ result, (float .one).apply .divide (.foreign "Box" (some (double (.zero true)))) = .ok result) ∧
    ∃ result, (int64 1).apply .intDivide (.number (float (.ofBits 1))) = .ok result := by
  have zero : (double (.zero true)).toRat? = some 0 := isZero_iff.mp (by decide)
  have nonzero : (float (.ofBits 1)).toRat? ≠ some 0 := fun none => absurd (isZero_iff.mpr none) (by decide)
  have floating : ¬(float .one).kind.isInteger := by decide
  have lacks : (float .one).LacksQuotient .intDivide (double (.zero true)) := Or.inr ⟨rfl, zero⟩
  have has : ¬(float .one).LacksQuotient .divide (double (.zero true)) := by
    rintro (⟨-, integer, -⟩ | ⟨other, -⟩)
    · exact floating integer
    · cases other
  have tiny : ¬(int64 1).LacksQuotient .intDivide (float (.ofBits 1)) := by
    rintro (⟨-, -, integer, -⟩ | ⟨-, none⟩)
    · cases integer
    · exact nonzero none
  refine ⟨?_, ?_, ?_⟩
  · exact ((apply_result_iff (float .one) .intDivide (.foreign "Box" (some (double (.zero true))))).2.1 _ rfl).mpr lacks
  · exact (apply_result_iff (float .one) .divide (.foreign "Box" (some (double (.zero true))))).2.2.mpr ⟨_, rfl, has⟩
  · exact (apply_result_iff (int64 1) .intDivide (.number (float (.ofBits 1)))).2.2.mpr ⟨_, rfl, tiny⟩

/-- The least integer by -1 overflows in both widths, and has a result nevertheless. -/
example :
    (int32 (-2147483648)).apply .intDivide (.number (int32 (-1))) = .ok (int32 (-2147483648)) ∧
    (int64 (-9223372036854775808)).apply .divide (.number (int32 (-1))) = .ok (int64 (-9223372036854775808)) := by
  decide

end Number

end ScriptNumbers
