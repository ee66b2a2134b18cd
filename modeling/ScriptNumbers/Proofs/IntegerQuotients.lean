import ScriptNumbers.Proofs.Truncation
import ScriptNumbers.Proofs.Words
import ScriptNumbers.Proofs.ZeroDivisors

/-! Integer quotients. Integers are widened before they are divided, so the quotient is that of the exact values, and only
the word for it may be too short. The remainder always fits, and with it the dividend comes back even from a quotient
that has wrapped. What the operator `\` adds is a cast to the kind that the divisor asks for. -/

namespace ScriptNumbers

open Literal

private theorem Literal.Fits.of_abs_lt {bits : Nat} {value bound : Int} (fits : Fits bits bound)
    (smaller : |value| < |bound|) : Fits bits value := by
  have inside : |bound| ≤ 2 ^ (bits - 1) := abs_le.mpr ⟨fits.1, fits.2.le⟩
  obtain ⟨low, high⟩ := abs_lt.mp (smaller.trans_le inside)
  exact ⟨low.le, high⟩

namespace Number

variable {number : Number} {value : Int}

theorem fits_of_toInt? (exact : number.toInt? = some value) : Fits (wordBits number.kind) value := by
  cases number with
  | int32 word =>
    cases exact
    exact ⟨word.minValue_le_toInt, Int.lt_of_le_sub_one word.toInt_le⟩
  | int64 word =>
    cases exact
    exact ⟨word.minValue_le_toInt, Int.lt_of_le_sub_one word.toInt_le⟩
  | float | double => cases exact

theorem isInteger_of_toInt? (exact : number.toInt? = some value) : number.kind.isInteger := by
  cases number with
  | int32 | int64 => rfl
  | float | double => cases exact

theorem toInt32_of_toInt? (exact : number.toInt? = some value) : number.toInt32 = .ofInt value := by
  cases number with
  | int32 word =>
    cases exact
    exact (Int32.ofInt_toInt word).symm
  | int64 word =>
    cases exact
    exact (Int32.ofInt_int64ToInt word).symm
  | float | double => cases exact

theorem toInt64_of_toInt? (exact : number.toInt? = some value) : number.toInt64 = .ofInt value := by
  cases number with
  | int32 word =>
    cases exact
    exact (Int64.ofInt_int32ToInt word).symm
  | int64 word =>
    cases exact
    exact (Int64.ofInt_toInt word).symm
  | float | double => cases exact

/-- The number of an integer kind to which a value is reduced in two's complement. -/
structure IsWord (target : Kind) (value : Int) (number : Number) : Prop where
  kind : number.kind = target
  value : number.toInt? = some (value.bmod (2 ^ wordBits target))

private theorem isWord_ofWord {kind : Kind} (integral : kind.isInteger) (value : Int) :
    IsWord kind value (ofWord kind value) :=
  ⟨kind_ofWord integral value, toInt?_ofWord kind value⟩

private theorem cast_ofWord {kind target : Kind} (integral : target.isInteger)
    (narrower : wordBits target ≤ wordBits kind) (value : Int) :
    (ofWord kind value).cast target = ofWord target value := by
  cases target with
  | int32 =>
    cases kind with
    | int64 => exact congrArg int32 Int64.toInt32_ofInt
    | int32 | float | double => rfl
  | int64 =>
    cases kind with
    | int64 => rfl
    | int32 | float | double => exact absurd narrower (by decide)
  | float | double => cases integral

end Number

namespace Promoted

/-- Two integers as words of the kind in which they are combined. -/
def words (kind : Kind) (left right : Int) : Promoted :=
  if kind = .int64 then .int64 (.ofInt left) (.ofInt right) else .int32 (.ofInt left) (.ofInt right)

private theorem of_integers {left right : Number} {l r : Int} (leftExact : left.toInt? = some l)
    (rightExact : right.toInt? = some r) : of left right = words (max left.kind right.kind) l r := by
  have integral := Kind.isInteger_max.mpr ⟨Number.isInteger_of_toInt? leftExact, Number.isInteger_of_toInt? rightExact⟩
  unfold of words
  cases wider : max left.kind right.kind with
  | int32 => simp [Number.toInt32_of_toInt? leftExact, Number.toInt32_of_toInt? rightExact]
  | int64 => simp [Number.toInt64_of_toInt? leftExact, Number.toInt64_of_toInt? rightExact]
  | float | double => simp [wider, Kind.isInteger] at integral

end Promoted

namespace Number

section Integers

variable {left right : Number} {l r : Int} (leftExact : left.toInt? = some l) (rightExact : right.toInt? = some r)
include leftExact rightExact

private theorem fits_max :
    Fits (wordBits (max left.kind right.kind)) l ∧ Fits (wordBits (max left.kind right.kind)) r := by
  have leftIntegral := isInteger_of_toInt? leftExact
  have rightIntegral := isInteger_of_toInt? rightExact
  have wider : wordBits left.kind ≤ wordBits (max left.kind right.kind) ∧
      wordBits right.kind ≤ wordBits (max left.kind right.kind) := by
    revert leftIntegral rightIntegral
    cases left.kind <;> cases right.kind <;> decide
  exact ⟨(fits_of_toInt? leftExact).mono wider.1, (fits_of_toInt? rightExact).mono wider.2⟩

/-- What both word types make of an operation is the word for the exact result. -/
theorem combine_integers {onInt : Int → Int → Int} {onInt32 : Int32 → Int32 → Int32} {onInt64 : Int64 → Int64 → Int64}
    (narrow : Fits 32 l → Fits 32 r → Int32.ofInt (onInt l r) = onInt32 (.ofInt l) (.ofInt r))
    (long : Fits 64 l → Fits 64 r → Int64.ofInt (onInt l r) = onInt64 (.ofInt l) (.ofInt r))
    (onDouble : Double → Double → Double) :
    (Promoted.of left right).combine onInt32 onInt64 onDouble = ofWord (max left.kind right.kind) (onInt l r) := by
  obtain ⟨leftFits, rightFits⟩ := fits_max leftExact rightExact
  rw [Promoted.of_integers leftExact rightExact]
  cases wider : max left.kind right.kind with
  | int64 =>
    rw [wider] at leftFits rightFits
    exact congrArg int64 (long leftFits rightFits).symm
  | int32 | float | double =>
    rw [wider] at leftFits rightFits
    exact congrArg int32 (narrow leftFits rightFits).symm

private theorem add_integers : left.add right = ofWord (max left.kind right.kind) (l + r) :=
  combine_integers leftExact rightExact (fun _ _ => Int32.ofInt_add l r) (fun _ _ => Int64.ofInt_add l r) _

private theorem multiply_integers : left.multiply right = ofWord (max left.kind right.kind) (l * r) :=
  combine_integers leftExact rightExact (fun _ _ => Int32.ofInt_mul l r) (fun _ _ => Int64.ofInt_mul l r) _

end Integers

private theorem toRat?_of_toInt? {number : Number} {value : Int} (exact : number.toInt? = some value) :
    number.toRat? = some (value : ℚ) := by
  cases number with
  | int32 | int64 =>
    cases exact
    rfl
  | float | double => cases exact

private theorem toRat?_ne_zero {number : Number} {value : Int} (exact : number.toInt? = some value)
    (nonzero : value ≠ 0) : number.toRat? ≠ some 0 := by
  simp [toRat?_of_toInt? exact, nonzero]

private theorem not_hasZeroDivisor (left : Number) {right : Number} (nonzero : right.toRat? ≠ some 0) :
    ¬(Promoted.of left right).hasZeroDivisor := by
  rw [Promoted.hasZeroDivisor_of, isZero_iff]
  exact fun zero => nonzero zero.2.2

section Division

variable {left right : Number} {l r : Int} (leftExact : left.toInt? = some l) (rightExact : right.toInt? = some r)
  (nonzero : r ≠ 0)
include leftExact rightExact nonzero

private theorem divide_integers : left.divide right = .ok (ofWord (max left.kind right.kind) (l.tdiv r)) := by
  have divisor := toRat?_ne_zero rightExact nonzero
  have quotient : (Promoted.of left right).combine (· / ·) (· / ·) Binary.divide =
      ofWord (max left.kind right.kind) (l.tdiv r) := by
    apply combine_integers leftExact rightExact
    · intro leftFits rightFits
      exact Int32.ofInt_tdiv leftFits.1 leftFits.le_sub_one rightFits.1 rightFits.le_sub_one
    · intro leftFits rightFits
      exact Int64.ofInt_tdiv leftFits.1 leftFits.le_sub_one rightFits.1 rightFits.le_sub_one
  simp only [divide, if_neg (not_hasZeroDivisor left divisor), quotient]

private theorem modulo_integers : left.modulo right = .ok (ofWord (max left.kind right.kind) (l.tmod r)) := by
  have divisor := toRat?_ne_zero rightExact nonzero
  have remainder : (Promoted.of left right).combine (· % ·) (· % ·) Binary.remainder =
      ofWord (max left.kind right.kind) (l.tmod r) := by
    apply combine_integers leftExact rightExact
    · intro leftFits rightFits
      exact Int32.ofInt_tmod leftFits.1 leftFits.le_sub_one rightFits.1 rightFits.le_sub_one
    · intro leftFits rightFits
      exact Int64.ofInt_tmod leftFits.1 leftFits.le_sub_one rightFits.1 rightFits.le_sub_one
  simp only [modulo, if_neg (not_hasZeroDivisor left divisor), remainder]

end Division

/-- The kind of an integer quotient depends on that of the divisor alone. -/
def quotientKind (divisor : Kind) : Kind := if divisor = .int64 then .int64 else .int32

private theorem isInteger_quotientKind (divisor : Kind) : (quotientKind divisor).isInteger := by
  cases divisor <;> rfl

private theorem wordBits_quotientKind_le {left right : Kind} (leftIntegral : left.isInteger)
    (rightIntegral : right.isInteger) : wordBits (quotientKind right) ≤ wordBits (max left right) := by
  revert leftIntegral rightIntegral
  cases left <;> cases right <;> decide

private theorem into_exact (divisor : Kind) (word : Int64) :
    (IntegerQuotient.exact word).into divisor = (int64 word).cast (quotientKind divisor) := by
  cases divisor <;> rfl

/-- A narrow quotient is widened on the way, which is undone unless the divisor asks for it. -/
theorem into_widened (divisor : Kind) (word : Int32) :
    (IntegerQuotient.exact word.toInt64).into divisor = (int32 word).cast (quotientKind divisor) := by
  cases divisor with
  | int64 => rfl
  | int32 | float | double => exact congrArg int32 (Int32.toInt32_toInt64 word)

/-- A conversion truncates by itself, so it does the same without the truncation before. -/
theorem into_truncated (divisor : Kind) (value : Double) :
    (IntegerQuotient.truncated value.truncate).into divisor = (double value).cast (quotientKind divisor) := by
  rw [IntegerQuotient.into, value.truncateInto_truncate, value.truncateInto_truncate]
  cases divisor <;> rfl

section Casts

variable {left right : Number} (nonzero : right.toRat? ≠ some 0)
include nonzero

private theorem intDivide_of_nonzero : left.intDivide right = .ok ((Promoted.of left right).quotient.into right.kind) :=
  if_neg fun zero => nonzero (isZero_iff.mp ((Promoted.isRightZero_of left right).mp zero))

private theorem intDivide_of_integers (leftIntegral : left.kind.isInteger) (rightIntegral : right.kind.isInteger) :
    ∃ quotient, left.divide right = .ok quotient ∧
      left.intDivide right = .ok (quotient.cast (quotientKind right.kind)) := by
  have integral := Kind.isInteger_max.mpr ⟨leftIntegral, rightIntegral⟩
  refine ⟨_, if_neg (not_hasZeroDivisor left nonzero), ?_⟩
  rw [intDivide_of_nonzero nonzero]
  congr 1
  unfold Promoted.of
  cases wider : max left.kind right.kind with
  | int32 => exact into_widened _ _
  | int64 => exact into_exact _ _
  | float | double => simp [wider, Kind.isInteger] at integral

theorem intDivide_of_floating (floating : left.kind.isFloating ∨ right.kind.isFloating) :
    ∃ quotient, (left.cast .double).divide (right.cast .double) = .ok quotient ∧
      left.intDivide right = .ok (quotient.cast (quotientKind right.kind)) := by
  have integral : ¬(max left.kind right.kind).isInteger := by
    rw [Kind.isInteger_max]
    simpa [Kind.isFloating, imp_iff_not_or] using floating
  refine ⟨double (left.toDouble.divide right.toDouble), rfl, ?_⟩
  rw [intDivide_of_nonzero nonzero]
  congr 1
  unfold Promoted.of
  cases wider : max left.kind right.kind with
  | int32 | int64 => exact absurd (wider ▸ rfl) integral
  | float | double => exact into_truncated _ _

end Casts

/-- The quotient of `\` is that of `/`, cast to the kind that the divisor asks for. If a side is floating, it is the
quotient of the doubles, and no rounding to a float comes in between. -/
theorem intDivide_eq_cast (left : Number) {right : Number} (nonzero : right.toRat? ≠ some 0) :
    (left.kind.isInteger ∧ right.kind.isInteger → ∃ quotient, left.divide right = .ok quotient ∧
      left.intDivide right = .ok (quotient.cast (quotientKind right.kind))) ∧
    (left.kind.isFloating ∨ right.kind.isFloating → ∃ quotient,
      (left.cast .double).divide (right.cast .double) = .ok quotient ∧
      left.intDivide right = .ok (quotient.cast (quotientKind right.kind))) := by
  constructor
  · intro integral
    exact intDivide_of_integers nonzero integral.1 integral.2
  · intro floating
    exact intDivide_of_floating nonzero floating

/-- As a float the dividend would be rounded. -/
theorem intDivide_eq_cast_oddDividend :
    (float .one).toRat? ≠ some 0 ∧ (int32 16777217).intDivide (float .one) = .ok (int32 16777217) ∧
      (int32 16777217).divide (float .one) = .ok (float (.ofInt 16777216)) := by
  have nonzero : (float .one).toRat? ≠ some 0 := by decide +kernel
  have quotient : ((int32 16777217).cast .double).divide ((float .one).cast .double) =
      .ok (double (.ofInt 16777217)) := by decide +kernel
  have integer : (double (.ofInt 16777217)).cast (quotientKind (float .one).kind) = int32 16777217 := by decide +kernel
  obtain ⟨result, divided, cut⟩ := (intDivide_eq_cast (int32 16777217) nonzero).2 (Or.inr rfl)
  obtain rfl := Except.ok.inj (quotient.symm.trans divided)
  rw [integer] at cut
  exact ⟨nonzero, cut, by decide +kernel⟩

private theorem abs_tmod_lt {l r : Int} (nonzero : r ≠ 0) : |l.tmod r| < |r| := by
  have smaller := Nat.mod_lt l.natAbs (Int.natAbs_pos.mpr nonzero)
  rw [← Int.natAbs_tmod] at smaller
  rw [Int.abs_eq_natAbs, Int.abs_eq_natAbs]
  exact Int.ofNat_lt.mpr smaller

private theorem tmod_eq_zero_or_sign (l r : Int) : l.tmod r = 0 ∨ (l.tmod r).sign = l.sign := by
  rw [Int.sign_tmod]
  by_cases divides : r ∣ l
  · exact Or.inl (Int.tmod_eq_zero_of_dvd divides)
  · exact Or.inr (if_neg divides)

private theorem IsWord.isInteger {kind : Kind} {value : Int} {number : Number} (word : IsWord kind value number) :
    kind.isInteger :=
  word.kind ▸ isInteger_of_toInt? word.value

/-- A factor that has wrapped spoils a product by a multiple of the word size. -/
theorem IsWord.multiply {kind : Kind} {l r : Int} {left right : Number} (word : IsWord kind l left)
    (exact : right.toInt? = some r) (widest : max kind right.kind = kind) : IsWord kind (l * r) (left.multiply right) := by
  rw [multiply_integers word.value exact, word.kind, widest]
  refine ⟨kind_ofWord word.isInteger _, ?_⟩
  rw [toInt?_ofWord, Int.bmod_mul_bmod]

private theorem IsWord.add {kind : Kind} {l r : Int} {left right : Number} (word : IsWord kind l left)
    (other : IsWord kind r right) : IsWord kind (l + r) (left.add right) := by
  have idempotent : max kind kind = kind := by cases kind <;> rfl
  rw [add_integers word.value other.value, word.kind, other.kind, idempotent]
  refine ⟨kind_ofWord word.isInteger _, ?_⟩
  rw [toInt?_ofWord, Int.bmod_add_bmod, Int.add_bmod_bmod]

/-- A quotient of integers may wrap, at the promoted width for `/` and at that of the divisor for `\`, and a remainder
never does. Together they give the dividend back. -/
theorem quotient_remainder_integers {left right : Number} {l r : Int} (leftExact : left.toInt? = some l)
    (rightExact : right.toInt? = some r) (nonzero : r ≠ 0) :
    let wide := max left.kind right.kind
    let rest := l - l.tdiv r * r
    ∃ quotient remainder narrowed,
      left.divide right = .ok quotient ∧ IsWord wide (l.tdiv r) quotient ∧
      left.modulo right = .ok remainder ∧ remainder.kind = wide ∧ remainder.toInt? = some rest ∧
      |rest| < |r| ∧ (rest = 0 ∨ rest.sign = l.sign) ∧
      left.intDivide right = .ok narrowed ∧ IsWord (quotientKind right.kind) (l.tdiv r) narrowed ∧
      ((quotient.multiply right).add remainder).kind = wide ∧
      ((quotient.multiply right).add remainder).toInt? = some l := by
  intro wide rest
  have leftIntegral := isInteger_of_toInt? leftExact
  have rightIntegral := isInteger_of_toInt? rightExact
  have integral : wide.isInteger := Kind.isInteger_max.mpr ⟨leftIntegral, rightIntegral⟩
  obtain ⟨leftFits, rightFits⟩ := fits_max leftExact rightExact
  have same : rest = l.tmod r := by
    rw [Int.tmod_def, Int.mul_comm]
  have small : |rest| < |r| := same ▸ abs_tmod_lt nonzero
  have sign : rest = 0 ∨ rest.sign = l.sign := same ▸ tmod_eq_zero_or_sign l r
  have division := divide_integers leftExact rightExact nonzero
  have remains := modulo_integers leftExact rightExact nonzero
  rw [← same] at remains
  have quotientWord := isWord_ofWord integral (l.tdiv r)
  have restWord := isWord_ofWord integral rest
  have absorbed : max wide right.kind = wide := by
    change max (max left.kind right.kind) right.kind = max left.kind right.kind
    cases left.kind <;> cases right.kind <;> rfl
  have whole := (quotientWord.multiply rightExact absorbed).add restWord
  have restored : l.tdiv r * r + rest = l := by omega
  rw [restored] at whole
  obtain ⟨quotient, done, narrowed⟩ :=
    intDivide_of_integers (toRat?_ne_zero rightExact nonzero) leftIntegral rightIntegral
  obtain rfl := Except.ok.inj (division.symm.trans done)
  rw [cast_ofWord (isInteger_quotientKind _) (wordBits_quotientKind_le leftIntegral rightIntegral)] at narrowed
  refine ⟨_, _, _, division, quotientWord, remains, restWord.kind, ?_, small, sign, narrowed, ?_, whole.kind, ?_⟩
  · rw [restWord.value, (rightFits.of_abs_lt small).bmod_eq]
  · exact isWord_ofWord (isInteger_quotientKind _) _
  · rw [whole.value, leftFits.bmod_eq]

/-- The least long integer by -1, where the quotient wraps and nothing remains. -/
theorem quotient_remainder_integers_least :
    (int64 (-9223372036854775808)).toInt? = some (-9223372036854775808) ∧ (int32 (-1)).toInt? = some (-1) ∧
    (-1 : Int) ≠ 0 ∧
    ∃ quotient remainder narrowed,
      (int64 (-9223372036854775808)).divide (int32 (-1)) = .ok quotient ∧
      quotient.toInt? = some (-9223372036854775808) ∧
      (int64 (-9223372036854775808)).modulo (int32 (-1)) = .ok remainder ∧ remainder.toInt? = some 0 ∧
      (int64 (-9223372036854775808)).intDivide (int32 (-1)) = .ok narrowed ∧ narrowed.toInt? = some 0 ∧
      ((quotient.multiply (int32 (-1))).add remainder).toInt? = some (-9223372036854775808) := by
  have leftExact : (int64 (-9223372036854775808)).toInt? = some (-9223372036854775808) := rfl
  have rightExact : (int32 (-1)).toInt? = some (-1) := rfl
  obtain ⟨quotient, remainder, narrowed, divided, quotientWord, rest, -, remainderValue, -, -, cut, narrowedWord, -,
    restored⟩ := quotient_remainder_integers leftExact rightExact (by decide)
  exact ⟨leftExact, rightExact, by decide, quotient, remainder, narrowed, divided, quotientWord.value, rest,
    remainderValue, cut, narrowedWord.value, restored⟩

end Number

end ScriptNumbers
