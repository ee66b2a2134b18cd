import ScriptNumbers.Proofs.FloatArithmetic
import ScriptNumbers.Proofs.Truncation
import ScriptNumbers.Proofs.ZeroDivisors

/-! Remainders of floating values. They are exact whatever the quotient: a remainder is a whole number of the finer of
the two spacings and no greater than either magnitude, so it is a magnitude of the same format. -/

namespace ScriptNumbers

private theorem abs_sub_truncated_lt (value : ℚ) : |value - truncated value| < 1 := by
  have low := Int.floor_le value
  have high := Int.lt_floor_add_one value
  have above := Int.le_ceil value
  have below := Int.ceil_lt_add_one value
  unfold truncated
  split
  · rw [abs_lt]
    constructor <;> linarith
  · rw [abs_lt]
    constructor <;> linarith

/-- What truncating division leaves is less than the divisor. -/
theorem abs_remainder_lt {dividend divisor : ℚ} (nonzero : divisor ≠ 0) :
    |dividend - divisor * truncated (dividend / divisor)| < |divisor| := by
  have factored : dividend - divisor * truncated (dividend / divisor) =
      divisor * (dividend / divisor - truncated (dividend / divisor)) := by
    rw [mul_sub, mul_div_cancel₀ _ nonzero]
  rw [factored, abs_mul]
  exact mul_lt_of_lt_one_right (abs_pos.mpr nonzero) (abs_sub_truncated_lt _)

namespace Binary

open Format

variable {format : Format}

private theorem magnitude_of_units_mod {rest dividend divisor : Nat}
    (same : format.units rest = format.units dividend % format.units divisor) :
    format.magnitude rest = format.magnitude dividend -
      format.magnitude divisor * truncated (format.magnitude dividend / format.magnitude divisor) := by
  have unit := format.one_pos'
  have whole := Nat.mod_add_div (format.units dividend) (format.units divisor)
  rw [← same] at whole
  have split : (format.units dividend : ℚ) = format.units rest +
      format.units divisor * (format.units dividend / format.units divisor : Nat) := by
    exact_mod_cast whole.symm
  have quotient : format.magnitude dividend / format.magnitude divisor =
      (format.units dividend : ℚ) / format.units divisor := by
    rw [magnitude_eq, magnitude_eq, div_div_div_cancel_right₀ unit.ne']
  rw [quotient, truncated_natCast_div, magnitude_eq, magnitude_eq, magnitude_eq, Int.cast_natCast, split]
  ring

private theorem remainder_finite (l r : Bool) (x : Fin format.limit) {y : Fin format.limit} (nonzero : y.val ≠ 0) :
    ∃ rest : Fin format.limit, remainder (.finite l x) (.finite r y) = .finite l rest ∧
      format.units rest = format.units x % format.units y := by
  obtain ⟨rest, order, same⟩ := format.exists_units_eq_mod (Nat.pos_of_ne_zero nonzero)
  have inside : rest < format.limit := order.trans_lt x.isLt
  refine ⟨⟨rest, inside⟩, ?_, same⟩
  rw [remainder, if_neg nonzero, ← same, nearestRank_units, ofRank_of_lt l inside]

/-- The signs of the operands do not matter for the size of a remainder, and its sign is that of the dividend. -/
theorem signedMagnitude_of_units_mod (l r : Bool) {rest dividend divisor : Nat}
    (same : format.units rest = format.units dividend % format.units divisor) :
    signedMagnitude format l rest = signedMagnitude format l dividend - signedMagnitude format r divisor *
      truncated (signedMagnitude format l dividend / signedMagnitude format r divisor) := by
  unfold signedMagnitude
  rw [magnitude_of_units_mod same]
  cases l <;> cases r <;> simp [neg_div, div_neg, truncated_neg] <;> ring

theorem remainder_exact {left right : Binary format} {l r : ℚ} (leftExact : left.toRat? = some l)
    (rightExact : right.toRat? = some r) (nonzero : r ≠ 0) :
    (left.remainder right).toRat? = some (l - r * truncated (l / r)) ∧
      (left.remainder right).isNegative = left.isNegative := by
  cases left with
  | nan | infinity => cases leftExact
  | finite leftNegative dividend =>
    cases right with
    | nan | infinity => cases rightExact
    | finite rightNegative divisor =>
      cases leftExact
      cases rightExact
      have some := ne_zero_of_signedMagnitude nonzero
      obtain ⟨rest, done, same⟩ := remainder_finite leftNegative rightNegative dividend some
      rw [done]
      exact ⟨congrArg Option.some (signedMagnitude_of_units_mod leftNegative rightNegative same), rfl⟩

/-- The remainder of floats as doubles is their remainder, so the conversion does not round it. -/
theorem convert_remainder {left right : Single} {wideLeft wideRight : Double} (leftWidens : Widens left wideLeft)
    (rightWidens : Widens right wideRight) : (wideLeft.remainder wideRight).convert = left.remainder right := by
  cases leftWidens with
  | nan => rfl
  | infinity l => cases rightWidens <;> rfl
  | @finite l _ _ leftSame =>
    cases rightWidens with
    | nan => rfl
    | infinity r => exact (Widens.finite l leftSame).convert
    | @finite r narrow wide rightSame =>
      by_cases zero : narrow.val = 0
      · have wideZero := (eq_zero_iff_of_widens rightSame).mpr zero
        rw [remainder, remainder, if_pos zero, if_pos wideZero]
        rfl
      · obtain ⟨rest, done, same⟩ := remainder_finite l r _ zero
        have wideZero : wide.val ≠ 0 := fun none => zero ((eq_zero_iff_of_widens rightSame).mp none)
        obtain ⟨wideRest, wideDone, wideSame⟩ := remainder_finite l r _ wideZero
        rw [done, wideDone]
        apply Widens.convert
        apply Widens.finite
        rw [magnitude_of_units_mod same, magnitude_of_units_mod wideSame, leftSame, rightSame]

theorem isNegative_ofInt (value : Int) : (ofInt value : Binary format).isNegative = decide (value < 0) := by
  rw [ofInt, round, isNegative_ofRank]
  by_cases zero : value = 0
  · simp [zero]
  · rw [if_neg (Int.cast_ne_zero.mpr zero)]
    simp

theorem toRat?_ofInt_of_small {value : Int} (small : value.natAbs ≤ 2 ^ 53) :
    (ofInt value : Double).toRat? = some (value : ℚ) := by
  obtain ⟨key, inside, exact⟩ := exists_key_eq_intCast small
  exact toRat?_ofInt_of_key inside exact

end Binary

namespace Number

/-- The sign of a number; a zero has one if its kind has two zeros. -/
def isNegative : Number → Bool
  | int32 value => value.toInt < 0
  | int64 value => value.toInt < 0
  | float value => value.isNegative
  | double value => value.isNegative

/-- The value with which a number takes part in floating arithmetic: its own, or for a long integer that of the nearest
double. -/
def StandsFor (number : Number) (value : ℚ) : Prop :=
  match number with
  | int64 word => ∃ nearest : Double, nearest.IsNearest word.toInt ∧ nearest.toRat? = some value
  | number => number.toRat? = some value

private theorem standsFor_toDouble {number : Number} {value : ℚ} (found : number.toDouble.toRat? = some value) :
    number.StandsFor value := by
  cases number with
  | int32 word =>
    have low := word.le_toInt
    have high := word.toInt_lt
    have exact : (Binary.ofInt word.toInt : Double).toRat? = _ := Binary.toRat?_ofInt_of_small (by omega)
    rwa [toDouble, exact] at found
  | int64 word => exact ⟨_, Binary.isNearest_round _ _, found⟩
  | float value => exact (Binary.widens_convert value).toRat?.symm.trans found
  | double value => exact found

private theorem isNegative_toDouble (number : Number) : number.toDouble.isNegative = number.isNegative := by
  cases number with
  | int32 word => exact Binary.isNegative_ofInt word.toInt
  | int64 word => exact Binary.isNegative_ofInt word.toInt
  | float value => exact (Binary.widens_convert value).isNegative
  | double value => rfl

private theorem modulo_of_double {left right : Number} (wide : max left.kind right.kind = .double) :
    left.modulo right = .ok (double (left.toDouble.remainder right.toDouble)) := by
  simp [modulo, Promoted.of, wide, Promoted.hasZeroDivisor, Promoted.combine]

theorem modulo_of_floats (left right : Single) :
    (float left).modulo (float right) = .ok (float (left.remainder right)) :=
  congrArg (fun result => Except.ok (float result))
    (Binary.convert_remainder (Binary.widens_convert left) (Binary.widens_convert right))

/-- A floating remainder is not rounded. It is what truncating division leaves of the operands, a long integer as the
nearest double, and even as a zero it has the sign of the dividend. -/
theorem modulo_exact {left right : Number} (leftFinite : left.isFinite) (rightFinite : right.isFinite)
    (nonzero : right.toRat? ≠ some 0)
    (floating : max left.kind right.kind = .double ∨ left.kind = .float ∧ right.kind = .float) :
    ∃ l r result, left.StandsFor l ∧ right.StandsFor r ∧ left.modulo right = .ok result ∧
      result.kind = max left.kind right.kind ∧ result.toRat? = some (l - r * truncated (l / r)) ∧
      |l - r * truncated (l / r)| < |r| ∧ result.isNegative = left.isNegative := by
  obtain ⟨l, leftExact, -⟩ := exists_toRat?_toDouble leftFinite
  obtain ⟨r, rightExact, -⟩ := exists_toRat?_toDouble rightFinite
  have some : r ≠ 0 := by
    rintro rfl
    exact nonzero (isZero_iff.mp ((isZero_toDouble right).mp (Binary.isZero_iff.mpr rightExact)))
  have smaller : |l - r * truncated (l / r)| < |r| := abs_remainder_lt some
  rcases floating with wide | ⟨leftFloat, rightFloat⟩
  · obtain ⟨exact, sign⟩ := Binary.remainder_exact leftExact rightExact some
    rw [isNegative_toDouble] at sign
    exact ⟨l, r, _, standsFor_toDouble leftExact, standsFor_toDouble rightExact, modulo_of_double wide, wide.symm,
      exact, smaller, sign⟩
  · cases left with
    | int32 | int64 | double => cases leftFloat
    | float dividend =>
      cases right with
      | int32 | int64 | double => cases rightFloat
      | float divisor =>
        have leftValue := (Binary.widens_convert dividend).toRat?.symm.trans leftExact
        have rightValue := (Binary.widens_convert divisor).toRat?.symm.trans rightExact
        obtain ⟨exact, sign⟩ := Binary.remainder_exact leftValue rightValue some
        exact ⟨l, r, _, leftValue, rightValue, modulo_of_floats dividend divisor, rfl, exact, smaller, sign⟩

/-- The least float by eleven of the least magnitudes, and a multiple of a long integer. -/
theorem modulo_exact_extremes :
    ((float (.ofBits 0xff7fffff)).isFinite ∧ (float (.ofBits 11)).isFinite ∧ (float (.ofBits 11)).toRat? ≠ some 0 ∧
      (double (.ofInt (-6))).isFinite ∧ (int64 3).isFinite ∧ (int64 3).toRat? ≠ some 0) ∧
    (∃ l r, (float (.ofBits 0xff7fffff)).toRat? = some l ∧ (float (.ofBits 11)).toRat? = some r ∧
      (float (.ofBits 0xff7fffff)).modulo (float (.ofBits 11)) = .ok (float (.ofBits 0x8000000a)) ∧
      (float (.ofBits 0x8000000a)).toRat? = some (l - r * truncated (l / r))) ∧
    (double (.ofInt (-6))).modulo (int64 3) = .ok (double (.zero true)) ∧ (double (.zero true)).isNegative := by
  have leastFinite : (float (.ofBits 0xff7fffff)).isFinite := by decide +kernel
  have elevenFinite : (float (.ofBits 11)).isFinite := by decide +kernel
  have elevenNonzero : (float (.ofBits 11)).toRat? ≠ some 0 := by decide +kernel
  have sixFinite : (double (.ofInt (-6))).isFinite := by decide +kernel
  have threeNonzero : (int64 3).toRat? ≠ some 0 := by decide +kernel
  have rest : (float (.ofBits 0xff7fffff)).modulo (float (.ofBits 11)) = .ok (float (.ofBits 0x8000000a)) := by
    decide +kernel
  have nothing : (double (.ofInt (-6))).modulo (int64 3) = .ok (double (.zero true)) := by decide +kernel
  obtain ⟨l, r, _, left, right, done, -, exact, -, -⟩ :=
    modulo_exact leastFinite elevenFinite elevenNonzero (Or.inr ⟨rfl, rfl⟩)
  obtain rfl := Except.ok.inj (rest.symm.trans done)
  obtain ⟨_, _, _, -, -, zeroDone, -, -, -, sign⟩ := modulo_exact sixFinite rfl threeNonzero (Or.inl rfl)
  obtain rfl := Except.ok.inj (nothing.symm.trans zeroDone)
  refine ⟨⟨leastFinite, elevenFinite, elevenNonzero, sixFinite, rfl, threeNonzero⟩, ⟨l, r, left, right, done, exact⟩,
    zeroDone, ?_⟩
  rw [sign]
  decide +kernel

end Number

end ScriptNumbers
