import ScriptNumbers.Json.Value
import ScriptNumbers.Proofs.DecimalRounding

/-! The error of scaling digits by a power of ten in double arithmetic. The digits are exact and the power and the
result are rounded once each, so the relative error is little more than two roundings make. -/

namespace ScriptNumbers

namespace Format

variable (format : Format)

/-- A normal value that is at most half the first one out of range is rounded to a finite one. -/
theorem rankOfRat_lt_limit {value : ℚ} (normal : format.magnitude format.binadeSize ≤ value)
    (below : 2 * value ≤ format.magnitude format.limit) : format.rankOfRat value < format.limit := by
  have size : (1 : ℚ) ≤ format.binadeSize := by exact_mod_cast format.binadeSize_pos
  have positive : 0 < value := (format.magnitude_pos format.binadeSize_pos).trans_le normal
  have error := (abs_le.mp (format.abs_magnitude_rankOfRat_sub_le normal)).2
  have share : value / (2 * format.binadeSize) < value := div_lt_self positive (by linarith)
  refine format.magnitude_strictMono.lt_iff_lt.mp ?_
  linarith

end Format

namespace Binary

variable {format : Format}

private theorem round_of_pos {value : ℚ} (negativeZero : Bool) (positive : 0 < value) :
    (round negativeZero value : Binary format) = ofRank false (format.rankOfRat value) := by
  rw [round, if_neg positive.ne', decide_eq_false positive.not_gt]

theorem multiply_positive (left right : Fin format.limit) :
    (finite false left).multiply (finite false right) =
      round false (format.magnitude left * format.magnitude right) := rfl

theorem divide_positive (left : Fin format.limit) {right : Fin format.limit} (some : right.val ≠ 0) :
    (finite false left).divide (finite false right) = round false (format.magnitude left / format.magnitude right) := by
  rw [divide, if_neg some]
  rfl

end Binary

namespace Json

open Format

/-- A value far inside the range of a double. -/
def Moderate (value : ℚ) : Prop := 2 ^ (-240 : Int) ≤ value ∧ value ≤ 2 ^ (240 : Int)

theorem Moderate.pos {value : ℚ} (moderate : Moderate value) : 0 < value :=
  (zpow_pos (by norm_num) _).trans_le moderate.1

/-- A rounding of a value in double precision. -/
structure Rounds (value : ℚ) (rank : Fin double.limit) : Prop where
  error : |double.magnitude rank - value| ≤ value / 2 ^ 53
  exact : (∃ other, double.magnitude other = value) → double.magnitude rank = value

theorem magnitude_binadeSize_double : double.magnitude double.binadeSize = 2 ^ (-1022 : Int) := by
  have size : double.binadeSize = twoPow 52 := rfl
  have one : double.one = twoPow 1074 := rfl
  have exponents : (-1022 : Int) = (52 : Nat) - (1074 : Nat) := rfl
  rw [magnitude_eq, units_of_lt _ (by have := double.binadeSize_pos; omega), size, one, natCast_twoPow, natCast_twoPow,
    exponents, zpow_sub₀ (by norm_num), zpow_natCast, zpow_natCast]

theorem two_mul_binadeSize_double : (2 * double.binadeSize : ℚ) = 2 ^ 53 := by
  rw [show double.binadeSize = 2 ^ 52 from rfl]
  norm_num

theorem rounds_of_moderate {value : ℚ} (moderate : Moderate value) :
    ∃ rank, (Binary.ofRank false (double.rankOfRat value) : Double) = .finite false rank ∧ Rounds value rank := by
  have normal : double.magnitude double.binadeSize ≤ value := by
    rw [magnitude_binadeSize_double]
    exact (zpow_le_zpow_right₀ (by norm_num) (by norm_num)).trans moderate.1
  have below : 2 * value ≤ double.magnitude double.limit := by
    have limit : double.magnitude double.limit = 2 ^ ((1024 : Nat) : Int) := by
      rw [zpow_natCast]
      exact double.magnitude_limit
    calc 2 * value ≤ 2 * 2 ^ (240 : Int) := mul_le_mul_of_nonneg_left moderate.2 (by norm_num)
      _ = 2 ^ (1 + 240 : Int) := (zpow_one_add₀ (by norm_num) _).symm
      _ ≤ 2 ^ ((1024 : Nat) : Int) := zpow_le_zpow_right₀ (by norm_num) (by norm_num)
      _ = double.magnitude double.limit := limit.symm
  have finite := double.rankOfRat_lt_limit normal below
  have error := double.abs_magnitude_rankOfRat_sub_le normal
  rw [two_mul_binadeSize_double] at error
  exact ⟨⟨_, finite⟩, Binary.ofRank_of_lt false finite, error, magnitude_rankOfRat_of_exact double⟩

private theorem round_of_moderate {value : ℚ} (moderate : Moderate value) :
    ∃ rank, (Binary.round false value : Double) = .finite false rank ∧ Rounds value rank := by
  rw [Binary.round_of_pos false moderate.pos]
  exact rounds_of_moderate moderate

private theorem ofInt_digits {digits : Nat} (some : 0 < digits) (short : digits < 2 ^ 53) :
    ∃ rank, (Binary.ofInt digits : Double) = .finite false rank ∧ double.magnitude rank = digits := by
  have least : (1 : ℚ) ≤ digits := by exact_mod_cast some
  have most : (digits : ℚ) ≤ 2 ^ 53 := by exact_mod_cast short.le
  have moderate : Moderate digits := ⟨le_trans (by norm_num) least, most.trans (by norm_num)⟩
  obtain ⟨rank, same, rounds⟩ := round_of_moderate moderate
  refine ⟨rank, ?_, rounds.exact (double.exists_magnitude_eq_natCast short)⟩
  rw [Binary.ofInt, Int.cast_natCast, same]

private theorem ten_pow_le {tens : Nat} (small : tens ≤ 54) : (10 : ℚ) ^ tens ≤ 2 ^ 180 :=
  (pow_le_pow_right₀ (by norm_num) small).trans (by norm_num)

private theorem powerOfTen_rounds {tens : Nat} (small : tens ≤ 54) :
    ∃ rank, powerOfTen tens = .finite false rank ∧ Rounds (10 ^ tens) rank ∧
      1 / 2 ≤ double.magnitude rank ∧ double.magnitude rank ≤ 2 ^ 181 := by
  have least : (1 : ℚ) ≤ 10 ^ tens := one_le_pow₀ (by norm_num)
  have moderate : Moderate (10 ^ tens) := ⟨le_trans (by norm_num) least, (ten_pow_le small).trans (by norm_num)⟩
  have exact : (⟨1, tens⟩ : Decimal).toRat = 10 ^ tens := by
    rw [Decimal.toRat, Nat.cast_one, one_mul, zpow_natCast]
  obtain ⟨rank, same, rounds⟩ := rounds_of_moderate moderate
  obtain ⟨lower, upper⟩ := abs_le.mp rounds.error
  have range := ten_pow_le small
  refine ⟨rank, ?_, rounds, by linarith, by linarith⟩
  rw [powerOfTen, Binary.ofDecimal_eq, exact, same]

private theorem product_error {digits tens power result : ℚ} (digitsPos : 0 < digits) (tensPos : 0 < tens)
    (first : |power - tens| ≤ tens / 2 ^ 53) (second : |result - digits * power| ≤ digits * power / 2 ^ 53) :
    |result - digits * tens| ≤ 9 / 2 ^ 55 * (digits * tens) := by
  have scaled : |digits * power - digits * tens| ≤ digits * tens / 2 ^ 53 := by
    rw [← mul_sub, abs_mul, abs_of_pos digitsPos, mul_div_assoc]
    exact mul_le_mul_of_nonneg_left first digitsPos.le
  have size : 0 < digits * tens := mul_pos digitsPos tensPos
  have upper := (abs_le.mp scaled).2
  have triangle := abs_sub_le result (digits * power) (digits * tens)
  linarith

/-- Close to zero the result is off by a little more than its share. -/
theorem quotient_error_add {digits tens power result rest : ℚ} (digitsNonneg : 0 ≤ digits) (tensPos : 0 < tens)
    (first : |power - tens| ≤ tens / 2 ^ 53)
    (second : |result - digits / power| ≤ digits / power / 2 ^ 53 + rest) :
    |result - digits / tens| ≤ 9 / 2 ^ 55 * (digits / tens) + rest := by
  obtain ⟨lower, upper⟩ := abs_le.mp first
  have powerPos : 0 < power := by linarith
  have size : 0 ≤ digits / tens := div_nonneg digitsNonneg tensPos.le
  have whole : digits / tens * tens = digits := div_mul_cancel₀ digits tensPos.ne'
  have least := mul_le_mul_of_nonneg_left (show (1 - 1 / 2 ^ 53) * tens ≤ power by linarith) size
  have most := mul_le_mul_of_nonneg_left (show power ≤ (1 + 1 / 2 ^ 53) * tens by linarith) size
  generalize digits / tens = quotient at size whole least most ⊢
  have above : digits / power ≤ (1 + 1 / (2 ^ 53 - 1)) * quotient := by
    rw [div_le_iff₀ powerPos]
    linarith
  have below : (1 - 1 / 2 ^ 53) * quotient ≤ digits / power := by
    rw [le_div_iff₀ powerPos]
    linarith
  have scaled : |digits / power - quotient| ≤ 1 / (2 ^ 53 - 1) * quotient := by
    rw [abs_le]
    refine ⟨?_, ?_⟩ <;> linarith
  have triangle := abs_sub_le result (digits / power) quotient
  linarith

private theorem quotient_error {digits tens power result : ℚ} (digitsPos : 0 < digits) (tensPos : 0 < tens)
    (first : |power - tens| ≤ tens / 2 ^ 53) (second : |result - digits / power| ≤ digits / power / 2 ^ 53) :
    |result - digits / tens| ≤ 9 / 2 ^ 55 * (digits / tens) := by
  have error := quotient_error_add digitsPos.le tensPos first (second.trans_eq (add_zero _).symm)
  rwa [add_zero] at error

/-- A result that may be rounded twice. If the power of ten is small, then it is exact, and the result is rounded
only once. -/
structure Scales (value : ℚ) (tens : Nat) (rank : Fin double.limit) : Prop where
  error : |double.magnitude rank - value| ≤ 9 / 2 ^ 55 * value
  exact : tens ≤ 10 → (∃ other, double.magnitude other = value) → double.magnitude rank = value

/-- A power of ten is a power of five times a power of two, so only the former has to be short. -/
theorem ten_pow_exact {tens : Nat} (small : tens ≤ 22) : ∃ rank, double.magnitude rank = (10 : ℚ) ^ tens := by
  have fits : 5 ^ tens < 2 * double.binadeSize := (Nat.pow_le_pow_right (by decide) small).trans_lt (by decide)
  obtain ⟨rank, exact⟩ := double.exists_magnitude_eq fits (show -(double.unitBits : Int) ≤ tens by omega)
  refine ⟨rank, ?_⟩
  rw [exact, zpow_natCast, Nat.cast_pow, Nat.cast_ofNat, ← mul_pow]
  norm_num

variable {digits tens : Nat}

private theorem multiply_scales (some : 0 < digits) (short : digits < 2 ^ 53) (inside : tens ≤ 54) :
    ∃ rank, (Binary.ofInt digits : Double).multiply (powerOfTen tens) = .finite false rank ∧
      Scales (digits * 10 ^ tens) tens rank := by
  obtain ⟨whole, digitsEq, digitsExact⟩ := ofInt_digits some short
  obtain ⟨power, powerEq, powerRounds, lower, upper⟩ := powerOfTen_rounds inside
  have least : (1 : ℚ) ≤ digits := by exact_mod_cast some
  have most : (digits : ℚ) ≤ 2 ^ 53 := by exact_mod_cast short.le
  have moderate : Moderate (digits * double.magnitude power) := by
    refine ⟨?_, ?_⟩
    · calc (2 : ℚ) ^ (-240 : Int) ≤ 1 * (1 / 2) := by norm_num
        _ ≤ digits * double.magnitude power := mul_le_mul least lower (by norm_num) (by linarith)
    · calc digits * double.magnitude power ≤ 2 ^ 53 * 2 ^ 181 :=
            mul_le_mul most upper (double.magnitude_nonneg _) (by norm_num)
        _ ≤ 2 ^ (240 : Int) := by norm_num
  obtain ⟨rank, same, rounds⟩ := round_of_moderate moderate
  refine ⟨rank, ?_, product_error (by linarith) (by positivity) powerRounds.error rounds.error, fun small exact => ?_⟩
  · rw [digitsEq, powerEq, Binary.multiply_positive, digitsExact, same]
  · have tensExact := powerRounds.exact (ten_pow_exact (small.trans (by decide)))
    rw [tensExact] at rounds
    exact rounds.exact exact

private theorem divide_scales (some : 0 < digits) (short : digits < 2 ^ 53) (inside : tens ≤ 54) :
    ∃ rank, (Binary.ofInt digits : Double).divide (powerOfTen tens) = .finite false rank ∧
      Scales (digits / 10 ^ tens) tens rank := by
  obtain ⟨whole, digitsEq, digitsExact⟩ := ofInt_digits some short
  obtain ⟨power, powerEq, powerRounds, lower, upper⟩ := powerOfTen_rounds inside
  have least : (1 : ℚ) ≤ digits := by exact_mod_cast some
  have most : (digits : ℚ) ≤ 2 ^ 53 := by exact_mod_cast short.le
  have positive : 0 < double.magnitude power := by linarith
  have moderate : Moderate (digits / double.magnitude power) := by
    refine ⟨?_, ?_⟩
    · calc (2 : ℚ) ^ (-240 : Int) ≤ 1 / 2 ^ 181 := by norm_num
        _ ≤ digits / double.magnitude power := div_le_div₀ (by linarith) least positive upper
    · calc digits / double.magnitude power ≤ 2 ^ 53 / (1 / 2) := div_le_div₀ (by norm_num) most (by norm_num) lower
        _ ≤ 2 ^ (240 : Int) := by norm_num
  obtain ⟨rank, same, rounds⟩ := round_of_moderate moderate
  refine ⟨rank, ?_, quotient_error (by linarith) (by positivity) powerRounds.error rounds.error, fun small exact => ?_⟩
  · have some : power.val ≠ 0 := double.ne_zero_of_magnitude_pos positive
    rw [digitsEq, powerEq, Binary.divide_positive whole some, digitsExact, same]
  · have tensExact := powerRounds.exact (ten_pow_exact (small.trans (by decide)))
    rw [tensExact] at rounds
    exact rounds.exact exact

theorem scale_scales {decimal : Decimal} (some : 0 < decimal.digits) (short : decimal.digits < 2 ^ 53)
    (inside : decimal.exponent.natAbs ≤ 54) :
    ∃ rank, scale decimal = .finite false rank ∧ Scales decimal.toRat decimal.exponent.natAbs rank := by
  obtain ⟨digits, exponent⟩ := decimal
  dsimp only at some short inside
  cases exponent with
  | ofNat tens =>
    have few : tens ≤ largestTens := le_trans (show tens ≤ 54 from inside) (by decide)
    have value : (⟨digits, .ofNat tens⟩ : Decimal).toRat = digits * 10 ^ tens := rfl
    rw [value, scale]
    dsimp only
    rw [if_pos few]
    exact multiply_scales some short inside
  | negSucc tens =>
    have few : tens < largestTens := lt_of_lt_of_le (show tens < 54 from inside) (by decide)
    have value : (⟨digits, .negSucc tens⟩ : Decimal).toRat = digits / 10 ^ (tens + 1) := rfl
    rw [value, scale]
    dsimp only
    rw [Nat.div_eq_of_lt few, Nat.mod_eq_of_lt few, divideByLargest]
    exact divide_scales some short inside

end Json

end ScriptNumbers
