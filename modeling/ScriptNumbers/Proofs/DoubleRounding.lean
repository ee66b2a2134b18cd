import ScriptNumbers.Proofs.Differences
import ScriptNumbers.Proofs.DoubleScaling
import ScriptNumbers.Proofs.Narrowing

/-! Floats are combined as doubles, and the result is rounded once more. The second rounding could go wrong only where
the first one ends on a midpoint between two floats without starting there. A product of floats is a double and stays
where it is, a sum is a double or close to the larger summand, and a quotient is a midpoint or far away from it. So the
two roundings together are the one of single precision. -/

namespace ScriptNumbers

namespace Format

private theorem midpoint_strictMono (format : Format) : StrictMono format.midpoint := by
  intro lower upper order
  have next := format.magnitude_strictMono.monotone (Nat.succ_le_of_lt order)
  exact ((format.midpoint_lt_magnitude lower).trans_le next).trans (format.magnitude_lt_midpoint upper)

/-- The spacing at most doubles from one magnitude to the next. -/
theorem spacing_succ_le (format : Format) (rank : Nat) : format.spacing (rank + 1) ≤ 2 * format.spacing rank := by
  rw [spacing, spacing, ← twoPow_succ]
  apply twoPow_le
  unfold doublings
  rw [Nat.succ_div]
  split <;> omega

/-- Half a spacing leads from a magnitude to the midpoint behind it, and a quarter may lead to the one before it. -/
theorem quarter_spacing_le (format : Format) (rank middle : Nat) :
    (format.spacing rank : ℚ) / format.one / 4 ≤ |format.magnitude rank - format.midpoint middle| := by
  have unit := format.one_pos'
  have share : (0 : ℚ) ≤ (format.spacing rank : ℚ) / format.one := by positivity
  rcases Nat.lt_or_ge middle rank with before | behind
  · obtain ⟨last, rfl⟩ := Nat.exists_eq_add_one_of_ne_zero (Nat.ne_zero_of_lt before)
    have order := format.midpoint_strictMono.monotone (Nat.le_of_lt_succ before)
    have doubled : (format.spacing (last + 1) : ℚ) / format.one ≤ 2 * ((format.spacing last : ℚ) / format.one) := by
      rw [← mul_div_assoc, div_le_div_iff_of_pos_right unit]
      exact_mod_cast format.spacing_succ_le last
    have below := format.midpoint_eq_sub last
    have far : (format.spacing (last + 1) : ℚ) / format.one / 4 ≤
        format.magnitude (last + 1) - format.midpoint middle := by linarith
    exact far.trans (le_abs_self _)
  · have order := format.midpoint_strictMono.monotone behind
    have above := format.midpoint_eq_add rank
    have far : (format.spacing rank : ℚ) / format.one / 4 ≤ -(format.magnitude rank - format.midpoint middle) := by
      linarith
    exact far.trans (neg_le_abs _)

/-- Rounding to a double brings the value to no midpoint between floats, unless it is there already. -/
def KeepsOff (value : ℚ) : Prop :=
  ∀ middle, double.magnitude (double.rankOfRat value) = single.midpoint middle → |value| = single.midpoint middle

private theorem keepsOff_of_exact {value : ℚ} (exact : ∃ rank, double.magnitude rank = |value|) : KeepsOff value := by
  intro middle same
  rw [← same, ← double.rankOfRat_abs]
  exact (double.magnitude_rankOfRat_of_exact exact).symm

/-- Midpoints are doubles, so a value and its double lie on the same side of each midpoint. -/
theorem KeepsOff.rankOfRat_eq {value : ℚ} (off : KeepsOff value) :
    single.rankOfRat (double.magnitude (double.rankOfRat value)) = single.rankOfRat value := by
  apply eq_of_forall_ge_iff
  intro rank
  have held := exists_magnitude_eq_midpoint rank
  rw [rankOfRat_le_iff, rankOfRat_le_iff, abs_of_nonneg (double.magnitude_nonneg _)]
  rcases lt_trichotomy |value| (single.midpoint rank) with below | level | above
  · have rounded := (double.magnitude_rankOfRat_le held below.le).lt_of_ne fun same => below.ne (off rank same)
    exact iff_of_true (Or.inl rounded) (Or.inl below)
  · have rounded := le_antisymm (double.magnitude_rankOfRat_le held level.le) (double.le_magnitude_rankOfRat held level.ge)
    rw [rounded, level]
  · have rounded := (double.le_magnitude_rankOfRat held above.le).lt_of_ne fun same => above.ne' (off rank same.symm)
    simp [rounded.not_gt, rounded.ne', above.not_gt, above.ne']

theorem abs_signedMagnitude (format : Format) (negative : Bool) (rank : Nat) :
    |Binary.signedMagnitude format negative rank| = format.magnitude rank := by
  have nonneg := format.magnitude_nonneg rank
  cases negative with
  | false => exact abs_of_nonneg nonneg
  | true => exact (abs_neg _).trans (abs_of_nonneg nonneg)

theorem significand_single_lt (rank : Nat) : single.significand rank < 2 ^ 24 := single.significand_lt rank

private theorem exists_magnitude_eq_double {significand : Nat} (short : significand < 2 ^ 53) {exponent : Int}
    (coarse : -1074 ≤ exponent) : ∃ rank, double.magnitude rank = (significand : ℚ) * (2 : ℚ) ^ exponent := by
  have size : 2 * double.binadeSize = 2 ^ 53 := rfl
  have units : double.unitBits = 1074 := rfl
  exact double.exists_magnitude_eq (by omega) (by omega)

private theorem magnitude_single (rank : Nat) :
    single.magnitude rank = (single.significand rank : ℚ) * (2 : ℚ) ^ (single.doublings rank - 149 : Int) := by
  have units : single.unitBits = 149 := rfl
  rw [magnitude_eq_zpow, units, Nat.cast_ofNat]

section Operands

variable (leftNegative rightNegative : Bool) {left right : Nat}

/-- Two significands of single precision have room in one of double precision. -/
theorem keepsOff_mul :
    KeepsOff (Binary.signedMagnitude single leftNegative left * Binary.signedMagnitude single rightNegative right) := by
  apply keepsOff_of_exact
  have product : single.significand left * single.significand right < 2 ^ 24 * 2 ^ 24 :=
    Nat.mul_lt_mul'' (significand_single_lt left) (significand_single_lt right)
  obtain ⟨rank, exact⟩ := exists_magnitude_eq_double
    (show single.significand left * single.significand right < 2 ^ 53 by omega)
    (show -1074 ≤ (single.doublings left - 149 : Int) + (single.doublings right - 149) by omega)
  refine ⟨rank, exact.trans ?_⟩
  rw [abs_mul, abs_signedMagnitude, abs_signedMagnitude, magnitude_single, magnitude_single, zpow_add₀ two_ne_zero]
  push_cast
  ring

private theorem exists_signed_significand (negative : Bool) (rank : Nat) :
    ∃ count : Int, count.natAbs = single.significand rank ∧
      Binary.signedMagnitude single negative rank = count * (2 : ℚ) ^ (single.doublings rank - 149 : Int) := by
  cases negative with
  | false =>
    refine ⟨single.significand rank, Int.natAbs_natCast _, ?_⟩
    rw [Binary.signedMagnitude, if_neg Bool.false_ne_true, magnitude_single, Int.cast_natCast]
  | true =>
    refine ⟨-single.significand rank, (Int.natAbs_neg _).trans (Int.natAbs_natCast _), ?_⟩
    rw [Binary.signedMagnitude, if_pos rfl, magnitude_single]
    push_cast
    ring

/-- The sum of operands that are close enough fits into a double. -/
theorem keepsOff_add_near (order : single.doublings right ≤ single.doublings left)
    (near : single.doublings left ≤ single.doublings right + 28) :
    KeepsOff (Binary.signedMagnitude single leftNegative left + Binary.signedMagnitude single rightNegative right) := by
  apply keepsOff_of_exact
  obtain ⟨apart, gap⟩ := Nat.exists_eq_add_of_le order
  obtain ⟨l, leftSize, leftExact⟩ := exists_signed_significand leftNegative left
  obtain ⟨r, rightSize, rightExact⟩ := exists_signed_significand rightNegative right
  have leftShort := significand_single_lt left
  have rightShort := significand_single_lt right
  have small : 2 ^ apart ≤ 2 ^ 28 := Nat.pow_le_pow_right (by decide) (by omega)
  have scaled : (l * 2 ^ apart).natAbs ≤ 2 ^ 24 * 2 ^ 28 := by
    rw [Int.natAbs_mul, Int.natAbs_pow]
    exact Nat.mul_le_mul (by omega) small
  obtain ⟨rank, exact⟩ := exists_magnitude_eq_double (show (l * 2 ^ apart + r).natAbs < 2 ^ 53 by omega)
    (show -1074 ≤ (single.doublings right - 149 : Int) by omega)
  have exponent : (single.doublings left - 149 : Int) = apart + (single.doublings right - 149) := by omega
  have positive : (0 : ℚ) < 2 ^ (single.doublings right - 149 : Int) := zpow_pos two_pos _
  have total : Binary.signedMagnitude single leftNegative left + Binary.signedMagnitude single rightNegative right =
      (l * 2 ^ apart + r : Int) * (2 : ℚ) ^ (single.doublings right - 149 : Int) := by
    rw [leftExact, rightExact, exponent, zpow_add₀ two_ne_zero, zpow_natCast]
    push_cast
    ring
  refine ⟨rank, exact.trans ?_⟩
  rw [total, abs_mul, abs_of_pos positive, Nat.cast_natAbs, Int.cast_abs]

/-- An operand that is much smaller hardly moves the other, which lies between midpoints. -/
theorem keepsOff_add_far (far : single.doublings right + 29 ≤ single.doublings left) :
    KeepsOff (Binary.signedMagnitude single leftNegative left + Binary.signedMagnitude single rightNegative right) := by
  intro middle same
  exfalso
  have unit := single.one_pos'
  have spread : 2 ^ 29 * single.spacing right ≤ single.spacing left :=
    (twoPow_add 29 _).symm.trans_le (twoPow_le (by omega))
  have rightSpacing := single.spacing_pos right
  -- The moves are measured in a thirty-second of the spacing at the larger operand.
  obtain ⟨step, size⟩ : ∃ step, (single.spacing left : ℚ) / single.one = 32 * step :=
    ⟨(single.spacing left : ℚ) / single.one / 32, by ring⟩
  have leftSmall : single.magnitude left ≤ 2 ^ 29 * step := by
    have units : single.units left ≤ 2 ^ 24 * single.spacing left :=
      Nat.mul_le_mul_right _ (significand_single_lt left).le
    calc single.magnitude left ≤ (2 ^ 24 * single.spacing left : Nat) / single.one := by
          rw [magnitude_eq]
          exact div_le_div_of_nonneg_right (by exact_mod_cast units) unit.le
      _ = 2 ^ 24 * (single.spacing left / single.one) := by push_cast; ring
      _ = 2 ^ 29 * step := by rw [size]; ring
  have rightSmall : single.magnitude right ≤ step := by
    have units : 32 * single.units right ≤ single.spacing left := by
      have short : single.units right ≤ 2 ^ 24 * single.spacing right :=
        Nat.mul_le_mul_right _ (significand_single_lt right).le
      omega
    have scaled : 32 * single.magnitude right ≤ 32 * step := by
      rw [← size, magnitude_eq, ← mul_div_assoc]
      exact div_le_div_of_nonneg_right (by exact_mod_cast units) unit.le
    linarith
  have least : double.magnitude 1 / 2 ≤ step := by
    have units : 32 ≤ single.spacing left := by omega
    have scaled : 32 * single.magnitude 1 ≤ 32 * step := by
      rw [← size, magnitude_one_eq, ← mul_div_assoc, mul_one]
      exact div_le_div_of_nonneg_right (by exact_mod_cast units) unit.le
    have nonneg := double.magnitude_nonneg 1
    have finer := magnitude_one_double_le
    linarith
  have apart := single.quarter_spacing_le left middle
  rw [size] at apart
  generalize total : Binary.signedMagnitude single leftNegative left + Binary.signedMagnitude single rightNegative right =
    sum at same
  have moved := abs_abs_sub_abs_le sum (Binary.signedMagnitude single leftNegative left)
  rw [← total, add_sub_cancel_left, abs_signedMagnitude, abs_signedMagnitude, total] at moved
  have error := Json.double_error (abs_nonneg sum)
  rw [double.rankOfRat_abs, same] at error
  have triangle : |single.magnitude left - single.midpoint middle| ≤
      |(|sum| - single.magnitude left)| + |single.midpoint middle - (|sum|)| := by
    rw [abs_sub_comm |sum|, abs_sub_comm (single.midpoint middle)]
    exact abs_sub_le _ _ _
  have upper := (abs_le.mp moved).2
  have positive := double.magnitude_pos Nat.one_pos
  linarith

theorem keepsOff_add :
    KeepsOff (Binary.signedMagnitude single leftNegative left + Binary.signedMagnitude single rightNegative right) := by
  have ordered (leftNegative rightNegative : Bool) {left right : Nat}
      (order : single.doublings right ≤ single.doublings left) :
      KeepsOff (Binary.signedMagnitude single leftNegative left + Binary.signedMagnitude single rightNegative right) := by
    rcases Nat.lt_or_ge (single.doublings right + 28) (single.doublings left) with far | near
    · exact keepsOff_add_far leftNegative rightNegative far
    · exact keepsOff_add_near leftNegative rightNegative order near
  rcases Nat.le_total (single.doublings right) (single.doublings left) with order | order
  · exact ordered leftNegative rightNegative order
  · rw [add_comm]
    exact ordered rightNegative leftNegative order

end Operands

/-- A quotient that differs from a multiple of a power of two keeps a distance from it: multiplied by the divisor, both
are multiples of the smaller of two powers. -/
theorem eq_or_gap {denominator : Nat} (some : 0 < denominator) (numerator count : Nat) (exponent scale : Int) :
    (numerator : ℚ) * 2 ^ exponent / denominator = count * 2 ^ scale ∨
      count * (2 : ℚ) ^ scale ≤
        count * denominator * |(numerator : ℚ) * 2 ^ exponent / denominator - count * 2 ^ scale| ∨
      (numerator : ℚ) * 2 ^ exponent / denominator ≤
        numerator * |(numerator : ℚ) * 2 ^ exponent / denominator - count * 2 ^ scale| := by
  have divisor : (0 : ℚ) < denominator := by exact_mod_cast some
  -- Both values are integers times the smaller power, once they are multiplied by the divisor.
  have distance {left right : Int} {power : ℚ} (positive : 0 < power) (different : left ≠ right) :
      power / denominator ≤ |left * power / denominator - right * power / denominator| := by
    have integers : (1 : ℚ) ≤ |((left - right : Int) : ℚ)| := by
      exact_mod_cast Int.one_le_abs (sub_ne_zero.mpr different)
    rw [← sub_div, ← sub_mul, ← Int.cast_sub, abs_div, abs_mul, abs_of_pos positive, abs_of_pos divisor]
    exact div_le_div_of_nonneg_right (le_mul_of_one_le_left positive.le integers) divisor.le
  rcases le_total scale exponent with coarse | fine
  · obtain ⟨doublings, rfl⟩ := Int.le.dest coarse
    have positive : (0 : ℚ) < 2 ^ scale := zpow_pos two_pos _
    have left : (numerator : ℚ) * 2 ^ (scale + doublings) / denominator =
        (numerator * 2 ^ doublings : Int) * 2 ^ scale / denominator := by
      rw [zpow_add₀ two_ne_zero, zpow_natCast]
      push_cast
      ring
    have right : (count : ℚ) * 2 ^ scale = (count * denominator : Int) * 2 ^ scale / denominator := by
      push_cast
      field_simp
    rw [left]
    by_cases same : (numerator * 2 ^ doublings : Int) = count * denominator
    · left
      rw [same, ← right]
    · right
      left
      have gap := distance positive same
      rw [← right] at gap
      calc count * (2 : ℚ) ^ scale = count * denominator * (2 ^ scale / denominator) := by field_simp
        _ ≤ _ := mul_le_mul_of_nonneg_left gap (by positivity)
  · obtain ⟨doublings, rfl⟩ := Int.le.dest fine
    have positive : (0 : ℚ) < 2 ^ exponent := zpow_pos two_pos _
    have right : (count : ℚ) * 2 ^ (exponent + doublings) =
        (count * 2 ^ doublings * denominator : Int) * 2 ^ exponent / denominator := by
      rw [zpow_add₀ two_ne_zero, zpow_natCast]
      push_cast
      field_simp
    by_cases same : (numerator : Int) = count * 2 ^ doublings * denominator
    · left
      rw [right, ← same, Int.cast_natCast]
    · right
      right
      have gap := distance positive same
      rw [← right, Int.cast_natCast] at gap
      calc (numerator : ℚ) * 2 ^ exponent / denominator = numerator * (2 ^ exponent / denominator) := by ring
        _ ≤ _ := mul_le_mul_of_nonneg_left gap (by positivity)

theorem significand_pos (format : Format) {rank : Nat} (positive : 0 < rank) : 0 < format.significand rank := by
  have units := format.units_strictMono positive
  rw [units_zero, units_eq] at units
  exact Nat.pos_of_mul_pos_right units

section Quotient

variable {numerator denominator : Nat} {exponent : Int} {value : ℚ} (numeratorPos : 0 < numerator)
  (denominatorPos : 0 < denominator) (denominatorShort : denominator < 2 ^ 24) (moderate : -253 ≤ exponent)
  (exact : |value| = (numerator : ℚ) * 2 ^ exponent / denominator)
include numeratorPos denominatorPos denominatorShort moderate exact

/-- The quotient of short significands is a normal double, so its error is a small part of it. -/
theorem double_error_div : |double.magnitude (double.rankOfRat value) - (|value|)| ≤ |value| / 2 ^ 53 := by
  have divisor : (0 : ℚ) < denominator := by exact_mod_cast denominatorPos
  have most : (denominator : ℚ) ≤ 2 ^ (24 : Int) := by exact_mod_cast denominatorShort.le
  have least : (1 : ℚ) ≤ numerator := by exact_mod_cast numeratorPos
  have normal : double.magnitude double.binadeSize ≤ |value| := by
    rw [Json.magnitude_binadeSize_double, exact]
    calc (2 : ℚ) ^ (-1022 : Int) ≤ 2 ^ (exponent - 24) := zpow_le_zpow_right₀ one_le_two (by omega)
      _ = 2 ^ exponent / 2 ^ (24 : Int) := zpow_sub₀ two_ne_zero _ _
      _ ≤ 2 ^ exponent / denominator := div_le_div_of_nonneg_left (zpow_pos two_pos _).le divisor most
      _ ≤ numerator * 2 ^ exponent / denominator :=
          div_le_div_of_nonneg_right (le_mul_of_one_le_left (zpow_pos two_pos _).le least) divisor.le
  have error := double.abs_magnitude_rankOfRat_sub_le normal
  rwa [Json.two_mul_binadeSize_double, double.rankOfRat_abs] at error

/-- A quotient is off a midpoint by more than rounding to a double could make up for. -/
theorem keepsOff_of_quotient (numeratorShort : numerator < 2 ^ 24) : KeepsOff value := by
  intro middle same
  have error := double_error_div numeratorPos denominatorPos denominatorShort moderate exact
  rw [same, midpoint_eq_odd, abs_sub_comm] at error
  rw [midpoint_eq_odd]
  have divisor : (0 : ℚ) < denominator := by exact_mod_cast denominatorPos
  have dividend : (0 : ℚ) < numerator := by exact_mod_cast numeratorPos
  have positive : 0 < |value| := by
    rw [exact]
    exact div_pos (mul_pos dividend (zpow_pos two_pos _)) divisor
  have gap := eq_or_gap denominatorPos numerator (2 * single.significand middle + 1) exponent
    (single.doublings middle - single.unitBits - 1)
  rw [← exact] at gap
  rcases gap with equal | gap | gap
  · exact equal
  · exfalso
    have odd : 2 * single.significand middle + 1 ≤ 2 ^ 25 := by
      have := significand_single_lt middle
      omega
    have product : ((2 * single.significand middle + 1 : Nat) : ℚ) * denominator ≤ 2 ^ 49 := by
      exact_mod_cast (Nat.mul_le_mul odd denominatorShort.le).trans (by norm_num)
    have scaled := mul_le_mul product error (abs_nonneg _) (by norm_num)
    have lower := (abs_le.mp error).2
    linarith
  · exfalso
    have few : (numerator : ℚ) ≤ 2 ^ 24 := by exact_mod_cast numeratorShort.le
    have scaled := mul_le_mul few error (abs_nonneg _) (by norm_num)
    linarith

end Quotient

/-- The size of a quotient of floats in terms of their significands. -/
theorem abs_quotient_eq (leftNegative rightNegative : Bool) (left right : Nat) :
    |Binary.signedMagnitude single leftNegative left / Binary.signedMagnitude single rightNegative right| =
      (single.significand left : ℚ) * 2 ^ (single.doublings left - single.doublings right : Int) /
        single.significand right := by
  rw [abs_div, abs_signedMagnitude, abs_signedMagnitude, magnitude_single, magnitude_single, mul_div_mul_comm,
    ← zpow_sub₀ two_ne_zero, sub_sub_sub_cancel_right]
  ring

theorem keepsOff_div (leftNegative rightNegative : Bool) {left right : Nat} (rightFinite : right < single.limit)
    (some : 0 < right) :
    KeepsOff (Binary.signedMagnitude single leftNegative left / Binary.signedMagnitude single rightNegative right) := by
  rcases Nat.eq_zero_or_pos left with rfl | positive
  · apply keepsOff_of_exact
    refine ⟨0, ?_⟩
    rw [abs_div, abs_signedMagnitude, magnitude_zero, magnitude_zero, zero_div]
  · have exact := abs_quotient_eq leftNegative rightNegative left right
    have last := doublings_single_le rightFinite
    exact keepsOff_of_quotient (single.significand_pos positive) (single.significand_pos some)
      (significand_single_lt right) (by omega) exact (significand_single_lt left)

end Format

end ScriptNumbers
