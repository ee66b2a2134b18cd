import ScriptNumbers.Proofs.IntegerQuotients
import ScriptNumbers.Proofs.Remainders

/-! Integer quotients of floats. The quotient is rounded to a double before it is cut off, which could carry it up to the
next integer. Below `2 ^ 30` it cannot: a quotient of two short significands stays away from every integer that it is
not equal to, by more than rounding moves it. -/

namespace ScriptNumbers

namespace Format

/-- Up to `2 ^ 30` doubles are no further than `2 ^ (-23)` apart. -/
theorem sub_le_midpoint_of_moderate {rank : Nat} (moderate : double.magnitude (rank + 1) ≤ 2 ^ 30) :
    double.magnitude (rank + 1) - 1 / 2 ^ 24 ≤ double.midpoint rank := by
  have size : double.binadeSize = 2 ^ 52 := rfl
  have unit : double.unitBits = 1074 := rfl
  have bound : double.magnitude (1053 * 2 ^ 52) = 2 ^ 30 := by decide +kernel
  have before : rank + 1 ≤ 1053 * 2 ^ 52 :=
    double.magnitude_strictMono.le_iff_le.mp (moderate.trans_eq bound.symm)
  have coarse : double.doublings rank ≤ 1051 := by
    rw [doublings, size]
    omega
  rw [midpoint_eq_sub, half_spacing_eq]
  apply sub_le_sub_left
  calc (2 : ℚ) ^ (double.doublings rank - double.unitBits - 1 : Int) ≤ 2 ^ (-24 : Int) :=
        zpow_le_zpow_right₀ one_le_two (by omega)
    _ = 1 / 2 ^ 24 := by norm_num

private theorem rankOfRat_lt_limit_of_moderate {value : ℚ} (small : |value| < 2 ^ 30) :
    double.rankOfRat value < double.limit := by
  have held : ∃ rank, double.magnitude rank = (2 ^ 30 : Nat) := exists_magnitude_eq_of_le (by norm_num)
  have rounded := double.magnitude_rankOfRat_le held (show |value| ≤ (2 ^ 30 : Nat) by exact_mod_cast small.le)
  apply lt_limit_of_magnitude_le
  exact rounded.trans (by norm_num)

section Quotient

variable {numerator denominator : Nat} {exponent : Int} {value : ℚ} (denominatorPos : 0 < denominator)
  (denominatorShort : denominator < 2 ^ 24) (moderate : -253 ≤ exponent)
  (exact : |value| = (numerator : ℚ) * 2 ^ exponent / denominator) (numeratorShort : numerator < 2 ^ 24)
include denominatorPos denominatorShort moderate exact numeratorShort

/-- A quotient below an integer is rounded to a double below it. Otherwise it would be rounded up to that integer, over
half the distance to the double before. -/
theorem magnitude_rankOfRat_lt {whole : Nat} (small : whole ≤ 2 ^ 30) (below : |value| < whole) :
    double.magnitude (double.rankOfRat value) < whole := by
  have divisor : (denominator : ℚ) < 2 ^ 24 := by exact_mod_cast denominatorShort
  have dividend : (numerator : ℚ) ≤ 2 ^ 24 := by exact_mod_cast numeratorShort.le
  have positive : (0 : ℚ) < whole := (abs_nonneg value).trans_lt below
  have held : ∃ rank, double.magnitude rank = whole := exists_magnitude_eq_of_le (small.trans (by norm_num))
  by_contra reached
  have rounded : double.magnitude (double.rankOfRat value) = whole :=
    le_antisymm (double.magnitude_rankOfRat_le held below.le) (not_lt.mp reached)
  have apart : |(|value| - whole)| = whole - |value| := by
    rw [abs_sub_comm, abs_of_pos (sub_pos.mpr below)]
  -- The quotient is not zero, since zero is not rounded at all.
  have nonzero : numerator ≠ 0 := by
    rintro rfl
    simp only [Nat.cast_zero, zero_mul, zero_div, abs_eq_zero] at exact
    rw [exact, rankOfRat_zero, magnitude_zero] at rounded
    exact positive.ne rounded
  have relative := double_error_div (Nat.pos_of_ne_zero nonzero) denominatorPos denominatorShort moderate exact
  have absolute : whole - |value| ≤ 1 / 2 ^ 24 := by
    obtain ⟨last, next⟩ := Nat.exists_eq_add_one_of_ne_zero (double.ne_zero_of_magnitude_pos (rounded ▸ positive))
    have passed : last < double.rankOfRat |value| := by
      rw [double.rankOfRat_abs, next]
      exact Nat.lt_add_one last
    have middle := double.midpoint_le_of_lt_rankOfRat (abs_nonneg value) passed
    rw [next] at rounded
    have near := sub_le_midpoint_of_moderate (rounded.trans_le (by exact_mod_cast small))
    rw [rounded] at near
    linarith
  have gap := eq_or_gap denominatorPos numerator whole exponent 0
  rw [← exact, zpow_zero, mul_one, apart] at gap
  rcases gap with equal | gap | gap
  · exact below.ne equal
  · have scaled : (denominator : ℚ) * (whole - |value|) < 1 := by
      have distance := sub_pos.mpr below
      nlinarith
    nlinarith
  · rw [rounded, abs_of_pos (sub_pos.mpr below)] at relative
    have some : 0 < |value| := by
      have numeratorPos : (0 : ℚ) < numerator := by exact_mod_cast Nat.pos_of_ne_zero nonzero
      have divisorPos : (0 : ℚ) < denominator := by exact_mod_cast denominatorPos
      rw [exact]
      exact div_pos (mul_pos numeratorPos (zpow_pos two_pos _)) divisorPos
    have distance := sub_pos.mpr below
    nlinarith

private theorem floor_magnitude_rankOfRat (small : |value| < 2 ^ 30) :
    ⌊double.magnitude (double.rankOfRat value)⌋ = ⌊|value|⌋ := by
  obtain ⟨whole, floor⟩ := Int.eq_ofNat_of_zero_le (Int.floor_nonneg.mpr (abs_nonneg value))
  have low : (whole : ℚ) ≤ |value| := by
    have := Int.floor_le |value|
    rwa [floor] at this
  have high : |value| < (whole + 1 : Nat) := by
    have := Int.lt_floor_add_one |value|
    rw [floor] at this
    exact_mod_cast this
  have bound : whole < 2 ^ 30 := by exact_mod_cast low.trans_lt small
  have held : ∃ rank, double.magnitude rank = whole := exists_magnitude_eq_of_le (by omega)
  rw [floor, Int.floor_eq_iff]
  constructor
  · exact double.le_magnitude_rankOfRat held low
  · exact_mod_cast magnitude_rankOfRat_lt denominatorPos denominatorShort moderate exact numeratorShort bound high

/-- Rounding a quotient keeps its integer part, on either side of zero. -/
theorem truncated_valueOfKey_keyOfRat (small : |value| < 2 ^ 30) :
    truncated (double.valueOfKey (double.keyOfRat value)) = truncated value := by
  have unsigned (value : ℚ) (exact : |value| = (numerator : ℚ) * 2 ^ exponent / denominator) (small : |value| < 2 ^ 30)
      (nonneg : 0 ≤ value) : truncated (double.valueOfKey (double.keyOfRat value)) = truncated value := by
    have floor := floor_magnitude_rankOfRat denominatorPos denominatorShort moderate exact numeratorShort small
    have finite := rankOfRat_lt_limit_of_moderate small
    rw [double.keyOfRat_of_finite nonneg finite, valueOfKey_natCast, truncated, truncated,
      if_pos (double.magnitude_nonneg _), if_pos nonneg, floor, abs_of_nonneg nonneg]
  rcases le_total 0 value with nonneg | nonpos
  · exact unsigned value exact small nonneg
  · have mirrored := unsigned (-value) (by rwa [abs_neg]) (by rwa [abs_neg]) (neg_nonneg.mpr nonpos)
    rwa [keyOfRat_neg, valueOfKey_neg, truncated_neg, truncated_neg, neg_inj] at mirrored

end Quotient

end Format

namespace Binary

open Format

variable {left right : Single} {l r : ℚ} (leftExact : left.toRat? = some l) (rightExact : right.toRat? = some r)
  (nonzero : r ≠ 0) (moderate : |l / r| < 2 ^ 30)
include leftExact rightExact nonzero moderate

/-- The quotient of floats, as a double, has the integer part of the exact quotient. -/
theorem exists_toRat?_divide :
    ∃ rounded, ((left.convert : Double).divide right.convert).toRat? = some rounded ∧
      truncated rounded = truncated (l / r) := by
  obtain ⟨key, found, near⟩ := isNearest_divide ((widens_convert left).toRat?.trans leftExact)
    ((widens_convert right).toRat?.trans rightExact) nonzero
  rw [Format.isNearest_iff.mp near] at found
  have finite := rankOfRat_lt_limit_of_moderate moderate
  refine ⟨_, toRat?_of_key? found ?_, ?_⟩
  · rwa [double.natAbs_keyOfRat, min_eq_left finite.le]
  · cases left with
    | nan | infinity => cases leftExact
    | finite leftNegative dividend =>
      cases right with
      | nan | infinity => cases rightExact
      | finite rightNegative divisor =>
        cases leftExact
        cases rightExact
        have some := Nat.pos_of_ne_zero (ne_zero_of_signedMagnitude nonzero)
        have last := doublings_single_le divisor.isLt
        have exact := abs_quotient_eq leftNegative rightNegative dividend divisor
        exact truncated_valueOfKey_keyOfRat (single.significand_pos some) (significand_single_lt divisor) (by omega) exact
          (significand_single_lt dividend) moderate

end Binary

namespace Number

/-- The integer quotient of floats is exact below `2 ^ 30`, and together with the remainder it gives the dividend
back. -/
theorem intDivide_floats {left right : Single} {l r : ℚ} (leftExact : left.toRat? = some l)
    (rightExact : right.toRat? = some r) (nonzero : r ≠ 0) (moderate : |l / r| < 2 ^ 30) :
    ∃ (quotient : Int32) (remainder : Single) (rest : ℚ),
      (float left).intDivide (float right) = .ok (int32 quotient) ∧ quotient.toInt = truncated (l / r) ∧
      (float left).modulo (float right) = .ok (float remainder) ∧ remainder.toRat? = some rest ∧
      l = quotient.toInt * r + rest := by
  have divisor : (float right).toRat? ≠ some 0 := fun zero => nonzero (Option.some.inj (rightExact.symm.trans zero))
  obtain ⟨rounded, found, whole⟩ := Binary.exists_toRat?_divide leftExact rightExact nonzero moderate
  have floating : (float left).kind.isFloating ∨ (float right).kind.isFloating := Or.inl rfl
  obtain ⟨quotient, divided, cut⟩ := intDivide_of_floating divisor floating
  obtain ⟨remains, -⟩ := Binary.remainder_exact leftExact rightExact nonzero
  obtain rfl := Except.ok.inj divided
  have bound : |truncated (l / r)| < 2 ^ 30 := by exact_mod_cast (abs_truncated_le (l / r)).trans_lt moderate
  obtain ⟨low, high⟩ := abs_lt.mp bound
  have clamped := Binary.truncateInto_of_toRat? found Int32.minValue.toInt Int32.maxValue.toInt
  have least : Int32.minValue.toInt = -2 ^ 31 := rfl
  have last : Int32.maxValue.toInt = 2 ^ 31 - 1 := rfl
  rw [whole, least, last, min_eq_right (by omega), max_eq_right (by omega)] at clamped
  have word : (Int32.ofInt (truncated (l / r))).toInt = truncated (l / r) :=
    Int32.toInt_ofInt_of_le (by omega) (by omega)
  refine ⟨.ofInt (truncated (l / r)), _, _, ?_, word, modulo_of_floats left right, remains, ?_⟩
  · rw [cut]
    exact congrArg (fun value => Except.ok (int32 (.ofInt value))) clamped
  · rw [word]
    ring

/-- A quotient that lies below the integer `1056964607` by less than `2 ^ (-23)`. -/
theorem intDivide_floats_gap :
    (Binary.ofBits 0x5a7bffff : Single).toRat? = some (16515071 * 2 ^ 30) ∧
    (Binary.ofBits 0x4b7fffff : Single).toRat? = some 16777215 ∧ (16777215 : ℚ) ≠ 0 ∧
    |(16515071 * 2 ^ 30 / 16777215 : ℚ)| < 2 ^ 30 ∧
    (float (.ofBits 0x5a7bffff)).intDivide (float (.ofBits 0x4b7fffff)) = .ok (int32 1056964606) ∧
    truncated (16515071 * 2 ^ 30 / 16777215) = 1056964606 ∧
    (float (.ofBits 0x5a7bffff)).modulo (float (.ofBits 0x4b7fffff)) = .ok (float (.ofInt 16777214)) := by
  have leftExact : (Binary.ofBits 0x5a7bffff : Single).toRat? = some (16515071 * 2 ^ 30) := by decide +kernel
  have rightExact : (Binary.ofBits 0x4b7fffff : Single).toRat? = some 16777215 := by decide +kernel
  have nonzero : (16777215 : ℚ) ≠ 0 := by decide +kernel
  have moderate : |(16515071 * 2 ^ 30 / 16777215 : ℚ)| < 2 ^ 30 := by decide +kernel
  have rest : (float (.ofBits 0x5a7bffff)).modulo (float (.ofBits 0x4b7fffff)) = .ok (float (.ofInt 16777214)) := by
    decide +kernel
  have integer : (float (.ofBits 0x5a7bffff)).intDivide (float (.ofBits 0x4b7fffff)) = .ok (int32 1056964606) := by
    decide +kernel
  obtain ⟨quotient, _, _, divided, whole, -⟩ := intDivide_floats leftExact rightExact nonzero moderate
  obtain rfl := int32.inj (Except.ok.inj (integer.symm.trans divided))
  exact ⟨leftExact, rightExact, nonzero, moderate, divided, whole.symm, rest⟩

end Number

end ScriptNumbers
