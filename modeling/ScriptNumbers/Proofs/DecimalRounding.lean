import ScriptNumbers.Decimal.Basic
import ScriptNumbers.Proofs.Rounding

/-! Decimals are rounded from their exact values. The two shortcuts for exponents out of range decide as the
exact value would. -/

namespace ScriptNumbers

namespace Format

variable (format : Format)

/-- The first magnitude out of range is a power of two. -/
theorem magnitude_limit : format.magnitude format.limit = 2 ^ twoPow (format.exponentBits - 1) := by
  have precision := format.two_le_precision
  have exponents := format.two_le_exponentBits
  obtain ⟨bits, width⟩ : ∃ bits, format.exponentBits = bits + 1 := ⟨format.exponentBits - 1, by omega⟩
  have half : 2 ≤ twoPow bits := twoPow_le (show 1 ≤ bits by omega)
  have double : twoPow (bits + 1) = 2 * twoPow bits := twoPow_succ bits
  have last : format.limit = (2 * twoPow bits - 2 + 1) * format.binadeSize := by
    rw [limit, width, double, show 2 * twoPow bits - 1 = 2 * twoPow bits - 2 + 1 by omega]
  have total : format.fractionBits + (2 * twoPow bits - 2) = twoPow bits + format.unitBits := by
    rw [fractionBits, unitBits, width, Nat.add_sub_cancel]
    omega
  rw [magnitude_eq, last, units_mul_binadeSize, binadeSize, ← twoPow_add, total, width, Nat.add_sub_cancel, twoPow_add,
    Nat.cast_mul, one, mul_div_assoc, div_self (by exact_mod_cast (twoPow_pos format.unitBits).ne'), mul_one, natCast_twoPow]

theorem midpoint_zero : format.midpoint 0 = 1 / (2 * format.one) := by
  have size := format.binadeSize_pos
  rw [midpoint, magnitude_zero, magnitude_eq, format.units_of_lt (by omega)]
  push_cast
  field_simp
  norm_num

end Format

namespace Decimal

variable (format : Format) (decimal : Decimal)

theorem ten_zpow_pos (exponent : Int) : (0 : ℚ) < 10 ^ exponent := zpow_pos (by norm_num) exponent

theorem toRat_nonneg : 0 ≤ decimal.toRat :=
  mul_nonneg (Nat.cast_nonneg _) (ten_zpow_pos _).le

theorem toRat_of_digits_eq_zero (zero : decimal.digits = 0) : decimal.toRat = 0 := by
  rw [toRat, zero, Nat.cast_zero, zero_mul]

private theorem two_zpow_le_ten_zpow {exponent : Int} (nonneg : 0 ≤ exponent) :
    (2 : ℚ) ^ (3 * exponent) ≤ 10 ^ exponent := by
  rw [zpow_mul]
  exact zpow_le_zpow_left₀ nonneg (by norm_num) (by norm_num)

private theorem ten_zpow_le_two_zpow {exponent : Int} (nonpos : exponent ≤ 0) :
    (10 : ℚ) ^ exponent ≤ 2 ^ (3 * exponent) := by
  have inverse := two_zpow_le_ten_zpow (show 0 ≤ -exponent by omega)
  rw [mul_neg, zpow_neg, zpow_neg] at inverse
  exact (inv_le_inv₀ (zpow_pos (by norm_num) _) (ten_zpow_pos _)).mp inverse

private theorem digits_lt_two_pow : (decimal.digits : ℚ) < 2 ^ (decimal.digits.log2 + 1) := by
  exact_mod_cast Nat.lt_log2_self (n := decimal.digits)

private theorem limit_le_rankOfRat {decimal : Decimal} (some : decimal.digits ≠ 0)
    (far : (twoPow (format.exponentBits - 1) : Int) ≤ 3 * decimal.exponent) :
    format.limit ≤ format.rankOfRat decimal.toRat := by
  have nonneg : 0 ≤ decimal.exponent := by
    have := twoPow_pos (format.exponentBits - 1)
    omega
  have digits : (1 : ℚ) ≤ decimal.digits := by exact_mod_cast Nat.one_le_iff_ne_zero.mpr some
  have large : format.magnitude format.limit ≤ decimal.toRat := by
    calc format.magnitude format.limit = (2 : ℚ) ^ (twoPow (format.exponentBits - 1) : Int) := by
          rw [format.magnitude_limit, zpow_natCast]
      _ ≤ 2 ^ (3 * decimal.exponent) := zpow_le_zpow_right₀ (by norm_num) far
      _ ≤ 10 ^ decimal.exponent := two_zpow_le_ten_zpow nonneg
      _ ≤ decimal.toRat := le_mul_of_one_le_left (ten_zpow_pos _).le digits
  exact format.le_rankOfRat_of_magnitude_le (large.trans (le_abs_self _))

private theorem rankOfRat_eq_zero {decimal : Decimal}
    (far : (decimal.digits.log2 + 2 + format.unitBits : Int) ≤ -3 * decimal.exponent) :
    format.rankOfRat decimal.toRat = 0 := by
  have nonpos : decimal.exponent ≤ 0 := by omega
  have small : decimal.toRat < format.midpoint 0 := by
    calc decimal.toRat < 2 ^ (decimal.digits.log2 + 1) * 10 ^ decimal.exponent :=
          mul_lt_mul_of_pos_right decimal.digits_lt_two_pow (ten_zpow_pos _)
      _ ≤ 2 ^ (decimal.digits.log2 + 1) * 2 ^ (3 * decimal.exponent) :=
          mul_le_mul_of_nonneg_left (ten_zpow_le_two_zpow nonpos) (by positivity)
      _ = (2 : ℚ) ^ ((decimal.digits.log2 + 1 : Nat) + 3 * decimal.exponent : Int) := by
          rw [zpow_add₀ (by norm_num), zpow_natCast]
      _ ≤ 2 ^ (-(1 + format.unitBits : Nat) : Int) := zpow_le_zpow_right₀ (by norm_num) (by push_cast; omega)
      _ = format.midpoint 0 := by
          rw [format.midpoint_zero, zpow_neg, zpow_natCast, pow_add, pow_one, Format.one, natCast_twoPow, one_div]
  refine Nat.le_zero.mp (format.rankOfRat_le_iff.mpr (Or.inl ?_))
  rwa [abs_of_nonneg decimal.toRat_nonneg]

/-- The shortcuts agree with the exact value, apart from how far out of range it is. -/
theorem rankOfDecimal_eq :
    format.rankOfDecimal decimal = format.rankOfRat decimal.toRat ∨
      format.rankOfDecimal decimal = format.limit ∧ format.limit ≤ format.rankOfRat decimal.toRat := by
  unfold Format.rankOfDecimal
  split
  next zero => exact Or.inl (by rw [decimal.toRat_of_digits_eq_zero zero, format.rankOfRat_zero])
  next some =>
    split
    next far => exact Or.inr ⟨rfl, limit_le_rankOfRat format some far⟩
    next =>
      split
      next far => exact Or.inl (rankOfRat_eq_zero format far).symm
      next => exact Or.inl rfl

theorem rankOfDecimal_eq_iff {rank : Nat} (finite : rank < format.limit) :
    format.rankOfDecimal decimal = rank ↔ format.rankOfRat decimal.toRat = rank := by
  rcases rankOfDecimal_eq format decimal with same | ⟨reached, beyond⟩
  · rw [same]
  · omega

end Decimal

namespace Binary

variable {format : Format}

theorem ofRank_of_limit_le {rank : Nat} (negative : Bool) (beyond : format.limit ≤ rank) :
    (ofRank negative rank : Binary format) = .infinity negative := by
  rw [ofRank, dif_neg (by omega)]

theorem ofRank_of_lt {rank : Nat} (negative : Bool) (inside : rank < format.limit) :
    (ofRank negative rank : Binary format) = .finite negative ⟨rank, inside⟩ := by
  rw [ofRank, dif_pos inside]

theorem rank_eq_of_ofRank_eq {negative : Bool} {rank : Nat} {finite : Fin format.limit}
    (same : (ofRank negative rank : Binary format) = .finite negative finite) : rank = finite := by
  unfold ofRank at same
  split at same
  next => cases same; rfl
  next => cases same

theorem ofRank_eq_infinity_iff {negative : Bool} {rank : Nat} :
    (ofRank negative rank : Binary format) = .infinity negative ↔ format.limit ≤ rank := by
  constructor
  · intro infinite
    by_contra finite
    rw [ofRank_of_lt negative (Nat.lt_of_not_le finite)] at infinite
    cases infinite
  · exact ofRank_of_limit_le negative

theorem isNegative_ofRank (negative : Bool) (rank : Nat) : (ofRank negative rank : Binary format).isNegative = negative := by
  rw [ofRank]
  split <;> rfl

/-- Conversion keeps the sign, that of a zero included. -/
theorem convert_finite {target : Format} (negative : Bool) (rank : Fin format.limit) :
    ((finite negative rank).convert : Binary target) =
      ofRank negative (target.rankOfRat (format.magnitude rank)) := by
  have nonneg := format.magnitude_nonneg rank
  cases negative with
  | false =>
    rw [convert, signedMagnitude, if_neg Bool.false_ne_true, round, decide_eq_false nonneg.not_gt, ite_self]
  | true =>
    rw [convert, signedMagnitude, if_pos rfl, round, Format.rankOfRat_neg]
    split
    next => rfl
    next some =>
      rw [neg_eq_zero] at some
      rw [decide_eq_true (neg_lt_zero.mpr (lt_of_le_of_ne nonneg (Ne.symm some)))]

theorem ofDecimal_eq (negative : Bool) (decimal : Decimal) :
    (ofDecimal negative decimal : Binary format) = ofRank negative (format.rankOfRat decimal.toRat) := by
  rw [ofDecimal]
  rcases decimal.rankOfDecimal_eq format with same | ⟨reached, beyond⟩
  · rw [same]
  · rw [reached, ofRank_of_limit_le negative le_rfl, ofRank_of_limit_le negative beyond]

theorem ofDecimal_congr (negative : Bool) {left right : Decimal} (same : left.toRat = right.toRat) :
    (ofDecimal negative left : Binary format) = ofDecimal negative right := by
  rw [ofDecimal_eq, ofDecimal_eq, same]

end Binary

end ScriptNumbers
