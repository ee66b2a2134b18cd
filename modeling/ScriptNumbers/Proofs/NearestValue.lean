import ScriptNumbers.Proofs.KeyOrder

/-! Rounding as IEEE 754 words it: to the nearest value, of two to the even one, as if the magnitudes went on. What
reaches the first magnitude behind the last is infinite. -/

namespace ScriptNumbers

private theorem abs_sub_le_left_iff {value lower upper : ℚ} (order : lower < upper) :
    |value - lower| ≤ |value - upper| ↔ 2 * value ≤ lower + upper := by
  rw [← sq_le_sq]
  constructor
  · intro squares
    by_contra beyond
    nlinarith
  · intro before
    nlinarith

private theorem abs_sub_le_right_iff {value lower upper : ℚ} (order : lower < upper) :
    |value - upper| ≤ |value - lower| ↔ lower + upper ≤ 2 * value := by
  rw [← sq_le_sq]
  constructor
  · intro squares
    by_contra before
    nlinarith
  · intro beyond
    nlinarith

namespace Format

variable (format : Format)

/-- The key nearest to a value, a tie going to the even key. Here the keys of the infinities stand for the magnitude
that would come after the last. -/
structure IsNearest (value : ℚ) (key : Int) : Prop where
  inside : key.natAbs ≤ format.limit
  nearest : ∀ other : Int, other.natAbs ≤ format.limit →
    |value - format.valueOfKey key| ≤ |value - format.valueOfKey other|
  even : ∀ other : Int, other.natAbs ≤ format.limit → other ≠ key →
    |value - format.valueOfKey other| = |value - format.valueOfKey key| → key % 2 = 0

variable {format} {value : ℚ} {key : Int}

private theorem IsNearest.neg (near : format.IsNearest value key) : format.IsNearest (-value) (-key) := by
  have mirror (other : Int) : |-value - format.valueOfKey other| = |value - format.valueOfKey (-other)| := by
    rw [valueOfKey_neg, ← abs_neg, neg_sub', neg_neg]
  constructor
  · rw [Int.natAbs_neg]
    exact near.inside
  · intro other inside
    rw [mirror, mirror, neg_neg]
    exact near.nearest (-other) (by rwa [Int.natAbs_neg])
  · intro other inside different level
    rw [mirror, mirror, neg_neg] at level
    have even := near.even (-other) (by rwa [Int.natAbs_neg]) (by omega) level
    omega

/-- Only the midpoints next to a key count, since all others are farther away. -/
theorem IsNearest.of_midpoints (inside : key.natAbs ≤ format.limit)
    (above : key < format.limit →
      2 * value < format.valueOfKey key + format.valueOfKey (key + 1) ∨
        2 * value = format.valueOfKey key + format.valueOfKey (key + 1) ∧ key % 2 = 0)
    (below : -format.limit < key →
      format.valueOfKey (key - 1) + format.valueOfKey key < 2 * value ∨
        format.valueOfKey (key - 1) + format.valueOfKey key = 2 * value ∧ key % 2 = 0) :
    format.IsNearest value key := by
  have mono := format.valueOfKey_strictMono
  constructor
  · exact inside
  · intro other reach
    rcases lt_trichotomy key other with order | rfl | order
    · have next := mono.monotone (Int.add_one_le_of_lt order)
      rw [abs_sub_le_left_iff (mono order)]
      rcases above (by omega) with strict | ⟨level, -⟩ <;> linarith
    · exact le_rfl
    · have next := mono.monotone (Int.le_sub_one_of_lt order)
      rw [abs_sub_le_right_iff (mono order)]
      rcases below (by omega) with strict | ⟨level, -⟩ <;> linarith
  · intro other reach different level
    rcases lt_or_gt_of_ne different with order | order
    · have next := mono.monotone (Int.le_sub_one_of_lt order)
      have tie := (abs_sub_le_left_iff (mono order)).mp level.le
      rcases below (by omega) with strict | ⟨-, even⟩
      · linarith
      · exact even
    · have next := mono.monotone (Int.add_one_le_of_lt order)
      have tie := (abs_sub_le_right_iff (mono order)).mp level.le
      rcases above (by omega) with strict | ⟨-, even⟩
      · linarith
      · exact even

private theorem IsNearest.not_lt {other : Int} (near : format.IsNearest value key)
    (also : format.IsNearest value other) : ¬key < other := by
  intro order
  have mono := format.valueOfKey_strictMono
  have level := le_antisymm (near.nearest other also.inside) (also.nearest key near.inside)
  have even := near.even other also.inside order.ne' level.symm
  have otherEven := also.even key near.inside order.ne level
  -- Both are even, so there is a key between them, and the value is nearer to that one.
  have reach : (key + 1).natAbs ≤ format.limit := by
    have first := near.inside
    have last := also.inside
    omega
  have lower := (abs_sub_le_left_iff (mono (Int.lt_succ key))).mp (near.nearest (key + 1) reach)
  have upper := (abs_sub_le_right_iff (mono (show key + 1 < other by omega))).mp (also.nearest (key + 1) reach)
  have ends := mono order
  linarith

private theorem isNearest_keyOfRat_of_nonneg (nonneg : 0 ≤ value) : format.IsNearest value (format.keyOfRat value) := by
  have limit := format.limit_pos
  have size := abs_of_nonneg nonneg
  rw [format.keyOfRat_of_nonneg nonneg, ← Nat.cast_min]
  apply IsNearest.of_midpoints
  · omega
  · intro finite
    rw [min_eq_left (by omega), ← Int.natCast_succ, valueOfKey_natCast, valueOfKey_natCast]
    have nearest := format.rankOfRat_le_iff.mp (le_refl (format.rankOfRat value))
    rw [size, midpoint] at nearest
    rcases nearest with strict | ⟨level, even⟩
    · left
      linarith
    · exact Or.inr ⟨by linarith, by omega⟩
  · intro proper
    cases found : min (format.rankOfRat value) format.limit with
    | zero =>
      have negative := format.valueOfKey_strictMono (show (-1 : Int) < 0 by decide)
      rw [valueOfKey_zero] at negative
      left
      rw [Nat.cast_zero, zero_sub, valueOfKey_zero]
      linarith
    | succ rank =>
      rw [Int.natCast_succ, add_sub_cancel_right, ← Int.natCast_succ, valueOfKey_natCast, valueOfKey_natCast]
      have nearest := format.lt_rankOfRat_iff.mp (show rank < format.rankOfRat value by omega)
      rw [size, midpoint] at nearest
      rcases nearest with strict | ⟨level, odd⟩
      · left
        linarith
      · exact Or.inr ⟨by linarith, by omega⟩

theorem isNearest_iff : format.IsNearest value key ↔ key = format.keyOfRat value := by
  have rounded : format.IsNearest value (format.keyOfRat value) := by
    rcases le_total 0 value with nonneg | nonpos
    · exact isNearest_keyOfRat_of_nonneg nonneg
    · have mirrored : format.IsNearest (- -value) (-format.keyOfRat (-value)) :=
        (isNearest_keyOfRat_of_nonneg (neg_nonneg.mpr nonpos)).neg
      rwa [keyOfRat_neg, neg_neg, neg_neg] at mirrored
  constructor
  · intro near
    have notBefore := near.not_lt rounded
    have notBehind := rounded.not_lt near
    omega
  · rintro rfl
    exact rounded

/-- Infinity is nearest from halfway to its magnitude on, since its key is even. -/
theorem limit_le_rankOfRat_iff :
    format.limit ≤ format.rankOfRat value ↔ format.midpoint (format.limit - 1) ≤ |value| := by
  have limit := format.limit_pos
  have even : format.limit % 2 = 0 := by
    rw [Format.limit, Nat.mul_mod, format.binadeSize_even, Nat.mul_zero, Nat.zero_mod]
  have reached : format.limit ≤ format.rankOfRat value ↔ format.limit - 1 < format.rankOfRat value := by omega
  rw [reached, lt_rankOfRat_iff, and_iff_left (by omega), le_iff_lt_or_eq, eq_comm (a := |value|)]

/-- Zero is even, so halfway to the least magnitude still belongs to it. -/
theorem rankOfRat_eq_zero_iff : format.rankOfRat value = 0 ↔ |value| ≤ format.midpoint 0 := by
  rw [← Nat.le_zero, rankOfRat_le_iff, and_iff_left (Nat.zero_mod 2), ← le_iff_lt_or_eq]

/-- Half the last spacing is missing to the power of two behind it. -/
theorem midpoint_last {bits : Nat} (spacing : format.spacing (format.limit - 1) = 2 ^ (bits + 1) * format.one) :
    format.midpoint (format.limit - 1) = format.magnitude format.limit - 2 ^ bits := by
  have unit := format.one_pos'
  have half : (2 : ℚ) ^ (bits + 1) / 2 = 2 ^ bits := by rw [pow_succ, mul_div_cancel_right₀ _ two_ne_zero]
  rw [midpoint_eq_sub, Nat.sub_add_cancel format.limit_pos, spacing, Nat.cast_mul, mul_div_cancel_right₀ _ unit.ne',
    Nat.cast_pow, Nat.cast_ofNat, half]

theorem single_midpoint_limit : single.midpoint (single.limit - 1) = 2 ^ 128 - 2 ^ 103 := by
  have last : single.magnitude single.limit = 2 ^ 128 := single.magnitude_limit
  have spacing : single.spacing (single.limit - 1) = 2 ^ (103 + 1) * single.one := by decide +kernel
  rw [midpoint_last spacing, last]

theorem double_midpoint_limit : double.midpoint (double.limit - 1) = 2 ^ 1024 - 2 ^ 970 := by
  have last : double.magnitude double.limit = 2 ^ 1024 := double.magnitude_limit
  have spacing : double.spacing (double.limit - 1) = 2 ^ (970 + 1) * double.one := by decide +kernel
  rw [midpoint_last spacing, last]

theorem single_midpoint_zero : single.midpoint 0 = 1 / 2 ^ 150 := by
  have unit : single.one = 2 ^ 149 := by decide +kernel
  rw [midpoint_zero, unit, Nat.cast_pow, Nat.cast_ofNat, ← pow_succ']

theorem double_midpoint_zero : double.midpoint 0 = 1 / 2 ^ 1075 := by
  have unit : double.one = 2 ^ 1074 := by decide +kernel
  rw [midpoint_zero, unit, Nat.cast_pow, Nat.cast_ofNat, ← pow_succ']

end Format

namespace Binary

variable {format : Format}

/-- The value of a format that is nearest to a rational; of two zeros, either is. -/
def IsNearest (value : ℚ) (result : Binary format) : Prop :=
  ∃ key, result.key? = some key ∧ format.IsNearest value key

variable (negative : Bool) (decimal : Decimal)

theorem isNearest_ofDecimal :
    (ofDecimal negative decimal : Binary format).IsNearest (if negative then -decimal.toRat else decimal.toRat) := by
  have nonneg := decimal.toRat_nonneg
  refine ⟨_, by rw [ofDecimal_eq, key?_ofRank], Format.isNearest_iff.mpr ?_⟩
  cases negative with
  | false => exact (format.keyOfRat_of_nonneg nonneg).symm
  | true =>
    rw [if_pos rfl, if_pos rfl, format.keyOfRat_neg, format.keyOfRat_of_nonneg nonneg]

theorem isNegative_ofDecimal : (ofDecimal negative decimal : Binary format).isNegative = negative := by
  rw [ofDecimal, isNegative_ofRank]

theorem ofDecimal_eq_infinity_iff :
    (ofDecimal negative decimal : Binary format) = .infinity negative ↔
      format.midpoint (format.limit - 1) ≤ decimal.toRat := by
  have threshold : format.limit ≤ format.rankOfRat decimal.toRat ↔ _ := Format.limit_le_rankOfRat_iff
  rw [abs_of_nonneg decimal.toRat_nonneg] at threshold
  rw [ofDecimal_eq, ← threshold, ofRank_eq_infinity_iff]

end Binary

end ScriptNumbers
