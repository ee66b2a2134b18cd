import ScriptNumbers.Proofs.NearMisses
import ScriptNumbers.Proofs.ShortestDecimal

/-! A value that is close to the shortest decimal of a single-precision magnitude, as the same decimal read in
double precision, still rounds to that magnitude. Only a midpoint between the decimal and the value could spoil
this, and hardly any decimal comes that close to a midpoint. -/

namespace ScriptNumbers

namespace Format

variable (format : Format)

theorem half_spacing_eq (rank : Nat) :
    (format.spacing rank : ℚ) / format.one / 2 = 2 ^ (format.doublings rank - format.unitBits - 1 : Int) := by
  rw [spacing, one, natCast_twoPow, natCast_twoPow, zpow_sub₀ (by norm_num), zpow_sub₀ (by norm_num), zpow_natCast,
    zpow_natCast, zpow_one]

/-- A midpoint is an odd number of half spacings. -/
theorem midpoint_eq_odd (rank : Nat) :
    format.midpoint rank =
      (2 * format.significand rank + 1 : Nat) * 2 ^ (format.doublings rank - format.unitBits - 1 : Int) := by
  rw [midpoint_eq_add, ← half_spacing_eq, magnitude_eq, units_eq]
  push_cast
  field_simp

/-- The midpoints between floats are doubles. -/
theorem exists_magnitude_eq_midpoint (middle : Nat) : ∃ other, double.magnitude other = single.midpoint middle := by
  have short := single.significand_lt middle
  have size : single.binadeSize = 2 ^ 23 := rfl
  have wide : double.binadeSize = 2 ^ 52 := rfl
  have units : single.unitBits = 149 := rfl
  have fine : double.unitBits = 1074 := rfl
  rw [midpoint_eq_odd]
  exact double.exists_magnitude_eq (by omega) (by omega)

private theorem abs_magnitude_sub_midpoint {rank middle : Nat} (beside : middle = rank ∨ middle + 1 = rank) :
    |format.magnitude rank - format.midpoint middle| =
      2 ^ (format.doublings middle - format.unitBits - 1 : Int) := by
  have positive : (0 : ℚ) < 2 ^ (format.doublings middle - format.unitBits - 1 : Int) := zpow_pos (by norm_num) _
  rcases beside with rfl | rfl
  · rw [midpoint_eq_add, half_spacing_eq, sub_add_cancel_left, abs_neg, abs_of_pos positive]
  · rw [midpoint_eq_sub, half_spacing_eq, sub_sub_cancel, abs_of_pos positive]

/-- Between two values that round to different ranks there is a midpoint beside either rank. -/
theorem exists_midpoint_between {exact approx : ℚ} (exactNonneg : 0 ≤ exact) (approxNonneg : 0 ≤ approx)
    (other : format.rankOfRat approx ≠ format.rankOfRat exact) :
    ∃ middle, (middle = format.rankOfRat exact ∨ middle + 1 = format.rankOfRat exact) ∧
      |exact - format.midpoint middle| ≤ |approx - exact| := by
  rcases Nat.lt_or_gt_of_ne other with below | above
  · obtain ⟨middle, same⟩ := Nat.exists_eq_add_one_of_ne_zero (Nat.ne_zero_of_lt below)
    refine ⟨middle, Or.inr same.symm, ?_⟩
    have lower := format.le_midpoint_of_rankOfRat_le (show format.rankOfRat approx ≤ middle by omega)
    have upper := format.midpoint_le_of_lt_rankOfRat exactNonneg (show middle < format.rankOfRat exact by omega)
    rw [abs_of_nonneg (by linarith), abs_of_nonpos (by linarith)]
    linarith
  · refine ⟨format.rankOfRat exact, Or.inl rfl, ?_⟩
    have lower := format.le_midpoint_of_rankOfRat_le (le_refl (format.rankOfRat exact))
    have upper := format.midpoint_le_of_lt_rankOfRat approxNonneg above
    rw [abs_of_nonpos (by linarith), abs_of_nonneg (by linarith)]
    linarith

theorem doublings_single_le {rank : Nat} (finite : rank < single.limit) : single.doublings rank ≤ 253 := by
  have limit : single.limit = 255 * 8388608 := rfl
  have size : single.binadeSize = 8388608 := rfl
  rw [doublings, size]
  omega

end Format

namespace Decimal

open Format Proofs.NearMisses

variable {tie : Tie} {rank middle : Nat}

/-- A decimal at a midpoint is at most about as fine as the midpoint, since its grid is not finer than needed. -/
theorem coarse_of_near {value point grid half : ℚ} {odd : Nat} (short : odd < 2 ^ 25) (positive : 0 < half)
    (near : |value - odd * half| ≤ 9 / 2 ^ 55 * value) (apart : |point - odd * half| = half)
    (enclosed : |value - point| ≤ grid) : (1 - 1 / 2 ^ 26) * half ≤ grid := by
  have significand : (odd : ℚ) ≤ 2 ^ 25 := by exact_mod_cast short.le
  have size : odd * half ≤ 2 ^ 25 * half := mul_le_mul_of_nonneg_right significand positive.le
  have triangle := abs_sub_le point value (odd * half)
  rw [apart, abs_sub_comm point value] at triangle
  have upper := (abs_le.mp near).2
  linarith

private theorem exponent_ge_of_coarse {half : Int} {exponent : Int}
    (coarse : (1 - 1 / 2 ^ 26 : ℚ) * 2 ^ half ≤ 10 ^ exponent) (low : -150 ≤ half) : -45 ≤ exponent := by
  by_contra fine
  have tens : (10 : ℚ) ^ exponent ≤ 10 ^ (-46 : Int) := zpow_le_zpow_right₀ (by norm_num) (by omega)
  have twos : (2 : ℚ) ^ (-150 : Int) ≤ 2 ^ half := zpow_le_zpow_right₀ (by norm_num) low
  have gap : (10 : ℚ) ^ (-46 : Int) < (1 - 1 / 2 ^ 26) * 2 ^ (-150 : Int) := by norm_num
  have scaled := mul_le_mul_of_nonneg_left twos (show (0 : ℚ) ≤ 1 - 1 / 2 ^ 26 by norm_num)
  exact (gap.trans_le (scaled.trans (coarse.trans tens))).false

private theorem exponent_le_of_near {decimal : Decimal} {odd : Nat} {half : Int} (some : 0 < decimal.digits)
    (short : odd < 2 ^ 25) (near : |decimal.toRat - odd * 2 ^ half| ≤ 9 / 2 ^ 55 * decimal.toRat)
    (high : half ≤ 103) : decimal.exponent ≤ 38 := by
  by_contra large
  have significand : (odd : ℚ) ≤ 2 ^ 25 := by exact_mod_cast short.le
  have tens : (10 : ℚ) ^ (39 : Int) ≤ 10 ^ decimal.exponent := zpow_le_zpow_right₀ (by norm_num) (by omega)
  have twos : (2 : ℚ) ^ half ≤ 2 ^ (103 : Int) := zpow_le_zpow_right₀ (by norm_num) high
  have digits : (1 : ℚ) ≤ decimal.digits := by exact_mod_cast some
  have least : (10 : ℚ) ^ decimal.exponent ≤ decimal.toRat := le_mul_of_one_le_left (ten_zpow_pos _).le digits
  have size : odd * (2 : ℚ) ^ half ≤ 2 ^ 25 * 2 ^ (103 : Int) :=
    mul_le_mul significand twos (zpow_pos (by norm_num) _).le (by norm_num)
  have gap : (2 : ℚ) ^ 25 * 2 ^ (103 : Int) < (1 - 9 / 2 ^ 55) * 10 ^ (39 : Int) := by norm_num
  have upper := (abs_le.mp near).2
  linarith

/-- The shortest decimal of a single-precision magnitude is not close to a midpoint beside it without being equal
to it, with three exceptions. -/
theorem shortest_eq_midpoint (positive : 0 < rank) (finite : rank < single.limit)
    (beside : middle = rank ∨ middle + 1 = rank)
    (near : |(shortest single tie rank).toRat - single.midpoint middle| ≤ 9 / 2 ^ 55 * (shortest single tie rank).toRat) :
    (shortest single tie rank).toRat = single.midpoint middle ∧ (shortest single tie rank).exponent.natAbs ≤ 10 ∨
      shortest single tie rank ∈ misses := by
  have apart := single.abs_magnitude_sub_midpoint beside
  have grid := abs_shortest_sub_le tie positive finite
  rw [midpoint_eq_odd] at near apart ⊢
  have short : 2 * single.significand middle + 1 < 2 ^ 25 := by
    have := single.significand_lt middle
    have size : single.binadeSize = 2 ^ 23 := rfl
    omega
  have last := doublings_single_le (show middle < single.limit by omega)
  have units : single.unitBits = 149 := rfl
  have coarse := coarse_of_near short (zpow_pos (by norm_num) _) near apart grid
  have some := digits_shortest_pos tie positive finite
  exact eq_or_mem_misses (by omega) short near coarse (exponent_ge_of_coarse coarse (by omega))
    (exponent_le_of_near some short near (by omega))

/-- What is close to the shortest decimal rounds as the decimal does. A decimal that is itself a midpoint has to be
met exactly, for then the ranks on both sides are at the same distance. -/
theorem rankOfRat_eq_of_near (positive : 0 < rank) (finite : rank < single.limit) {approx : ℚ}
    (known : shortest single tie rank ∉ misses)
    (near : |approx - (shortest single tie rank).toRat| ≤ 9 / 2 ^ 55 * (shortest single tie rank).toRat)
    (exact : (shortest single tie rank).exponent.natAbs ≤ 10 →
      (∃ middle, (shortest single tie rank).toRat = single.midpoint middle) → approx = (shortest single tie rank).toRat) :
    single.rankOfRat approx = rank := by
  have reads := rankOfRat_shortest tie finite
  have nonneg := (shortest single tie rank).toRat_nonneg
  have approxNonneg : 0 ≤ approx := by
    have lower := (abs_le.mp near).1
    linarith
  by_contra other
  obtain ⟨middle, beside, between⟩ := single.exists_midpoint_between nonneg approxNonneg (by rwa [reads])
  rw [reads] at beside
  rcases shortest_eq_midpoint positive finite beside (between.trans near) with ⟨level, small⟩ | miss
  · rw [exact small ⟨middle, level⟩] at other
    exact other reads
  · exact known miss

end Decimal

end ScriptNumbers
