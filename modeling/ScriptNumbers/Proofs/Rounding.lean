import ScriptNumbers.Proofs.Magnitudes

/-! Rounding to nearest, ties to even. All of it follows from one equivalence: a value rounds to at most a rank
iff it lies below the midpoint behind that rank, or on it if the rank is even. -/

namespace ScriptNumbers

private theorem roundHalfEven_le_iff {numerator denominator bound : Nat} (positive : 0 < denominator) :
    roundHalfEven numerator denominator ≤ bound ↔
      2 * numerator < (2 * bound + 1) * denominator ∨
        2 * numerator = (2 * bound + 1) * denominator ∧ bound % 2 = 0 := by
  have split := Nat.div_add_mod numerator denominator
  have small := Nat.mod_lt numerator positive
  have product : (2 * bound + 1) * denominator = 2 * (denominator * bound) + denominator := by ring
  rw [product]
  unfold roundHalfEven
  generalize numerator / denominator = floor at split ⊢
  generalize numerator % denominator = rest at split small ⊢
  rcases Nat.lt_trichotomy bound floor with below | same | above
  · have gap := Nat.mul_le_mul_left denominator (Nat.succ_le_of_lt below)
    rw [Nat.mul_succ] at gap
    dsimp only
    split <;> omega
  · subst same
    dsimp only
    split <;> omega
  · have gap := Nat.mul_le_mul_left denominator (Nat.succ_le_of_lt above)
    rw [Nat.mul_succ] at gap
    dsimp only
    split <;> omega

private theorem roundHalfEven_le {numerator denominator ceiling : Nat} (positive : 0 < denominator)
    (below : numerator ≤ ceiling * denominator) : roundHalfEven numerator denominator ≤ ceiling := by
  have product : (2 * ceiling + 1) * denominator = 2 * (ceiling * denominator) + denominator := by ring
  rw [roundHalfEven_le_iff positive]
  left
  omega

private theorem le_roundHalfEven {numerator denominator floor : Nat} (positive : 0 < denominator)
    (above : floor * denominator ≤ numerator) : floor ≤ roundHalfEven numerator denominator := by
  cases floor with
  | zero => exact Nat.zero_le _
  | succ floor =>
    have product : (2 * floor + 1) * denominator + denominator = 2 * ((floor + 1) * denominator) := by ring
    by_contra early
    have bound := (roundHalfEven_le_iff positive).mp (Nat.le_of_lt_succ (Nat.lt_of_not_le early))
    omega

namespace Format

variable (format : Format)

theorem binadeSize_even : format.binadeSize % 2 = 0 := by
  have two := format.two_le_precision
  obtain ⟨bits, precision⟩ : ∃ bits, format.fractionBits = bits + 1 :=
    ⟨format.fractionBits - 1, by unfold fractionBits; omega⟩
  rw [binadeSize, precision, twoPow_succ, Nat.mul_mod_right]

/-- The binade that the leading bit of a quotient picks. -/
def binadeOf (numerator denominator : Nat) : Nat := (numerator / denominator).log2 + 1 - format.precision

private theorem nearestRank_eq (numerator denominator : Nat) :
    format.nearestRank numerator denominator =
      format.binadeOf numerator denominator * format.binadeSize +
        roundHalfEven numerator (denominator * twoPow (format.binadeOf numerator denominator)) := rfl

theorem twoPow_precision_add (bits : Nat) :
    twoPow (format.precision + bits) = 2 * format.binadeSize * twoPow bits := by
  have two := format.two_le_precision
  rw [binadeSize, ← twoPow_succ, ← twoPow_add, fractionBits, Nat.sub_add_cancel (by omega)]

private theorem lt_binade_end (numerator : Nat) {denominator : Nat} (positive : 0 < denominator) :
    numerator < 2 * format.binadeSize * (denominator * twoPow (format.binadeOf numerator denominator)) := by
  have enough : (numerator / denominator).log2 + 1 ≤ format.precision + format.binadeOf numerator denominator := by
    unfold binadeOf
    omega
  have floor : numerator / denominator < 2 * format.binadeSize * twoPow (format.binadeOf numerator denominator) := by
    rw [← twoPow_precision_add]
    exact Nat.lt_log2_self.trans_le (twoPow_le enough)
  have cleared := (Nat.div_lt_iff_lt_mul positive).mp floor
  calc numerator < _ := cleared
    _ = _ := by ring

private theorem binade_start_le {numerator denominator : Nat} (positive : 0 < denominator)
    (later : 0 < format.binadeOf numerator denominator) :
    format.binadeSize * (denominator * twoPow (format.binadeOf numerator denominator)) ≤ numerator := by
  have two := format.two_le_precision
  have leading : format.fractionBits + format.binadeOf numerator denominator = (numerator / denominator).log2 := by
    unfold binadeOf fractionBits at *
    omega
  have nonzero : numerator / denominator ≠ 0 := by
    intro zero
    rw [binadeOf, zero, Nat.log2_zero] at later
    omega
  have floor : format.binadeSize * twoPow (format.binadeOf numerator denominator) ≤ numerator / denominator := by
    rw [binadeSize, ← twoPow_add, leading]
    exact Nat.log2_self_le nonzero
  have cleared := (Nat.le_div_iff_mul_le positive).mp floor
  calc _ = _ := by ring
    _ ≤ numerator := cleared

theorem doublings_eq {binades rank : Nat} (start : binades = 0 ∨ (binades + 1) * format.binadeSize ≤ rank)
    (inside : rank < (binades + 2) * format.binadeSize) : format.doublings rank = binades := by
  have positive := format.binadeSize_pos
  have upper := (Nat.div_lt_iff_lt_mul positive).mpr inside
  unfold doublings
  rcases start with first | start
  · omega
  · have lower := (Nat.le_div_iff_mul_le positive).mpr start
    omega

/-- A rank behind the binade of a value lies above it, and so does the midpoint behind that rank. -/
theorem lt_units_of_beyond {numerator denominator rank binades : Nat}
    (ending : numerator < 2 * format.binadeSize * (denominator * twoPow binades))
    (beyond : (binades + 2) * format.binadeSize ≤ rank) :
    2 * numerator < (format.units rank + format.units (rank + 1)) * denominator := by
  have last := format.units_mul_binadeSize (binades + 1)
  have lower := format.units_strictMono.monotone beyond
  have upper := format.units_strictMono (Nat.lt_add_one rank)
  rw [last, twoPow_succ] at lower
  have total : 2 * (2 * format.binadeSize * twoPow binades) ≤ format.units rank + format.units (rank + 1) := by
    linarith
  calc 2 * numerator < 2 * (2 * format.binadeSize * (denominator * twoPow binades)) := by linarith
    _ = 2 * (2 * format.binadeSize * twoPow binades) * denominator := by ring
    _ ≤ (format.units rank + format.units (rank + 1)) * denominator := Nat.mul_le_mul_right _ total

/-- A rank before the binade of a value lies below it, and so does the midpoint behind that rank. -/
theorem units_lt_of_before {numerator denominator rank binades : Nat} (positive : 0 < denominator)
    (starting : format.binadeSize * (denominator * twoPow binades) ≤ numerator)
    (before : rank < (binades + 1) * format.binadeSize) :
    (format.units rank + format.units (rank + 1)) * denominator < 2 * numerator := by
  have first := format.units_mul_binadeSize binades
  have lower := format.units_strictMono (Nat.lt_add_one rank)
  have upper := format.units_strictMono.monotone (Nat.succ_le_of_lt before)
  rw [first] at upper
  have total : format.units rank + format.units (rank + 1) < 2 * (format.binadeSize * twoPow binades) := by
    linarith
  calc (format.units rank + format.units (rank + 1)) * denominator
      < 2 * (format.binadeSize * twoPow binades) * denominator := Nat.mul_lt_mul_of_pos_right total positive
    _ = 2 * (format.binadeSize * (denominator * twoPow binades)) := by ring
    _ ≤ 2 * numerator := Nat.mul_le_mul_left 2 starting

/-- Inside its binade a rank is a multiple of the spacing, and rounding on that grid compares with the midpoint. -/
theorem add_roundHalfEven_le_iff {numerator denominator rank binades : Nat} (positive : 0 < denominator)
    (same : format.doublings rank = binades) :
    binades * format.binadeSize + roundHalfEven numerator (denominator * twoPow binades) ≤ rank ↔
      2 * numerator < (format.units rank + format.units (rank + 1)) * denominator ∨
        2 * numerator = (format.units rank + format.units (rank + 1)) * denominator ∧ rank % 2 = 0 := by
  have grid : 0 < denominator * twoPow binades := Nat.mul_pos positive (twoPow_pos binades)
  have inside := format.doublings_mul_le rank
  rw [same] at inside
  have even : (binades * format.binadeSize) % 2 = 0 := by
    rw [Nat.mul_mod, format.binadeSize_even, Nat.mul_zero, Nat.zero_mod]
  have parity : (rank - binades * format.binadeSize) % 2 = rank % 2 := by omega
  have sum : (2 * (rank - binades * format.binadeSize) + 1) * (denominator * twoPow binades) =
      (format.units rank + format.units (rank + 1)) * denominator := by
    rw [units_succ, units_eq, spacing, significand, same]
    ring
  rw [← Nat.le_sub_iff_add_le' inside, roundHalfEven_le_iff grid, sum, parity]

/-- The rule of rounding in units. The value may lie in an earlier or later binade than the rank, and then both
sides are decided by the start or the end of its binade. -/
theorem nearestRank_le_iff {numerator denominator rank : Nat} (positive : 0 < denominator) :
    format.nearestRank numerator denominator ≤ rank ↔
      2 * numerator < (format.units rank + format.units (rank + 1)) * denominator ∨
        2 * numerator = (format.units rank + format.units (rank + 1)) * denominator ∧ rank % 2 = 0 := by
  rw [nearestRank_eq]
  have ending := format.lt_binade_end numerator positive
  have starting : 0 < format.binadeOf numerator denominator →
      format.binadeSize * (denominator * twoPow (format.binadeOf numerator denominator)) ≤ numerator :=
    format.binade_start_le positive
  generalize format.binadeOf numerator denominator = binades at ending starting ⊢
  have grid : 0 < denominator * twoPow binades := Nat.mul_pos positive (twoPow_pos binades)
  by_cases beyond : (binades + 2) * format.binadeSize ≤ rank
  · have reached := roundHalfEven_le grid ending.le
    have below := format.lt_units_of_beyond ending beyond
    rw [Nat.add_mul] at beyond
    exact iff_of_true (by omega) (Or.inl below)
  by_cases before : 0 < binades ∧ rank < (binades + 1) * format.binadeSize
  · have reached := le_roundHalfEven grid (starting before.1)
    have above := format.units_lt_of_before positive (starting before.1) before.2
    rw [Nat.succ_mul] at before
    exact iff_of_false (by omega) (by omega)
  · exact format.add_roundHalfEven_le_iff positive (format.doublings_eq (by omega) (by omega))

theorem rankOfRat_le_iff {value : ℚ} {rank : Nat} :
    format.rankOfRat value ≤ rank ↔
      |value| < format.midpoint rank ∨ |value| = format.midpoint rank ∧ rank % 2 = 0 := by
  have denominator : (0 : ℚ) < value.den := by exact_mod_cast value.den_pos
  have unit := format.one_pos'
  have size : |value| = (value.num.natAbs : ℚ) / value.den := by
    conv_lhs => rw [← Rat.num_div_den value]
    rw [abs_div, abs_of_pos denominator, Nat.cast_natAbs, Int.cast_abs]
  have middle : format.midpoint rank =
      ((format.units rank + format.units (rank + 1) : Nat) : ℚ) / (2 * format.one) := by
    rw [midpoint, magnitude_eq, magnitude_eq]
    push_cast
    field_simp
  rw [rankOfRat, nearestRank_le_iff format value.den_pos, size, middle, div_lt_div_iff₀ denominator (by positivity),
    div_eq_div_iff denominator.ne' (by positivity)]
  have below : (value.num.natAbs : ℚ) * (2 * format.one) <
        ((format.units rank + format.units (rank + 1) : Nat) : ℚ) * value.den ↔
      2 * (value.num.natAbs * format.one) < (format.units rank + format.units (rank + 1)) * value.den := by
    rw [← @Nat.cast_lt ℚ]
    push_cast
    ring_nf
  have level : (value.num.natAbs : ℚ) * (2 * format.one) =
        ((format.units rank + format.units (rank + 1) : Nat) : ℚ) * value.den ↔
      2 * (value.num.natAbs * format.one) = (format.units rank + format.units (rank + 1)) * value.den := by
    rw [← @Nat.cast_inj ℚ]
    push_cast
    ring_nf
  rw [below, level]

theorem lt_rankOfRat_iff {value : ℚ} {rank : Nat} :
    rank < format.rankOfRat value ↔
      format.midpoint rank < |value| ∨ |value| = format.midpoint rank ∧ rank % 2 = 1 := by
  rw [← not_le, rankOfRat_le_iff]
  rcases lt_trichotomy |value| (format.midpoint rank) with below | level | above
  · simp [below, below.not_gt, below.ne]
  · simp [level]
  · simp [above, above.not_gt, above.ne']

theorem le_midpoint_of_rankOfRat_le {value : ℚ} {rank : Nat} (order : format.rankOfRat value ≤ rank) :
    value ≤ format.midpoint rank := by
  rcases format.rankOfRat_le_iff.mp order with below | ⟨level, -⟩
  · exact (le_abs_self value).trans below.le
  · exact (le_abs_self value).trans level.le

theorem midpoint_le_of_lt_rankOfRat {value : ℚ} {rank : Nat} (nonneg : 0 ≤ value)
    (order : rank < format.rankOfRat value) : format.midpoint rank ≤ value := by
  rw [← abs_of_nonneg nonneg]
  rcases format.lt_rankOfRat_iff.mp order with above | ⟨level, -⟩
  · exact above.le
  · exact level.ge

private theorem rankOfRat_mono {lower upper : ℚ} (order : |lower| ≤ |upper|) :
    format.rankOfRat lower ≤ format.rankOfRat upper := by
  rw [rankOfRat_le_iff]
  rcases format.rankOfRat_le_iff.mp le_rfl with below | ⟨level, even⟩
  · exact Or.inl (order.trans_lt below)
  · rcases (order.trans_eq level).lt_or_eq with below | level
    · exact Or.inl below
    · exact Or.inr ⟨level, even⟩

theorem rankOfRat_mono_of_nonneg {lower upper : ℚ} (nonneg : 0 ≤ lower) (order : lower ≤ upper) :
    format.rankOfRat lower ≤ format.rankOfRat upper :=
  format.rankOfRat_mono (by rwa [abs_of_nonneg nonneg, abs_of_nonneg (nonneg.trans order)])

theorem rankOfRat_abs (value : ℚ) : format.rankOfRat |value| = format.rankOfRat value :=
  Nat.le_antisymm (format.rankOfRat_mono (abs_abs value).le) (format.rankOfRat_mono (abs_abs value).ge)

theorem rankOfRat_neg (value : ℚ) : format.rankOfRat (-value) = format.rankOfRat value := by
  rw [← rankOfRat_abs, abs_neg, rankOfRat_abs]

theorem rankOfRat_eq_of_between {value : ℚ} {rank : Nat} (above : format.midpoint rank < value)
    (below : value < format.midpoint (rank + 1)) : format.rankOfRat value = rank + 1 := by
  have nonneg : 0 ≤ value := ((format.magnitude_nonneg rank).trans (format.magnitude_lt_midpoint rank).le).trans above.le
  apply Nat.le_antisymm
  · rw [rankOfRat_le_iff, abs_of_nonneg nonneg]
    exact Or.inl below
  · rw [Nat.succ_le_iff, lt_rankOfRat_iff, abs_of_nonneg nonneg]
    exact Or.inl above

theorem rankOfRat_magnitude (rank : Nat) : format.rankOfRat (format.magnitude rank) = rank := by
  have size := abs_of_nonneg (format.magnitude_nonneg rank)
  apply Nat.le_antisymm
  · rw [rankOfRat_le_iff, size]
    exact Or.inl (format.magnitude_lt_midpoint rank)
  · rcases rank with _ | rank
    · exact Nat.zero_le _
    · rw [Nat.succ_le_iff, lt_rankOfRat_iff, size]
      exact Or.inl (format.midpoint_lt_magnitude rank)

/-- Rounding passes no magnitude. -/
theorem rankOfRat_le_of_le_magnitude {value : ℚ} {rank : Nat} (below : |value| ≤ format.magnitude rank) :
    format.rankOfRat value ≤ rank := by
  have order := format.rankOfRat_mono (below.trans (le_abs_self _))
  rwa [rankOfRat_magnitude] at order

theorem le_rankOfRat_of_magnitude_le {value : ℚ} {rank : Nat} (above : format.magnitude rank ≤ |value|) :
    rank ≤ format.rankOfRat value := by
  rw [← abs_of_nonneg (format.magnitude_nonneg rank)] at above
  have order := format.rankOfRat_mono above
  rwa [rankOfRat_magnitude] at order

theorem rankOfRat_zero : format.rankOfRat 0 = 0 := by
  rw [← format.magnitude_zero, rankOfRat_magnitude]

theorem units_of_lt {rank : Nat} (small : rank < 2 * format.binadeSize) : format.units rank = rank := by
  have none : format.doublings rank = 0 := format.doublings_eq (Or.inl rfl) (by omega)
  rw [units_eq, spacing, significand, none, Nat.zero_mul, Nat.sub_zero, twoPow_zero, Nat.mul_one]

theorem magnitude_one_eq : format.magnitude 1 = 1 / format.one := by
  have size := format.binadeSize_pos
  rw [magnitude_eq, format.units_of_lt (by omega), Nat.cast_one]

theorem exists_units_eq {significand : Nat} (fits : significand < 2 * format.binadeSize) (doublings : Nat) :
    ∃ rank, format.units rank = significand * twoPow doublings := by
  induction doublings generalizing significand with
  | zero => exact ⟨significand, by rw [format.units_of_lt fits, twoPow_zero, Nat.mul_one]⟩
  | succ doublings ih =>
    by_cases short : significand < format.binadeSize
    · obtain ⟨rank, units⟩ := ih (show 2 * significand < 2 * format.binadeSize by omega)
      refine ⟨rank, units.trans ?_⟩
      rw [twoPow_succ]
      ring
    · refine ⟨(doublings + 1) * format.binadeSize + significand, ?_⟩
      have start : (doublings + 1 + 1) * format.binadeSize ≤ (doublings + 1) * format.binadeSize + significand := by
        rw [Nat.succ_mul (doublings + 1)]
        omega
      have inside : (doublings + 1) * format.binadeSize + significand < (doublings + 1 + 2) * format.binadeSize := by
        rw [Nat.add_mul (doublings + 1)]
        omega
      have same := format.doublings_eq (Or.inr start) inside
      rw [units_eq, spacing, Format.significand, same, Nat.add_sub_cancel_left]

/-- A short significand times a power of two is a magnitude, unless it lies below the units. -/
theorem exists_magnitude_eq {significand : Nat} (fits : significand < 2 * format.binadeSize) {exponent : Int}
    (coarse : -(format.unitBits : Int) ≤ exponent) :
    ∃ rank, format.magnitude rank = (significand : ℚ) * (2 : ℚ) ^ exponent := by
  obtain ⟨rank, units⟩ := format.exists_units_eq fits (exponent + format.unitBits).toNat
  refine ⟨rank, ?_⟩
  have shift : ((exponent + format.unitBits).toNat : Int) = exponent + format.unitBits := by omega
  have power : ((twoPow (exponent + format.unitBits).toNat : Nat) : ℚ) = (2 : ℚ) ^ exponent * format.one := by
    rw [natCast_twoPow, ← zpow_natCast, shift, zpow_add₀ (by norm_num), zpow_natCast, one, natCast_twoPow]
  rw [magnitude_eq, units, Nat.cast_mul, power]
  field_simp [format.one_pos'.ne']

theorem exists_magnitude_eq_natCast {value : Nat} (fits : value < 2 * format.binadeSize) :
    ∃ rank, format.magnitude rank = value := by
  obtain ⟨rank, exact⟩ := format.exists_magnitude_eq fits (show -(format.unitBits : Int) ≤ 0 by omega)
  exact ⟨rank, by rw [exact, zpow_zero, mul_one]⟩

theorem magnitude_rankOfRat_of_exact {value : ℚ} (exact : ∃ rank, format.magnitude rank = value) :
    format.magnitude (format.rankOfRat value) = value := by
  obtain ⟨rank, rfl⟩ := exact
  rw [rankOfRat_magnitude]

/-- Rounding passes no value that the format holds. -/
theorem magnitude_rankOfRat_le {value bound : ℚ} (held : ∃ rank, format.magnitude rank = bound) (below : |value| ≤ bound) :
    format.magnitude (format.rankOfRat value) ≤ bound := by
  obtain ⟨rank, rfl⟩ := held
  exact format.magnitude_strictMono.monotone (format.rankOfRat_le_of_le_magnitude below)

theorem le_magnitude_rankOfRat {value bound : ℚ} (held : ∃ rank, format.magnitude rank = bound) (above : bound ≤ |value|) :
    bound ≤ format.magnitude (format.rankOfRat value) := by
  obtain ⟨rank, rfl⟩ := held
  exact format.magnitude_strictMono.monotone (format.le_rankOfRat_of_magnitude_le above)

/-- In the normal range rounding moves a value by at most half a spacing, which is a small part of the value. -/
theorem abs_magnitude_rankOfRat_sub_le {value : ℚ} (normal : format.magnitude format.binadeSize ≤ value) :
    |format.magnitude (format.rankOfRat value) - value| ≤ value / (2 * format.binadeSize) := by
  have unit := format.one_pos'
  have size : (0 : ℚ) < format.binadeSize := by exact_mod_cast format.binadeSize_pos
  have nonneg : 0 ≤ value := (format.magnitude_nonneg _).trans normal
  have share {rank : Nat} (later : format.binadeSize ≤ rank) (below : format.magnitude rank ≤ value) :
      (format.spacing rank : ℚ) / format.one / 2 ≤ value / (2 * format.binadeSize) := by
    have spaced : (format.binadeSize : ℚ) * format.spacing rank ≤ format.units rank := by
      exact_mod_cast format.binadeSize_mul_spacing_le later
    rw [magnitude_eq, div_le_iff₀ unit] at below
    rw [div_div, div_le_div_iff₀ (by positivity) (by positivity)]
    nlinarith
  have later : format.binadeSize ≤ format.rankOfRat value :=
    format.le_rankOfRat_of_magnitude_le (normal.trans (le_abs_self value))
  have upper := format.le_midpoint_of_rankOfRat_le (le_refl (format.rankOfRat value))
  rcases le_total (format.magnitude (format.rankOfRat value)) value with below | above
  · rw [abs_of_nonpos (sub_nonpos.mpr below), neg_sub]
    rw [midpoint_eq_add] at upper
    have := share later below
    linarith
  · rcases later.eq_or_lt with first | later
    · rw [← first] at above ⊢
      rw [le_antisymm normal above, sub_self, abs_zero]
      positivity
    · obtain ⟨rank, succ⟩ := Nat.exists_eq_add_one_of_ne_zero (Nat.ne_zero_of_lt later)
      rw [abs_of_nonneg (sub_nonneg.mpr above), succ]
      have lower := format.midpoint_le_of_lt_rankOfRat nonneg (succ ▸ Nat.lt_add_one rank)
      have := share (show format.binadeSize ≤ rank by omega) ((format.magnitude_lt_midpoint rank).le.trans lower)
      rw [midpoint_eq_sub] at lower
      linarith

end Format

end ScriptNumbers
