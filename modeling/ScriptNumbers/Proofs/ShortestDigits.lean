import ScriptNumbers.Proofs.ShortestDecimal

/-! No decimal that reads back as a magnitude has fewer digits than the shortest one, and none with as many digits is
nearer. What reads back lies around the magnitude without a gap. So a competitor with few digits, wherever its own last
digit stands, leads to a point that reads back on the grid of as many digits as it has, and the search has seen that
grid. -/

namespace ScriptNumbers.Decimal

section Grids

variable {format : Format} {tie : Tie} {rank : Nat}

/-- Everything between a magnitude and a value that reads back reads back. -/
theorem rankOfRat_eq_of_closer {value other : ℚ} (nonneg : 0 ≤ other) (reads : format.rankOfRat other = rank)
    (between : other ≤ value ∧ value ≤ format.magnitude rank ∨ format.magnitude rank ≤ value ∧ value ≤ other) :
    format.rankOfRat value = rank := by
  have self := format.rankOfRat_magnitude rank
  rcases between with ⟨above, below⟩ | ⟨above, below⟩
  · apply Nat.le_antisymm
    · exact (format.rankOfRat_mono_of_nonneg (nonneg.trans above) below).trans self.le
    · exact reads.ge.trans (format.rankOfRat_mono_of_nonneg nonneg above)
  · have positive := (format.magnitude_nonneg rank).trans above
    apply Nat.le_antisymm
    · exact (format.rankOfRat_mono_of_nonneg positive below).trans reads.le
    · exact self.ge.trans (format.rankOfRat_mono_of_nonneg (format.magnitude_nonneg rank) above)

/-- One of the two points of a grid that enclose a magnitude is at least as near and as good as any other point. -/
theorem exists_encloses {point : Decimal} (reads : format.rankOfRat point.toRat = rank) :
    ∃ other : Decimal, other.exponent = point.exponent ∧ other.Encloses (format.magnitude rank) ∧
      format.rankOfRat other.toRat = rank ∧
      |other.toRat - format.magnitude rank| ≤ |point.toRat - format.magnitude rank| := by
  obtain ⟨digits, exponent⟩ := point
  obtain ⟨lower, upper⟩ := floorAt_spec (format.magnitude_nonneg rank) exponent
  have power := ten_zpow_pos exponent
  have nonneg : 0 ≤ (digits : ℚ) * 10 ^ exponent := mul_nonneg (Nat.cast_nonneg digits) power.le
  rw [toRat] at reads
  rcases Nat.lt_or_ge (floorAt (format.magnitude rank) exponent) digits with above | below
  · have order : ((floorAt (format.magnitude rank) exponent + 1 : Nat) : ℚ) * 10 ^ exponent ≤ digits * 10 ^ exponent :=
      mul_le_mul_of_nonneg_right (by exact_mod_cast above) power.le
    refine ⟨⟨floorAt (format.magnitude rank) exponent + 1, exponent⟩, rfl, Or.inr rfl, ?_, ?_⟩
    · exact rankOfRat_eq_of_closer nonneg reads (Or.inr ⟨upper.le, order⟩)
    · simp only [toRat]
      rw [abs_of_nonneg (by linarith), abs_of_nonneg (by linarith)]
      linarith
  · have order : (digits : ℚ) * 10 ^ exponent ≤ floorAt (format.magnitude rank) exponent * 10 ^ exponent :=
      mul_le_mul_of_nonneg_right (by exact_mod_cast below) power.le
    refine ⟨⟨floorAt (format.magnitude rank) exponent, exponent⟩, rfl, Or.inl rfl, ?_, ?_⟩
    · exact rankOfRat_eq_of_closer nonneg reads (Or.inl ⟨order, lower⟩)
    · simp only [toRat]
      rw [abs_of_nonpos (by linarith), abs_of_nonpos (by linarith)]
      linarith

private theorem pick?_ne_none_of_encloses {value : ℚ} {decimal : Decimal} (encloses : decimal.Encloses value)
    (reads : format.rankOfDecimal decimal = rank) : pick? format tie rank value decimal.exponent ≠ none := by
  intro missed
  obtain ⟨lower, upper⟩ := pick?_eq_none missed
  obtain ⟨digits, exponent⟩ := decimal
  rcases encloses with same | same
  · rw [show digits = _ from same] at reads
    exact lower reads
  · rw [show digits = _ from same] at reads
    exact upper reads

/-- A decimal with few digits leads to a point on the grid of that many digits. If its own last digit stands further
right, then it lies below the leading power of ten, and that power is the point. -/
theorem exists_gridPoint (positive : 0 < rank) {decimal : Decimal} {count : Nat} (some : 0 < count)
    (few : decimal.digits < 10 ^ count) (reads : format.rankOfRat decimal.toRat = rank) :
    ∃ point : Decimal, point.exponent = leadingExponent (format.magnitude rank) - count ∧
      format.rankOfRat point.toRat = rank ∧
      |point.toRat - format.magnitude rank| ≤ |decimal.toRat - format.magnitude rank| := by
  obtain ⟨leading, -⟩ := leadingExponent_spec (format.magnitude_pos positive)
  have ten : (10 : ℚ) ≠ 0 := by norm_num
  rcases le_or_gt (leadingExponent (format.magnitude rank) - count) decimal.exponent with coarse | fine
  · obtain ⟨tens, split⟩ := Int.eq_ofNat_of_zero_le (Int.sub_nonneg_of_le coarse)
    refine ⟨⟨decimal.digits * 10 ^ tens, _⟩, rfl, ?_, ?_⟩
    all_goals
      have same : (⟨decimal.digits * 10 ^ tens, leadingExponent (format.magnitude rank) - count⟩ : Decimal).toRat =
          decimal.toRat := by
        have places : leadingExponent (format.magnitude rank) - count = decimal.exponent - tens := by omega
        rw [toRat, toRat, places, zpow_sub₀ ten, zpow_natCast]
        push_cast
        field_simp
      rw [same]
    exact reads
  · have power : (⟨10 ^ (count - 1), leadingExponent (format.magnitude rank) - count⟩ : Decimal).toRat =
        10 ^ (leadingExponent (format.magnitude rank) - 1) := by
      have places : leadingExponent (format.magnitude rank) - 1 =
          (count - 1 : Nat) + (leadingExponent (format.magnitude rank) - count) := by omega
      rw [toRat, places, zpow_add₀ ten, zpow_natCast, Nat.cast_pow, Nat.cast_ofNat]
    have small : decimal.toRat ≤ 10 ^ (leadingExponent (format.magnitude rank) - 1) := by
      calc decimal.toRat ≤ 10 ^ count * 10 ^ decimal.exponent :=
            mul_le_mul_of_nonneg_right (by exact_mod_cast few.le) (ten_zpow_pos _).le
        _ = 10 ^ (count + decimal.exponent) := by rw [zpow_add₀ ten, zpow_natCast]
        _ ≤ 10 ^ (leadingExponent (format.magnitude rank) - 1) := zpow_le_zpow_right₀ (by norm_num) (by omega)
    refine ⟨⟨10 ^ (count - 1), _⟩, rfl, ?_, ?_⟩
    · rw [power]
      exact rankOfRat_eq_of_closer (toRat_nonneg _) reads (Or.inl ⟨small, leading⟩)
    · rw [power, abs_of_nonpos (by linarith), abs_of_nonpos (by linarith)]
      linarith

end Grids

private theorem not_ten_dvd_strip (decimal : Decimal) : decimal.strip.digits ≠ 0 → ¬decimal.strip.digits % 10 = 0 := by
  fun_induction strip decimal with
  | case1 decimal positive ih => exact ih
  | case2 decimal last => exact fun some trailing => last ⟨some, trailing⟩

section Shortest

variable {format : Format} {rank : Nat} (tie : Tie) (positive : 0 < rank) (finite : rank < format.limit)
include positive finite

theorem shortest_digits_mod_ten : ¬(shortest format tie rank).digits % 10 = 0 := by
  have some := digits_shortest_pos tie positive finite
  obtain ⟨decimal, -, same⟩ := shortest_found tie positive finite
  rw [same] at some ⊢
  exact not_ten_dvd_strip decimal some.ne'

/-- A competitor does not have fewer digits, and with as many it is not nearer. -/
theorem shortest_minimal {other : Decimal} {count : Nat} (few : other.digits < 10 ^ count)
    (reads : format.rankOfRat other.toRat = rank) :
    length (shortest format tie rank).digits ≤ count ∧
      (count = length (shortest format tie rank).digits →
        |(shortest format tie rank).toRat - format.magnitude rank| ≤ |other.toRat - format.magnitude rank|) := by
  have last := shortest_digits_mod_ten tie positive finite
  obtain ⟨decimal, found, same⟩ := shortest_found tie positive finite
  rw [same] at last ⊢
  have some : 0 < count := by
    refine Nat.pos_of_ne_zero fun none => positive.ne' ?_
    rw [none, pow_zero, Nat.lt_one_iff] at few
    rw [← reads, toRat_of_digits_eq_zero other few, format.rankOfRat_zero]
  obtain ⟨point, place, pointReads, pointNear⟩ := exists_gridPoint positive some few reads
  obtain ⟨near, nearPlace, encloses, nearReads, nearer⟩ := exists_encloses pointReads
  have exponent : near.exponent = leadingExponent (format.magnitude rank) - count := nearPlace.trans place
  have nearDecimal : format.rankOfDecimal near = rank := (rankOfDecimal_eq_iff format near finite).mpr nearReads
  have fromStart := found.fromStart
  -- the grid of as many digits as the competitor has is not one that the search has passed
  have reached : leadingExponent (format.magnitude rank) - count ≤ decimal.exponent := by
    by_contra passed
    have missed := found.first near.exponent (by omega) (by omega)
    exact pick?_ne_none_of_encloses encloses nearDecimal missed
  -- on the grid where the search ends, a decimal has at most as many digits as the grid has places
  have short : length decimal.strip.digits ≤ (leadingExponent (format.magnitude rank) - decimal.exponent).toNat := by
    obtain ⟨places, split⟩ := Int.eq_ofNat_of_zero_le
      (show 0 ≤ leadingExponent (format.magnitude rank) - decimal.exponent by omega)
    have bound : floorAt (format.magnitude rank) decimal.exponent < 10 ^ places :=
      floorAt_lt (format.magnitude_pos positive) (by omega)
    have digits : decimal.strip.digits ≤ 10 ^ places := by
      have stripped := decimal.digits_strip_le
      rcases found.encloses with digit | digit <;> omega
    have round : 10 ^ places % 10 = 0 := by
      obtain ⟨more, succ⟩ := Nat.exists_eq_add_one_of_ne_zero (show places ≠ 0 by omega)
      rw [succ, pow_succ, Nat.mul_mod_left]
    rw [split, Int.toNat_natCast, length_le_iff (by omega)]
    exact lt_of_le_of_ne digits fun full => last (full ▸ round)
  refine ⟨by omega, fun equal => ?_⟩
  have onGrid : near.exponent = decimal.exponent := by omega
  rw [toRat_strip]
  exact (found.nearest near onGrid encloses nearDecimal).trans (nearer.trans pointNear)

end Shortest

end ScriptNumbers.Decimal
