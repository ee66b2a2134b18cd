import Mathlib.Data.Rat.Floor
import ScriptNumbers.Decimal.Shortest
import ScriptNumbers.Proofs.DecimalRounding

/-! The shortest decimal of a magnitude reads back as it. The search can only stop at a decimal that does, and it
stops at the latest on the grid of which every magnitude is a point. How early it stops bounds the digits. -/

namespace ScriptNumbers.Decimal

private theorem length_pos (value : Nat) : 0 < length value := Nat.length_toDigits_pos

theorem length_le_iff {value count : Nat} (some : 0 < count) : length value ≤ count ↔ value < 10 ^ count :=
  Nat.length_toDigits_le_iff (by decide) some

theorem lt_ten_pow_length (value : Nat) : value < 10 ^ length value := (length_le_iff (length_pos value)).mp le_rfl

private theorem ten_pow_le_of_length {value count : Nat} (positive : 0 < value) (longer : count < length value) :
    10 ^ count ≤ value := by
  rcases Nat.eq_zero_or_pos count with none | some
  · rwa [none, Nat.pow_zero]
  · by_contra small
    have := (length_le_iff some).mpr (Nat.lt_of_not_le small)
    omega

/-- The leading exponent encloses a value between two powers of ten. -/
theorem leadingExponent_spec {value : ℚ} (positive : 0 < value) :
    (10 : ℚ) ^ (leadingExponent value - 1) ≤ value ∧ value < 10 ^ leadingExponent value := by
  have denominator : (0 : ℚ) < value.den := by exact_mod_cast value.den_pos
  have some : 0 < value.num.natAbs := Int.natAbs_pos.mpr (Rat.num_ne_zero.mpr positive.ne')
  have size : value = (value.num.natAbs : ℚ) / value.den := by
    conv_lhs => rw [← Rat.num_div_den value]
    rw [Nat.cast_natAbs, abs_of_pos (Rat.num_pos.mpr positive)]
  unfold leadingExponent
  dsimp only
  split
  next small =>
    have quotient : 0 < (value.den - 1) / value.num.natAbs := Nat.div_pos (by omega) some
    have upper := lt_ten_pow_length ((value.den - 1) / value.num.natAbs)
    have lower := ten_pow_le_of_length quotient (Nat.sub_lt (length_pos _) Nat.one_pos)
    obtain ⟨count, digits⟩ := Nat.exists_eq_add_one_of_ne_zero (length_pos ((value.den - 1) / value.num.natAbs)).ne'
    rw [digits] at upper
    rw [digits, Nat.add_sub_cancel, Nat.le_div_iff_mul_le some] at lower
    rw [Nat.div_lt_iff_lt_mul some] at upper
    have above : value.den ≤ 10 ^ (count + 1) * value.num.natAbs := by omega
    have below : 10 ^ count * value.num.natAbs < value.den := by omega
    have first : (1 - ((count + 1 : Nat) : Int)) = -(count : Int) := by push_cast; ring
    have second : -(count : Int) - 1 = -((count + 1 : Nat) : Int) := by push_cast; ring
    rw [digits, first, second, zpow_neg, zpow_neg, zpow_natCast, zpow_natCast, size]
    refine ⟨?_, ?_⟩
    · rw [inv_le_iff_one_le_mul₀ (by positivity), div_mul_eq_mul_div, one_le_div₀ denominator, mul_comm]
      exact_mod_cast above
    · rw [lt_inv_comm₀ (by positivity) (by positivity), inv_div, lt_div_iff₀ (by positivity)]
      exact_mod_cast below
  next large =>
    have quotient : 0 < value.num.natAbs / value.den := Nat.div_pos (by omega) value.den_pos
    have upper := lt_ten_pow_length (value.num.natAbs / value.den)
    have lower := ten_pow_le_of_length quotient (Nat.sub_lt (length_pos _) Nat.one_pos)
    obtain ⟨count, digits⟩ := Nat.exists_eq_add_one_of_ne_zero (length_pos (value.num.natAbs / value.den)).ne'
    rw [digits, Nat.add_sub_cancel, Nat.le_div_iff_mul_le value.den_pos] at lower
    rw [digits, Nat.div_lt_iff_lt_mul value.den_pos] at upper
    have first : ((count + 1 : Nat) : Int) - 1 = (count : Int) := by push_cast; ring
    rw [digits, first, zpow_natCast, zpow_natCast, size, le_div_iff₀ denominator, div_lt_iff₀ denominator]
    exact ⟨by exact_mod_cast lower, by exact_mod_cast upper⟩

theorem floorAt_spec {value : ℚ} (nonneg : 0 ≤ value) (exponent : Int) :
    (floorAt value exponent : ℚ) * 10 ^ exponent ≤ value ∧ value < (floorAt value exponent + 1 : Nat) * 10 ^ exponent := by
  have power := ten_zpow_pos exponent
  have quotient : 0 ≤ (value / 10 ^ exponent).floor := Rat.le_floor_iff.mpr (by push_cast; positivity)
  have floor : (floorAt value exponent : ℚ) = (value / 10 ^ exponent).floor := by
    rw [floorAt, ← Int.cast_natCast, Int.toNat_of_nonneg quotient]
  rw [Nat.cast_add_one, floor, ← le_div_iff₀ power, ← div_lt_iff₀ power]
  exact ⟨Rat.le_floor_iff.mp le_rfl, by exact_mod_cast Rat.lt_floor_add_one (value / 10 ^ exponent)⟩

/-- A grid on which a value has so many places gives it so many digits. -/
theorem floorAt_lt {value : ℚ} (positive : 0 < value) {exponent : Int} {count : Nat}
    (places : leadingExponent value ≤ exponent + count) : floorAt value exponent < 10 ^ count := by
  have lower := (floorAt_spec positive.le exponent).1
  have behind := (leadingExponent_spec positive).2
  have top : (10 : ℚ) ^ leadingExponent value ≤ 10 ^ count * 10 ^ exponent := by
    rw [← zpow_natCast, ← zpow_add₀ (by norm_num)]
    exact zpow_le_zpow_right₀ (by norm_num) (by omega)
  exact_mod_cast lt_of_mul_lt_mul_right ((lower.trans_lt behind).trans_le top) (ten_zpow_pos exponent).le

private theorem toRat_floorAt_of_exact {value : ℚ} {exponent : Int} {point : Nat}
    (exact : value = point * 10 ^ exponent) : (⟨floorAt value exponent, exponent⟩ : Decimal).toRat = value := by
  have quotient : value / 10 ^ exponent = (point : Int) := by
    rw [exact, mul_div_cancel_right₀ _ (ten_zpow_pos exponent).ne', Int.cast_natCast]
  rw [toRat, floorAt, quotient, Rat.floor_intCast, Int.toNat_natCast, exact]

section Search

variable {format : Format} {tie : Tie} {rank : Nat} {value : ℚ}

/-- One of the two grid points around a value. -/
def Encloses (value : ℚ) (decimal : Decimal) : Prop :=
  decimal.digits = floorAt value decimal.exponent ∨ decimal.digits = floorAt value decimal.exponent + 1

/-- The chosen neighbour lies on the side of the middle on which the value does. -/
theorem nearer_spec (tie : Tie) (value : ℚ) (lower : Nat) (exponent : Int) :
    nearer tie value lower exponent = lower ∧ 2 * value ≤ (2 * lower + 1) * 10 ^ exponent ∨
      nearer tie value lower exponent = lower + 1 ∧ (2 * lower + 1) * 10 ^ exponent ≤ 2 * value := by
  have power := ten_zpow_pos exponent
  have scaled : value / 10 ^ exponent * 2 = 2 * value / 10 ^ exponent := by rw [mul_comm, mul_div_assoc]
  unfold nearer compareOfLessAndEq
  dsimp only
  rw [scaled]
  by_cases before : 2 * value / 10 ^ exponent < (2 * lower + 1 : ℚ)
  · rw [if_pos before]
    exact Or.inl ⟨rfl, ((div_lt_iff₀ power).mp before).le⟩
  rw [if_neg before]
  have behind : (2 * lower + 1 : ℚ) * 10 ^ exponent ≤ 2 * value := (le_div_iff₀ power).mp (not_lt.mp before)
  by_cases middle : 2 * value / 10 ^ exponent = (2 * lower + 1 : ℚ)
  · rw [if_pos middle]
    have same : 2 * value = (2 * lower + 1 : ℚ) * 10 ^ exponent := (div_eq_iff power.ne').mp middle
    cases tie with
    | up => exact Or.inr ⟨rfl, behind⟩
    | toEven =>
      dsimp only
      split
      · exact Or.inl ⟨rfl, same.le⟩
      · exact Or.inr ⟨rfl, behind⟩
  · rw [if_neg middle]
    exact Or.inr ⟨rfl, behind⟩

/-- Of the two points that enclose a value, none is nearer to it than the chosen one. -/
theorem nearer_nearest (tie : Tie) (nonneg : 0 ≤ value) {other : Decimal} (encloses : other.Encloses value) :
    |(⟨nearer tie value (floorAt value other.exponent) other.exponent, other.exponent⟩ : Decimal).toRat - value| ≤
      |other.toRat - value| := by
  obtain ⟨digits, exponent⟩ := other
  obtain ⟨lower, upper⟩ := floorAt_spec nonneg exponent
  have below : |(floorAt value exponent : ℚ) * 10 ^ exponent - value| =
      value - floorAt value exponent * 10 ^ exponent := by
    rw [abs_sub_comm, abs_of_nonneg (by linarith)]
  have above : |((floorAt value exponent + 1 : Nat) : ℚ) * 10 ^ exponent - value| =
      (floorAt value exponent + 1 : Nat) * 10 ^ exponent - value := abs_of_nonneg (by linarith)
  simp only [toRat]
  rcases nearer_spec tie value (floorAt value exponent) exponent with ⟨same, side⟩ | ⟨same, side⟩
  · rw [same, below]
    rcases encloses with digit | digit
    · rw [show digits = _ from digit, below]
    · rw [show digits = _ from digit, above]
      push_cast
      linarith
  · rw [same, above]
    rcases encloses with digit | digit
    · rw [show digits = _ from digit, below]
      push_cast
      linarith
    · rw [show digits = _ from digit, above]

private theorem pick?_eq_some {exponent : Int} {decimal : Decimal}
    (found : pick? format tie rank value exponent = some decimal) :
    decimal.exponent = exponent ∧ decimal.Encloses value ∧ format.rankOfDecimal decimal = rank := by
  unfold pick? at found
  dsimp only at found
  split at found
  next lower upper =>
    rw [beq_iff_eq] at lower upper
    cases found
    rcases nearer_spec tie value (floorAt value exponent) exponent with ⟨same, -⟩ | ⟨same, -⟩
    · exact ⟨rfl, Or.inl same, by rw [same, lower]⟩
    · exact ⟨rfl, Or.inr same, by rw [same, upper]⟩
  next lower _ => cases found; exact ⟨rfl, Or.inl rfl, beq_iff_eq.mp lower⟩
  next _ upper => cases found; exact ⟨rfl, Or.inr rfl, beq_iff_eq.mp upper⟩
  next => cases found

/-- Of the two points that enclose a value, the chosen one is the nearest of those that read back. -/
theorem pick?_nearest (nonneg : 0 ≤ value) {decimal other : Decimal}
    (found : pick? format tie rank value other.exponent = some decimal) (encloses : other.Encloses value)
    (reads : format.rankOfDecimal other = rank) : |decimal.toRat - value| ≤ |other.toRat - value| := by
  have best := nearer_nearest tie nonneg encloses
  have named {digits : Nat} (digit : other.digits = digits) : (⟨digits, other.exponent⟩ : Decimal) = other := by
    rw [← digit]
  unfold pick? at found
  dsimp only at found
  split at found
  next =>
    cases found
    exact best
  next lower upper =>
    cases found
    rcases encloses with digit | digit
    · rw [named digit]
    · rw [named digit, reads] at upper
      exact absurd rfl (beq_eq_false_iff_ne.mp upper)
  next lower upper =>
    cases found
    rcases encloses with digit | digit
    · rw [named digit, reads] at lower
      exact absurd rfl (beq_eq_false_iff_ne.mp lower)
    · rw [named digit]
  next => cases found

theorem pick?_eq_none {exponent : Int} (missed : pick? format tie rank value exponent = none) :
    format.rankOfDecimal ⟨floorAt value exponent, exponent⟩ ≠ rank ∧
      format.rankOfDecimal ⟨floorAt value exponent + 1, exponent⟩ ≠ rank := by
  unfold pick? at missed
  dsimp only at missed
  split at missed
  next => cases missed
  next => cases missed
  next => cases missed
  next lower upper => exact ⟨beq_eq_false_iff_ne.mp lower, beq_eq_false_iff_ne.mp upper⟩

/-- What a search finds, provided that the value is a point of the last grid and reads back. -/
structure Found (format : Format) (tie : Tie) (rank : Nat) (value : ℚ) (start : Int) (decimal : Decimal) : Prop where
  fromStart : decimal.exponent ≤ start
  encloses : decimal.Encloses value
  reads : format.rankOfDecimal decimal = rank
  first : ∀ exponent, decimal.exponent < exponent → exponent ≤ start → pick? format tie rank value exponent = none
  nearest : ∀ other : Decimal, other.exponent = decimal.exponent → other.Encloses value →
    format.rankOfDecimal other = rank → |decimal.toRat - value| ≤ |other.toRat - value|

private theorem search_found (nonneg : 0 ≤ value) (attempts : Nat) (start : Int)
    (exact : (⟨floorAt value (start - attempts), start - attempts⟩ : Decimal).toRat = value)
    (last : format.rankOfDecimal ⟨floorAt value (start - attempts), start - attempts⟩ = rank) :
    Found format tie rank value start (search format tie rank value attempts start) := by
  induction attempts generalizing start with
  | zero =>
    rw [Nat.cast_zero, sub_zero] at exact last
    refine ⟨le_rfl, Or.inl rfl, last, fun exponent after before => absurd after before.not_gt, fun other _ _ _ => ?_⟩
    rw [search, exact, sub_self, abs_zero]
    exact abs_nonneg _
  | succ attempts ih =>
    rw [search]
    split
    next decimal found =>
      obtain ⟨exponent, encloses, reads⟩ := pick?_eq_some found
      refine ⟨exponent.le, encloses, reads, fun other after before => absurd after (exponent ▸ before).not_gt, ?_⟩
      intro other same inside back
      rw [← exponent, ← same] at found
      exact pick?_nearest nonneg found inside back
    next missed =>
      have finer : start - 1 - (attempts : Int) = start - (attempts + 1 : Nat) := by push_cast; ring
      have rest := ih (start - 1) (by rwa [finer]) (by rwa [finer])
      refine ⟨rest.fromStart.trans (by omega), rest.encloses, rest.reads, fun exponent after before => ?_, rest.nearest⟩
      rcases before.lt_or_eq with earlier | same
      · exact rest.first exponent after (by omega)
      · rwa [same]

end Search

theorem toRat_strip (decimal : Decimal) : decimal.strip.toRat = decimal.toRat := by
  fun_induction strip decimal with
  | case1 decimal positive ih =>
    have whole : (decimal.digits : ℚ) = (decimal.digits / 10 : Nat) * 10 := by
      exact_mod_cast (Nat.div_mul_cancel (Nat.dvd_of_mod_eq_zero positive.2)).symm
    rw [ih, toRat, toRat, whole, zpow_add_one₀ (by norm_num)]
    ring
  | case2 => rfl

private theorem exponent_le_strip (decimal : Decimal) : decimal.exponent ≤ decimal.strip.exponent := by
  fun_induction strip decimal with
  | case1 decimal positive ih => exact (Int.le_add_one le_rfl).trans ih
  | case2 => exact le_rfl

theorem digits_strip_le (decimal : Decimal) : decimal.strip.digits ≤ decimal.digits := by
  fun_induction strip decimal with
  | case1 decimal positive ih => exact ih.trans (Nat.div_le_self _ _)
  | case2 => exact le_rfl

section Shortest

variable {format : Format} {rank : Nat}

/-- Every magnitude is a point of the grid on which the search ends. -/
theorem magnitude_eq_lastGrid (format : Format) (rank : Nat) :
    format.magnitude rank = (format.units rank * 5 ^ format.unitBits : Nat) * (10 : ℚ) ^ (-(format.unitBits : Int)) := by
  have ten : (10 : ℚ) ^ format.unitBits = 2 ^ format.unitBits * 5 ^ format.unitBits := by
    rw [← mul_pow]
    norm_num
  rw [format.magnitude_eq, Format.one, natCast_twoPow, zpow_neg, zpow_natCast, ten]
  push_cast
  field_simp

private theorem le_leadingExponent (positive : 0 < rank) :
    -(format.unitBits : Int) ≤ leadingExponent (format.magnitude rank) - 1 := by
  have upper := (leadingExponent_spec (format.magnitude_pos positive)).2
  have lower : (10 : ℚ) ^ (-(format.unitBits : Int)) ≤ format.magnitude rank := by
    rw [magnitude_eq_lastGrid]
    have units : 0 < format.units rank := by
      have order := format.units_strictMono positive
      rwa [format.units_zero] at order
    have some : 0 < format.units rank * 5 ^ format.unitBits := by positivity
    exact le_mul_of_one_le_left (ten_zpow_pos _).le (by exact_mod_cast some)
  have order := (zpow_lt_zpow_iff_right₀ (by norm_num)).mp (lower.trans_lt upper)
  omega

/-- The search behind the shortest decimal, and what it is known to have found. -/
theorem shortest_found (tie : Tie) (positive : 0 < rank) (finite : rank < format.limit) :
    ∃ decimal, Found format tie rank (format.magnitude rank) (leadingExponent (format.magnitude rank) - 1) decimal ∧
      shortest format tie rank = decimal.strip := by
  have ending : leadingExponent (format.magnitude rank) - 1 -
      ((leadingExponent (format.magnitude rank) - 1 + format.unitBits).toNat : Int) = -(format.unitBits : Int) := by
    have : -(format.unitBits : Int) ≤ leadingExponent (format.magnitude rank) - 1 := le_leadingExponent positive
    omega
  have exact := toRat_floorAt_of_exact (magnitude_eq_lastGrid format rank)
  refine ⟨_, search_found (format.magnitude_nonneg rank) _ _ ?_ ?_, by rw [shortest, if_neg positive.ne']⟩
  · rw [ending, exact]
  · rw [ending, rankOfDecimal_eq_iff format _ finite, exact, format.rankOfRat_magnitude]

private theorem rankOfDecimal_shortest (tie : Tie) (finite : rank < format.limit) :
    format.rankOfDecimal (shortest format tie rank) = rank := by
  rcases Nat.eq_zero_or_pos rank with zero | positive
  · rw [zero, shortest, if_pos rfl, Format.rankOfDecimal, if_pos rfl]
  · obtain ⟨decimal, found, same⟩ := shortest_found tie positive finite
    rw [same, rankOfDecimal_eq_iff format _ finite, toRat_strip, ← rankOfDecimal_eq_iff format _ finite]
    exact found.reads

theorem rankOfRat_shortest (tie : Tie) (finite : rank < format.limit) :
    format.rankOfRat (shortest format tie rank).toRat = rank :=
  (rankOfDecimal_eq_iff format _ finite).mp (rankOfDecimal_shortest tie finite)

theorem digits_shortest_pos (tie : Tie) (positive : 0 < rank) (finite : rank < format.limit) :
    0 < (shortest format tie rank).digits := by
  refine Nat.pos_of_ne_zero fun zero => positive.ne ?_
  rw [← rankOfRat_shortest tie finite, toRat_of_digits_eq_zero _ zero, format.rankOfRat_zero]

theorem exponent_eq_zero_of_shortest {tie : Tie} (finite : rank < format.limit)
    (zero : (shortest format tie rank).digits = 0) : (shortest format tie rank).exponent = 0 := by
  rcases Nat.eq_zero_or_pos rank with rfl | positive
  · rfl
  · exact absurd zero (digits_shortest_pos tie positive finite).ne'

private theorem Encloses.abs_sub_le {value : ℚ} {decimal : Decimal} (nonneg : 0 ≤ value)
    (encloses : decimal.Encloses value) : |decimal.toRat - value| ≤ 10 ^ decimal.exponent := by
  obtain ⟨lower, upper⟩ := floorAt_spec nonneg decimal.exponent
  have power := ten_zpow_pos decimal.exponent
  rw [Nat.cast_add_one, add_mul, one_mul] at upper
  rw [toRat, abs_le]
  rcases encloses with same | same
  · rw [same]
    exact ⟨by linarith, by linarith⟩
  · rw [same, Nat.cast_add_one, add_mul, one_mul]
    exact ⟨by linarith, by linarith⟩

/-- The shortest decimal is no further from its magnitude than the place of its last digit. -/
theorem abs_shortest_sub_le (tie : Tie) (positive : 0 < rank) (finite : rank < format.limit) :
    |(shortest format tie rank).toRat - format.magnitude rank| ≤ 10 ^ (shortest format tie rank).exponent := by
  obtain ⟨decimal, found, same⟩ := shortest_found tie positive finite
  rw [same, toRat_strip]
  refine (found.encloses.abs_sub_le (format.magnitude_nonneg rank)).trans ?_
  exact zpow_le_zpow_right₀ (by norm_num) decimal.exponent_le_strip

/-- A grid that is finer than the spacing below a magnitude has a point that reads back. -/
theorem pick?_ne_none (tie : Tie) {exponent : Int} (finite : rank + 1 < format.limit)
    (fine : (10 : ℚ) ^ exponent < (format.spacing rank : ℚ) / format.one) :
    pick? format tie (rank + 1) (format.magnitude (rank + 1)) exponent ≠ none := by
  intro missed
  obtain ⟨lowerMissed, upperMissed⟩ := pick?_eq_none missed
  rw [Ne, rankOfDecimal_eq_iff format _ finite] at lowerMissed upperMissed
  obtain ⟨lower, upper⟩ := floorAt_spec (format.magnitude_nonneg (rank + 1)) exponent
  have wider : (format.spacing rank : ℚ) / format.one ≤ (format.spacing (rank + 1) : ℚ) / format.one := by
    have spaced : (format.spacing rank : ℚ) ≤ format.spacing (rank + 1) := by
      exact_mod_cast format.spacing_mono (Nat.le_succ rank)
    exact div_le_div_of_nonneg_right spaced format.one_pos'.le
  have below := format.midpoint_eq_sub rank
  have above := format.midpoint_eq_add (rank + 1)
  have power := ten_zpow_pos exponent
  rw [toRat] at lowerMissed upperMissed
  dsimp only at lowerMissed upperMissed
  rw [Nat.cast_add_one, add_mul, one_mul] at upper upperMissed
  -- the nearer of the two points is within half a grid step of the magnitude
  rcases le_total (format.magnitude (rank + 1) - (floorAt (format.magnitude (rank + 1)) exponent : ℚ) * 10 ^ exponent)
    (10 ^ exponent / 2) with near | far
  · exact lowerMissed (format.rankOfRat_eq_of_between (by linarith) (by linarith))
  · exact upperMissed (format.rankOfRat_eq_of_between (by linarith) (by linarith))

/-- Once the powers of ten outgrow the significands of a format, one more digit is always enough. -/
theorem digits_shortest_le (tie : Tie) {count : Nat} (enough : 2 * format.binadeSize < 10 ^ count)
    (finite : rank < format.limit) : (shortest format tie rank).digits ≤ 10 ^ (count + 1) := by
  rcases Nat.eq_zero_or_pos rank with zero | positive
  · rw [zero, shortest, if_pos rfl]
    exact Nat.zero_le _
  obtain ⟨decimal, found, same⟩ := shortest_found tie positive finite
  rw [same]
  refine decimal.digits_strip_le.trans ?_
  have leading := (leadingExponent_spec (format.magnitude_pos positive)).1
  have few : leadingExponent (format.magnitude rank) - 1 - count ≤ decimal.exponent := by
    by_contra early
    have missed := found.first _ (lt_of_not_ge early) (by omega)
    obtain ⟨lower, succ⟩ := Nat.exists_eq_add_one_of_ne_zero positive.ne'
    subst succ
    refine pick?_ne_none tie finite ?_ missed
    have share : format.magnitude (lower + 1) ≤ 2 * format.binadeSize * ((format.spacing lower : ℚ) / format.one) := by
      have units : (format.units (lower + 1) : ℚ) ≤ 2 * format.binadeSize * format.spacing lower := by
        exact_mod_cast format.units_succ_le lower
      rw [format.magnitude_eq, ← mul_div_assoc]
      exact div_le_div_of_nonneg_right units format.one_pos'.le
    have room : (2 * format.binadeSize : ℚ) < 10 ^ count := by exact_mod_cast enough
    have gap : (0 : ℚ) < (format.spacing lower : ℚ) / format.one :=
      div_pos (by exact_mod_cast format.spacing_pos lower) format.one_pos'
    have scaled := (leading.trans share).trans_lt (mul_lt_mul_of_pos_right room gap)
    rw [zpow_sub₀ (by norm_num), zpow_natCast, div_lt_iff₀ (by positivity), mul_comm]
    exact scaled
  have bound : floorAt (format.magnitude rank) decimal.exponent < 10 ^ (count + 1) :=
    floorAt_lt (format.magnitude_pos positive) (by push_cast; omega)
  rcases found.encloses with digits | digits <;> omega

/-- The exponent has a lower bound, since the decimal reads as a positive magnitude. -/
theorem lt_exponent_shortest (tie : Tie) {count : Nat} (few : (shortest format tie rank).digits ≤ 10 ^ count)
    {low : Int} (small : (10 : ℚ) ^ (count + low) < format.midpoint 0) (positive : 0 < rank)
    (finite : rank < format.limit) : low < (shortest format tie rank).exponent := by
  have reads := rankOfRat_shortest tie finite
  have least := format.midpoint_le_of_lt_rankOfRat (shortest format tie rank).toRat_nonneg (reads.symm ▸ positive)
  by_contra fine
  have digits : ((shortest format tie rank).digits : ℚ) ≤ 10 ^ count := by exact_mod_cast few
  have tens : (10 : ℚ) ^ (shortest format tie rank).exponent ≤ 10 ^ low :=
    zpow_le_zpow_right₀ (by norm_num) (not_lt.mp fine)
  have most : (shortest format tie rank).toRat ≤ 10 ^ count * 10 ^ low :=
    mul_le_mul digits tens (ten_zpow_pos _).le (by positivity)
  rw [zpow_add₀ (by norm_num), zpow_natCast] at small
  linarith

/-- The exponent has an upper bound, since the decimal reads as a finite magnitude. -/
theorem exponent_shortest_lt (tie : Tie) {high : Int} (large : format.magnitude format.limit ≤ 10 ^ high)
    (positive : 0 < rank) (finite : rank < format.limit) : (shortest format tie rank).exponent < high := by
  have reads := rankOfRat_shortest tie finite
  have most := (format.le_midpoint_of_rankOfRat_le reads.le).trans_lt (format.midpoint_lt_magnitude rank)
  have last := format.magnitude_strictMono.monotone (Nat.succ_le_of_lt finite)
  by_contra coarse
  have one : (1 : ℚ) ≤ (shortest format tie rank).digits := by exact_mod_cast digits_shortest_pos tie positive finite
  have tens : (10 : ℚ) ^ high ≤ 10 ^ (shortest format tie rank).exponent :=
    zpow_le_zpow_right₀ (by norm_num) (not_lt.mp coarse)
  have least : (10 : ℚ) ^ (shortest format tie rank).exponent ≤ (shortest format tie rank).toRat :=
    le_mul_of_one_le_left (ten_zpow_pos _).le one
  linarith

end Shortest

end ScriptNumbers.Decimal

namespace ScriptNumbers.Binary

theorem ofDecimal_shortest {format : Format} (tie : Tie) (negative : Bool) (rank : Fin format.limit) :
    (ofDecimal negative (Decimal.shortest format tie rank) : Binary format) = .finite negative rank := by
  rw [ofDecimal, Decimal.rankOfDecimal_shortest tie rank.isLt, ofRank_of_lt negative rank.isLt]

end ScriptNumbers.Binary
