import ScriptNumbers.Proofs.NearestValue
import ScriptNumbers.Proofs.Scaling
import ScriptNumbers.Proofs.ShortestDecimal

/-! The shortest decimal of a double, scaled back in double arithmetic. Up to five roundings, two of them for a divisor
that is too large for one power of ten, leave a result that is finite and close, though not always the same double. -/

namespace ScriptNumbers

namespace Format

variable (format : Format)

/-- Below the normal range rounding moves a value by at most half the least magnitude. -/
theorem abs_magnitude_rankOfRat_sub_le_half {value : ℚ} (nonneg : 0 ≤ value)
    (below : value ≤ format.magnitude format.binadeSize) :
    |format.magnitude (format.rankOfRat value) - value| ≤ format.magnitude 1 / 2 := by
  have positive := format.binadeSize_pos
  have order : format.rankOfRat value ≤ format.binadeSize :=
    format.rankOfRat_le_of_le_magnitude ((abs_of_nonneg nonneg).trans_le below)
  have even : ∀ rank ≤ format.binadeSize, format.spacing rank = 1 := by
    intro rank small
    rw [spacing, format.doublings_eq (Or.inl rfl) (by omega), twoPow_zero]
  have upper := format.le_midpoint_of_rankOfRat_le (le_refl (format.rankOfRat value))
  rw [midpoint_eq_add, even _ order, Nat.cast_one, ← magnitude_one_eq] at upper
  have least := format.magnitude_nonneg 1
  rw [abs_le]
  refine ⟨by linarith, ?_⟩
  rcases Nat.eq_zero_or_pos (format.rankOfRat value) with zero | some
  · rw [zero, format.magnitude_zero]
    linarith
  · obtain ⟨rank, succ⟩ := Nat.exists_eq_add_one_of_ne_zero some.ne'
    have lower := format.midpoint_le_of_lt_rankOfRat nonneg (succ ▸ Nat.lt_add_one rank)
    rw [midpoint_eq_sub, even rank (by omega), Nat.cast_one, ← magnitude_one_eq] at lower
    rw [succ]
    linarith

private theorem abs_magnitude_rankOfRat_sub_le_add {value : ℚ} (nonneg : 0 ≤ value) :
    |format.magnitude (format.rankOfRat value) - value| ≤ value / (2 * format.binadeSize) + format.magnitude 1 / 2 := by
  have share : 0 ≤ value / (2 * format.binadeSize) := div_nonneg nonneg (by positivity)
  have least := format.magnitude_nonneg 1
  rcases le_total (format.magnitude format.binadeSize) value with normal | below
  · have error := format.abs_magnitude_rankOfRat_sub_le normal
    linarith
  · have error := format.abs_magnitude_rankOfRat_sub_le_half nonneg below
    linarith

end Format

namespace Binary

variable {format : Format}

private theorem round_of_nonneg {value : ℚ} (nonneg : 0 ≤ value) :
    (round false value : Binary format) = ofRank false (format.rankOfRat value) := by
  rw [round, decide_eq_false nonneg.not_gt, ite_self]

end Binary

namespace Json

open Format

theorem double_error {value : ℚ} (nonneg : 0 ≤ value) :
    |double.magnitude (double.rankOfRat value) - value| ≤ value / 2 ^ 53 + double.magnitude 1 / 2 := by
  have error := double.abs_magnitude_rankOfRat_sub_le_add nonneg
  rwa [two_mul_binadeSize_double] at error

private theorem double_error_of_one_le {value : ℚ} (large : 1 ≤ value) :
    |double.magnitude (double.rankOfRat value) - value| ≤ value / 2 ^ 53 := by
  have normal : double.magnitude double.binadeSize ≤ value := by
    rw [magnitude_binadeSize_double]
    exact le_trans (zpow_le_one_of_nonpos₀ (by norm_num) (by norm_num)) large
  have error := double.abs_magnitude_rankOfRat_sub_le normal
  rwa [two_mul_binadeSize_double] at error

private theorem one_le_magnitude {value : ℚ} (large : 1 ≤ value) : 1 ≤ double.magnitude (double.rankOfRat value) := by
  have held := double.exists_magnitude_eq_natCast (show 1 < 2 * double.binadeSize by decide)
  rw [Nat.cast_one] at held
  exact double.le_magnitude_rankOfRat held (large.trans (le_abs_self value))

private theorem powerOfTen_eq {tens : Nat} (few : tens ≤ largestTens) :
    ∃ rank : Fin double.limit, powerOfTen tens = .finite false rank ∧ rank.val = double.rankOfRat (10 ^ tens) := by
  have exact : (⟨1, tens⟩ : Decimal).toRat = 10 ^ tens := by
    rw [Decimal.toRat, Nat.cast_one, one_mul, zpow_natCast]
  have last : double.rankOfRat (10 ^ largestTens) < double.limit := by decide +kernel
  have order : (10 : ℚ) ^ tens ≤ 10 ^ largestTens := pow_le_pow_right₀ (by norm_num) few
  have finite := (double.rankOfRat_mono_of_nonneg (pow_nonneg (by norm_num) tens) order).trans_lt last
  exact ⟨⟨_, finite⟩, by rw [powerOfTen, Binary.ofDecimal_eq, exact, Binary.ofRank_of_lt false finite], rfl⟩

/-- Digits that a word holds are no infinity. -/
theorem ofInt_eq {digits : Nat} (few : digits < UInt64.size) :
    ∃ rank : Fin double.limit, (Binary.ofInt digits : Double) = .finite false rank ∧
      rank.val = double.rankOfRat digits := by
  have last : double.rankOfRat UInt64.size < double.limit := by decide +kernel
  have order : (digits : ℚ) ≤ UInt64.size := by exact_mod_cast few.le
  have finite := (double.rankOfRat_mono_of_nonneg (Nat.cast_nonneg digits) order).trans_lt last
  refine ⟨⟨_, finite⟩, ?_, rfl⟩
  rw [Binary.ofInt, Int.cast_natCast, Binary.round_of_nonneg (Nat.cast_nonneg digits), Binary.ofRank_of_lt false finite]

private theorem ofInt_error (digits : Nat) :
    |double.magnitude (double.rankOfRat digits) - digits| ≤ digits / 2 ^ 53 := by
  rcases Nat.eq_zero_or_pos digits with rfl | some
  · rw [Nat.cast_zero, double.rankOfRat_zero, double.magnitude_zero]
    norm_num
  · exact double_error_of_one_le (by exact_mod_cast some)

/-- Dividing by a power of ten leads to no infinity, and to what the error of the dividend allows. -/
theorem divide_powerOfTen {value share rest : ℚ} (left : Fin double.limit) {tens : Nat} (few : tens ≤ largestTens)
    (nonneg : 0 ≤ value) (accurate : share ≤ 1 / 9) (restNonneg : 0 ≤ rest)
    (near : |double.magnitude left - value| ≤ share * value + rest) :
    ∃ rank, (Binary.finite false left : Double).divide (powerOfTen tens) = .finite false rank ∧
      |double.magnitude rank - value / 10 ^ tens| ≤
        (share + 5 / 2 ^ 54) * (value / 10 ^ tens) + (3 / 2 * rest + double.magnitude 1 / 2) := by
  obtain ⟨power, powerEq, powerRank⟩ := powerOfTen_eq few
  have large : (1 : ℚ) ≤ 10 ^ tens := one_le_pow₀ (by norm_num)
  have one := powerRank ▸ one_le_magnitude large
  have powerError := powerRank ▸ double_error_of_one_le large
  have leftNonneg := double.magnitude_nonneg left
  have some : power.val ≠ 0 := double.ne_zero_of_magnitude_pos (zero_lt_one.trans_le one)
  have quotient : 0 ≤ double.magnitude left / double.magnitude power := div_nonneg leftNonneg (by linarith)
  have finite : double.rankOfRat (double.magnitude left / double.magnitude power) < double.limit :=
    (double.rankOfRat_le_of_le_magnitude ((abs_of_nonneg quotient).trans_le (div_le_self leftNonneg one))).trans_lt
      left.isLt
  refine ⟨⟨_, finite⟩, ?_, ?_⟩
  · rw [powerEq, Binary.divide_positive left some, Binary.round_of_nonneg quotient, Binary.ofRank_of_lt false finite]
  · have error := quotient_error_add leftNonneg (by linarith) powerError (double_error quotient)
    dsimp only at error ⊢
    -- what the dividend is off by, divided by the power
    have moved : |double.magnitude left / 10 ^ tens - value / 10 ^ tens| ≤ share * (value / 10 ^ tens) + rest := by
      rw [← sub_div, abs_div, abs_of_pos (show (0 : ℚ) < 10 ^ tens by linarith), div_le_iff₀ (by linarith)]
      calc |double.magnitude left - value| ≤ share * value + rest := near
        _ ≤ share * value + rest * 10 ^ tens := by
          have := le_mul_of_one_le_right restNonneg large
          linarith
        _ = (share * (value / 10 ^ tens) + rest) * 10 ^ tens := by field_simp
    have size : 0 ≤ value / 10 ^ tens := div_nonneg nonneg (by linarith)
    have small := mul_le_mul_of_nonneg_right accurate size
    have upper := (abs_le.mp moved).2
    have least := double.magnitude_nonneg 1
    have triangle := abs_sub_le (double.magnitude (double.rankOfRat (double.magnitude left / double.magnitude power)))
      (double.magnitude left / 10 ^ tens) (value / 10 ^ tens)
    linarith

private theorem divideByLargest_once (left : Fin double.limit) :
    divideByLargest (.finite false left) 1 = (Binary.finite false left : Double).divide (powerOfTen largestTens) := by
  rw [divideByLargest, divideByLargest]
  split
  next zero =>
    obtain ⟨power, powerEq, powerRank⟩ := powerOfTen_eq (le_refl largestTens)
    have one := powerRank ▸ one_le_magnitude (one_le_pow₀ (by norm_num) : (1 : ℚ) ≤ 10 ^ largestTens)
    have some : power.val ≠ 0 := double.ne_zero_of_magnitude_pos (zero_lt_one.trans_le one)
    have none : left.val = 0 := beq_iff_eq.mp zero
    rw [powerEq, Binary.divide_positive left some, none, double.magnitude_zero, zero_div, Binary.round_of_nonneg le_rfl,
      double.rankOfRat_zero, Binary.ofRank_of_lt false double.limit_pos]
    exact congrArg (Binary.finite false) (Fin.ext none)
  next => rfl

/-- Scaling a decimal ends at a finite double, and the error is at most that of five roundings. -/
def ScalesFinitely (decimal : Decimal) : Prop :=
  ∃ read, scale decimal = .finite false read ∧
    |double.magnitude read - decimal.toRat| ≤ 12 / 2 ^ 54 * decimal.toRat + 5 / 4 * double.magnitude 1

private theorem scalesFinitely_negSucc {digits tens : Nat} (few : digits < UInt64.size)
    (inside : tens < 2 * largestTens) : ScalesFinitely ⟨digits, .negSucc tens⟩ := by
  obtain ⟨whole, wholeEq, wholeRank⟩ := ofInt_eq few
  have value : (⟨digits, .negSucc tens⟩ : Decimal).toRat = digits / 10 ^ (tens + 1) := rfl
  have nonneg : (0 : ℚ) ≤ digits := Nat.cast_nonneg digits
  have least := double.magnitude_nonneg 1
  have near : |double.magnitude whole - digits| ≤ 2 / 2 ^ 54 * digits + 0 := by
    have error := wholeRank ▸ ofInt_error digits
    linarith
  rw [ScalesFinitely, value, scale]
  dsimp only
  rw [wholeEq]
  have size : (0 : ℚ) ≤ digits / 10 ^ (tens + 1) := div_nonneg nonneg (pow_nonneg (by norm_num) _)
  rcases Nat.lt_or_ge tens largestTens with once | twice
  · rw [Nat.div_eq_of_lt once, Nat.mod_eq_of_lt once, divideByLargest]
    obtain ⟨rank, same, error⟩ :=
      divide_powerOfTen whole (show tens + 1 ≤ largestTens from once) nonneg (by norm_num) le_rfl near
    exact ⟨rank, same, by linarith⟩
  · have quotient : tens / largestTens = 1 := Nat.div_eq_of_lt_le (by omega) (by omega)
    have rest : tens % largestTens = tens - largestTens := by rw [Nat.mod_eq_sub_mod twice, Nat.mod_eq_of_lt (by omega)]
    have total : tens + 1 = largestTens + (tens - largestTens + 1) := by omega
    have split : (10 : ℚ) ^ (tens + 1) = 10 ^ largestTens * 10 ^ (tens - largestTens + 1) := by
      rw [← pow_add, ← total]
    rw [quotient, rest, divideByLargest_once]
    obtain ⟨middle, middleEq, error⟩ := divide_powerOfTen whole le_rfl nonneg (by norm_num) le_rfl near
    have middleNonneg : (0 : ℚ) ≤ digits / 10 ^ largestTens := div_nonneg nonneg (pow_nonneg (by norm_num) _)
    rw [middleEq, split, ← div_div]
    rw [split, ← div_div] at size
    have behind : tens - largestTens + 1 ≤ largestTens := by omega
    obtain ⟨rank, same, error⟩ :=
      divide_powerOfTen middle behind middleNonneg (by norm_num) (by linarith) error
    exact ⟨rank, same, by linarith⟩

private theorem mul_error {digits tens whole power : ℚ} (digitsNonneg : 0 ≤ digits) (tensNonneg : 0 ≤ tens)
    (first : |whole - digits| ≤ digits / 2 ^ 53) (second : |power - tens| ≤ tens / 2 ^ 53) :
    |whole * power - digits * tens| ≤ (2 / 2 ^ 53 + 1 / 2 ^ 106) * (digits * tens) := by
  have size : |power| ≤ tens + tens / 2 ^ 53 := by
    have upper := abs_sub_abs_le_abs_sub power tens
    rw [abs_of_nonneg tensNonneg] at upper
    linarith
  calc |whole * power - digits * tens| = |(whole - digits) * power + digits * (power - tens)| := by ring_nf
    _ ≤ |whole - digits| * |power| + digits * |power - tens| := by
      have triangle := abs_add_le ((whole - digits) * power) (digits * (power - tens))
      rwa [abs_mul, abs_mul, abs_of_nonneg digitsNonneg] at triangle
    _ ≤ digits / 2 ^ 53 * (tens + tens / 2 ^ 53) + digits * (tens / 2 ^ 53) :=
      add_le_add (mul_le_mul first size (abs_nonneg _) (div_nonneg digitsNonneg (by norm_num)))
        (mul_le_mul_of_nonneg_left second digitsNonneg)
    _ = (2 / 2 ^ 53 + 1 / 2 ^ 106) * (digits * tens) := by ring

/-- Multiplying by a power of ten is as accurate as dividing by one, but may lead to infinity. -/
theorem scale_natCast {digits tens : Nat} (few : digits < UInt64.size) (inside : tens ≤ largestTens) :
    ∃ product : ℚ, scale ⟨digits, (tens : Int)⟩ = .ofRank false (double.rankOfRat product) ∧ 0 ≤ product ∧
      |product - (⟨digits, (tens : Int)⟩ : Decimal).toRat| ≤
        (2 / 2 ^ 53 + 1 / 2 ^ 106) * (⟨digits, (tens : Int)⟩ : Decimal).toRat := by
  obtain ⟨whole, wholeEq, wholeRank⟩ := ofInt_eq few
  obtain ⟨power, powerEq, powerRank⟩ := powerOfTen_eq inside
  have large : (1 : ℚ) ≤ 10 ^ tens := one_le_pow₀ (by norm_num)
  have product := mul_nonneg (double.magnitude_nonneg whole) (double.magnitude_nonneg power)
  have scaled : scale ⟨digits, (tens : Int)⟩ = (Binary.ofInt digits : Double).multiply (powerOfTen tens) :=
    if_pos inside
  rw [Decimal.toRat, zpow_natCast]
  refine ⟨_, ?_, product, mul_error (Nat.cast_nonneg digits) (zero_le_one.trans large) ?_ ?_⟩
  · rw [scaled, wholeEq, powerEq, Binary.multiply_positive, Binary.round_of_nonneg product]
  · exact wholeRank ▸ ofInt_error digits
  · exact powerRank ▸ double_error_of_one_le large

private theorem ScalesFinitely.of_product {decimal : Decimal} {product : ℚ}
    (scaled : scale decimal = .ofRank false (double.rankOfRat product))
    (inRange : double.rankOfRat product < double.limit) (nonneg : 0 ≤ product)
    (near : |product - decimal.toRat| ≤ (2 / 2 ^ 53 + 1 / 2 ^ 106) * decimal.toRat) :
    ScalesFinitely decimal := by
  refine ⟨⟨_, inRange⟩, scaled.trans (Binary.ofRank_of_lt false inRange), ?_⟩
  dsimp only
  have error := double_error nonneg
  have size := decimal.toRat_nonneg
  have least := double.magnitude_nonneg 1
  have upper := (abs_le.mp near).2
  have triangle := abs_sub_le (double.magnitude (double.rankOfRat product)) product decimal.toRat
  linarith

private theorem divide_powerOfTen_finite (left : Fin double.limit) {tens : Nat} (few : tens ≤ largestTens) :
    ∃ rank, (Binary.finite false left : Double).divide (powerOfTen tens) = .finite false rank := by
  have itself : |double.magnitude left - double.magnitude left| ≤ 0 * double.magnitude left + 0 := by simp
  obtain ⟨rank, same, -⟩ :=
    divide_powerOfTen left few (double.magnitude_nonneg left) (by norm_num) le_rfl itself
  exact ⟨rank, same⟩

private theorem divideByLargest_finite (left : Fin double.limit) (times : Nat) :
    ∃ rank, divideByLargest (.finite false left) times = .finite false rank := by
  induction times generalizing left with
  | zero => exact ⟨left, rfl⟩
  | succ times ih =>
    rw [divideByLargest]
    split
    next => exact ⟨left, rfl⟩
    next =>
      obtain ⟨rank, same⟩ := divide_powerOfTen_finite left le_rfl
      rw [same]
      exact ih rank

/-- Scaling down never leads to infinity. -/
theorem scale_negSucc {digits : Nat} (few : digits < UInt64.size) (tens : Nat) :
    ∃ rank, scale ⟨digits, .negSucc tens⟩ = .finite false rank := by
  obtain ⟨whole, wholeEq, -⟩ := ofInt_eq few
  obtain ⟨left, divided⟩ := divideByLargest_finite whole (tens / largestTens)
  rw [scale]
  dsimp only
  rw [wholeEq, divided]
  exact divide_powerOfTen_finite left (Nat.succ_le_of_lt (Nat.mod_lt tens (by decide)))

/-- A power of ten that is no double leaves only zero finite. -/
theorem scale_beyond {digits tens : Nat} (few : digits < UInt64.size) (beyond : largestTens < tens) :
    ∃ whole : Fin double.limit, whole.val = double.rankOfRat digits ∧
      scale ⟨digits, (tens : Int)⟩ = if whole.val = 0 then .finite false whole else .infinity false := by
  obtain ⟨whole, wholeEq, wholeRank⟩ := ofInt_eq few
  refine ⟨whole, wholeRank, (if_neg beyond.not_ge).trans ?_⟩
  rw [wholeEq]
  simp [Binary.isZero]

theorem scale_cases {decimal : Decimal} (few : decimal.digits < UInt64.size) :
    (∃ rank, scale decimal = .finite false rank) ∨ scale decimal = .infinity false := by
  obtain ⟨digits, exponent⟩ := decimal
  cases exponent with
  | negSucc tens => exact Or.inl (scale_negSucc few tens)
  | ofNat tens =>
    rcases Nat.lt_or_ge largestTens tens with beyond | inside
    · obtain ⟨whole, -, scaled⟩ := scale_beyond few beyond
      by_cases none : whole.val = 0
      · exact Or.inl ⟨whole, scaled.trans (if_pos none)⟩
      · exact Or.inr (scaled.trans (if_neg none))
    · obtain ⟨product, scaled, -, -⟩ := scale_natCast few inside
      rcases lt_or_ge (double.rankOfRat product) double.limit with finite | infinite
      · exact Or.inl ⟨⟨_, finite⟩, scaled.trans (Binary.ofRank_of_lt false finite)⟩
      · exact Or.inr (scaled.trans (Binary.ofRank_of_limit_le false infinite))

private theorem limit_le_rankOfRat_of_beyond {digits tens : Nat} (some : 0 < digits) (beyond : largestTens < tens) :
    double.limit ≤ double.rankOfRat (⟨digits, (tens : Int)⟩ : Decimal).toRat := by
  have last : double.limit ≤ double.rankOfRat (10 ^ (largestTens + 1)) := by decide +kernel
  refine last.trans (double.rankOfRat_mono_of_nonneg (pow_nonneg (by norm_num) _) ?_)
  have one : (1 : ℚ) ≤ digits := by exact_mod_cast some
  rw [Decimal.toRat, zpow_natCast]
  calc (10 : ℚ) ^ (largestTens + 1) ≤ 10 ^ tens := pow_le_pow_right₀ (by norm_num) beyond
    _ ≤ digits * 10 ^ tens := le_mul_of_one_le_left (pow_nonneg (by norm_num) _) one

private theorem rankOfRat_lt_of_before_last {value product : ℚ} {rank : Nat} (before : rank ≤ double.limit - 3)
    (reads : double.rankOfRat value = rank) (nonneg : 0 ≤ product)
    (near : |product - value| ≤ (2 / 2 ^ 53 + 1 / 2 ^ 106) * value) : double.rankOfRat product < double.limit := by
  have third : double.midpoint (double.limit - 3) = (2 ^ 54 - 5) * 2 ^ 970 := by decide +kernel
  have last : double.midpoint (double.limit - 1) = (2 ^ 54 - 1) * 2 ^ 970 := by decide +kernel
  have below := double.le_midpoint_of_rankOfRat_le (reads.le.trans before)
  have upper := (abs_le.mp near).2
  have power : (0 : ℚ) < 2 ^ 970 := pow_pos (by norm_num) _
  by_contra infinite
  have beyond := limit_le_rankOfRat_iff.mp (not_lt.mp infinite)
  rw [last, abs_of_nonneg nonneg] at beyond
  rw [third] at below
  generalize (2 : ℚ) ^ 970 = unit at below beyond power
  linarith

/-- The error of scaling leads to infinity only from the last two doubles on. -/
theorem scale_before_last {decimal : Decimal} (few : decimal.digits < UInt64.size)
    (before : double.rankOfRat decimal.toRat ≤ double.limit - 3) : ∃ rank, scale decimal = .finite false rank := by
  obtain ⟨digits, exponent⟩ := decimal
  cases exponent with
  | negSucc tens => exact scale_negSucc few tens
  | ofNat tens =>
    rcases Nat.lt_or_ge largestTens tens with beyond | inside
    · obtain ⟨whole, wholeRank, scaled⟩ := scale_beyond few beyond
      rcases Nat.eq_zero_or_pos digits with rfl | some
      · rw [Nat.cast_zero, double.rankOfRat_zero] at wholeRank
        exact ⟨whole, scaled.trans (if_pos wholeRank)⟩
      · have last : 3 ≤ double.limit := by decide
        have infinite := limit_le_rankOfRat_of_beyond some beyond
        dsimp only [Int.ofNat_eq_natCast] at before
        omega
    · obtain ⟨product, scaled, nonneg, near⟩ := scale_natCast few inside
      have finite := rankOfRat_lt_of_before_last before rfl nonneg near
      exact ⟨⟨_, finite⟩, scaled.trans (Binary.ofRank_of_lt false finite)⟩

open Decimal

theorem digits_shortest_double_le {tie : Tie} {rank : Nat} (finite : rank < double.limit) :
    (shortest double tie rank).digits ≤ 10 ^ 17 :=
  digits_shortest_le tie (show 2 * double.binadeSize < 10 ^ 16 by decide) finite

private theorem exponent_shortest_double {tie : Tie} {rank : Nat} (finite : rank < double.limit) :
    -617 < (shortest double tie rank).exponent ∧ (shortest double tie rank).exponent < 309 := by
  rcases Nat.eq_zero_or_pos rank with rfl | positive
  · have none : (shortest double tie 0).exponent = 0 := rfl
    omega
  have small : (10 : ℚ) ^ ((17 : Nat) + -617 : Int) < double.midpoint 0 := by decide +kernel
  have large : double.magnitude double.limit ≤ 10 ^ (309 : Int) := by decide +kernel
  exact ⟨lt_exponent_shortest tie (digits_shortest_double_le finite) small positive finite,
    exponent_shortest_lt tie large positive finite⟩

/-- The last two doubles are no further from infinity than scaling may be off. They do not become infinite. -/
theorem isFinite_scale_last :
    [1, 2].all fun place => (scale (shortest double .toEven (double.limit - place))).isFinite := by
  decide +kernel

private theorem isFinite_scale_of_late {rank : Nat} (finite : rank < double.limit) (late : double.limit - 3 < rank) :
    (scale (shortest double .toEven rank)).isFinite := by
  have rows := List.all_eq_true.mp isFinite_scale_last
  have place : rank = double.limit - 1 ∨ rank = double.limit - 2 := by omega
  rcases place with rfl | rfl
  · exact rows 1 (by decide)
  · exact rows 2 (by decide)

/-- A shortest decimal that is whole is scaled up, but not out of range. -/
theorem scalesFinitely_shortest_of_nonneg {rank : Nat} (finite : rank < double.limit)
    (coarse : 0 ≤ (shortest double .toEven rank).exponent) : ScalesFinitely (shortest double .toEven rank) := by
  have reads := rankOfRat_shortest .toEven finite
  have few : (shortest double .toEven rank).digits ≤ 10 ^ 17 := digits_shortest_double_le finite
  have inside : (shortest double .toEven rank).exponent < 309 := (exponent_shortest_double finite).2
  have last : double.limit - 3 < rank → _ := isFinite_scale_of_late finite
  generalize shortest double .toEven rank = decimal at *
  obtain ⟨digits, exponent⟩ := decimal
  obtain ⟨tens, rfl⟩ := Int.eq_ofNat_of_zero_le coarse
  dsimp only at inside
  have within : tens ≤ largestTens := by
    unfold largestTens
    omega
  obtain ⟨product, scaled, nonneg, near⟩ := scale_natCast (few.trans_lt (by decide)) within
  refine .of_product scaled ?_ nonneg near
  rcases Nat.lt_or_ge (double.limit - 3) rank with late | early
  · by_contra beyond
    have finite := last late
    rw [scaled, Binary.ofRank_of_limit_le false (not_lt.mp beyond)] at finite
    cases finite
  · exact rankOfRat_lt_of_before_last early reads nonneg near

/-- The digits and the power of ten that a text may have of the shortest decimal of a magnitude. -/
structure SpellsDouble (rank : Nat) (leading : Decimal) : Prop where
  same : leading.toRat = (shortest double .toEven rank).toRat
  few : leading.digits ≤ 10 ^ 17
  form : leading = shortest double .toEven rank ∨ leading.exponent = -1

variable {rank : Fin double.limit} {leading : Decimal}

private theorem SpellsDouble.scalesFinitely (spells : SpellsDouble rank leading) : ScalesFinitely leading := by
  rcases lt_or_ge leading.exponent 0 with finer | coarse
  · have low : -617 < leading.exponent := by
      rcases spells.form with same | tenth
      · rw [same]
        exact (exponent_shortest_double rank.isLt).1
      · omega
    have few := spells.few
    obtain ⟨digits, exponent⟩ := leading
    obtain ⟨tens, rfl⟩ := Int.eq_negSucc_of_lt_zero finer
    refine scalesFinitely_negSucc (few.trans_lt (by decide)) ?_
    unfold largestTens
    dsimp only at low
    omega
  · rcases spells.form with same | tenth
    · subst same
      exact scalesFinitely_shortest_of_nonneg rank.isLt coarse
    · omega

/-- A double comes back as one close by: off by a tiny share of itself and by no more than two of the least doubles. -/
theorem SpellsDouble.scale_close (spells : SpellsDouble rank leading) :
    ∃ read, scale leading = .finite false read ∧
      |double.magnitude read - double.magnitude rank| ≤ double.magnitude rank / 2 ^ 50 + 2 * double.magnitude 1 := by
  obtain ⟨read, scaled, near⟩ := spells.scalesFinitely
  refine ⟨read, scaled, ?_⟩
  have nonneg := leading.toRat_nonneg
  have rounded := double_error nonneg
  have reads : double.rankOfRat leading.toRat = rank := by rw [spells.same, rankOfRat_shortest .toEven rank.isLt]
  rw [reads, abs_sub_comm] at rounded
  have least := double.magnitude_nonneg 1
  have lower := (abs_le.mp rounded).2
  have triangle := abs_sub_le (double.magnitude read) leading.toRat (double.magnitude rank)
  linarith

private theorem powerOfTen_exact {tens : Nat} (small : tens ≤ 22) :
    ∃ power, powerOfTen tens = .finite false power ∧ double.magnitude power = 10 ^ tens := by
  obtain ⟨power, powerEq, powerRank⟩ := powerOfTen_eq (small.trans (by decide))
  exact ⟨power, powerEq, powerRank ▸ magnitude_rankOfRat_of_exact double (ten_pow_exact small)⟩

/-- If the digits and the power of ten are doubles, then only the result is rounded. -/
theorem scale_eq_ofDecimal {decimal : Decimal} (short : decimal.digits < 2 ^ 53)
    (inside : decimal.exponent.natAbs ≤ 22) : scale decimal = .ofDecimal false decimal := by
  obtain ⟨digits, exponent⟩ := decimal
  dsimp only at short inside
  obtain ⟨whole, wholeEq, wholeRank⟩ := ofInt_eq (short.trans (by decide))
  have wholeExact := magnitude_rankOfRat_of_exact double (double.exists_magnitude_eq_natCast short)
  rw [← wholeRank] at wholeExact
  rw [Binary.ofDecimal_eq, toRat, scale]
  have nonneg : (0 : ℚ) ≤ digits := Nat.cast_nonneg digits
  cases exponent with
  | ofNat tens =>
    obtain ⟨power, powerEq, powerExact⟩ := powerOfTen_exact (show tens ≤ 22 from inside)
    have few : tens ≤ largestTens := le_trans (show tens ≤ 22 from inside) (by decide)
    have value : (digits : ℚ) * 10 ^ Int.ofNat tens = digits * 10 ^ tens := rfl
    dsimp only
    rw [if_pos few, wholeEq, powerEq, Binary.multiply_positive, wholeExact, powerExact, value]
    exact Binary.round_of_nonneg (mul_nonneg nonneg (pow_nonneg (by norm_num) _))
  | negSucc tens =>
    obtain ⟨power, powerEq, powerExact⟩ := powerOfTen_exact (show tens + 1 ≤ 22 from inside)
    have few : tens < largestTens := lt_of_lt_of_le (show tens < 22 from inside) (by decide)
    have value : (digits : ℚ) * 10 ^ Int.negSucc tens = digits / 10 ^ (tens + 1) := rfl
    have some : power.val ≠ 0 := double.ne_zero_of_magnitude_pos (powerExact ▸ pow_pos (by norm_num) _)
    dsimp only
    rw [Nat.div_eq_of_lt few, Nat.mod_eq_of_lt few, divideByLargest, wholeEq, powerEq,
      Binary.divide_positive whole some, wholeExact, powerExact, value]
    exact Binary.round_of_nonneg (div_nonneg nonneg (pow_nonneg (by norm_num) _))

theorem SpellsDouble.scale_exact (spells : SpellsDouble rank leading) (short : leading.digits < 2 ^ 53)
    (inside : leading.exponent.natAbs ≤ 22) : scale leading = .finite false rank := by
  rw [scale_eq_ofDecimal short inside, Binary.ofDecimal_congr false spells.same, Binary.ofDecimal_shortest]

end Json

end ScriptNumbers
