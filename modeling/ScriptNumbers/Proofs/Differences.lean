import ScriptNumbers.Number.Arithmetic
import ScriptNumbers.Proofs.NumberOrder

/-! The difference of two floating numbers is zero only if they are equal, and otherwise has the sign that their
order gives it. All operands are whole multiples of the least magnitude of the result, so a difference other than
zero is at least that magnitude, which no rounding on the way can go below. -/

namespace ScriptNumbers

namespace Format

variable (format : Format)

/-- A whole number of units, of any size and sign. -/
def Whole (value : ℚ) : Prop := ∃ count : Int, value = count / format.one

private theorem whole_zero : format.Whole 0 := ⟨0, by simp⟩

private theorem whole_magnitude (rank : Nat) : format.Whole (format.magnitude rank) :=
  ⟨format.units rank, by rw [magnitude_eq, Int.cast_natCast]⟩

variable {format}

private theorem Whole.sub {left right : ℚ} (leftWhole : format.Whole left) (rightWhole : format.Whole right) :
    format.Whole (left - right) := by
  obtain ⟨l, rfl⟩ := leftWhole
  obtain ⟨r, rfl⟩ := rightWhole
  exact ⟨l - r, by push_cast; ring⟩

private theorem Whole.neg {value : ℚ} (whole : format.Whole value) : format.Whole (-value) := by
  simpa using format.whole_zero.sub whole

private theorem Whole.signedMagnitude {rank : Nat} {target : Format} (whole : target.Whole (format.magnitude rank))
    (negative : Bool) : target.Whole (Binary.signedMagnitude format negative rank) := by
  cases negative with
  | false => exact whole
  | true => exact whole.neg

theorem binadeSize_lt_limit (format : Format) : format.binadeSize < format.limit := by
  have exponents : twoPow 2 ≤ twoPow format.exponentBits := twoPow_le format.two_le_exponentBits
  have four : twoPow 2 = 4 := rfl
  exact lt_mul_of_one_lt_left format.binadeSize_pos (by omega)

private theorem one_lt_limit (format : Format) : 1 < format.limit :=
  Nat.lt_of_le_of_lt format.binadeSize_pos format.binadeSize_lt_limit

private theorem Whole.magnitude_one_le {value : ℚ} (whole : format.Whole value) (some : value ≠ 0) :
    format.magnitude 1 ≤ |value| := by
  obtain ⟨count, rfl⟩ := whole
  have positive := format.one_pos'
  have nonzero : count ≠ 0 := by
    rintro rfl
    simp at some
  rw [magnitude_one_eq, abs_div, abs_of_pos positive]
  apply div_le_div_of_nonneg_right _ positive.le
  exact_mod_cast Int.one_le_abs nonzero

theorem magnitude_eq_zpow (rank : Nat) :
    format.magnitude rank = (format.significand rank : ℚ) * 2 ^ (format.doublings rank - format.unitBits : Int) := by
  rw [magnitude_eq, units_eq, spacing, one, Nat.cast_mul, natCast_twoPow, natCast_twoPow, zpow_sub₀ (by norm_num),
    zpow_natCast, zpow_natCast, mul_div_assoc]

theorem exists_magnitude_eq_single {rank : Nat} (finite : rank < single.limit) :
    ∃ wide < double.limit, double.magnitude wide = single.magnitude rank := by
  have short := single.significand_lt rank
  have size : single.binadeSize = 2 ^ 23 := rfl
  have wideSize : double.binadeSize = 2 ^ 52 := rfl
  have units : single.unitBits = 149 := rfl
  have fine : double.unitBits = 1074 := rfl
  have limit : single.magnitude single.limit = 2 ^ 128 := single.magnitude_limit
  obtain ⟨wide, exact⟩ := double.exists_magnitude_eq (show single.significand rank < 2 * double.binadeSize by omega)
    (show -(double.unitBits : Int) ≤ single.doublings rank - single.unitBits by omega)
  rw [← magnitude_eq_zpow] at exact
  refine ⟨wide, lt_limit_of_magnitude_le ?_, exact⟩
  rw [exact, ← limit]
  exact (single.magnitude_strictMono finite).le

theorem magnitude_one_double_le : double.magnitude 1 ≤ single.magnitude 1 := by
  obtain ⟨wide, -, exact⟩ := exists_magnitude_eq_single single.one_lt_limit
  have positive : double.magnitude 0 < double.magnitude wide := by
    rw [exact, magnitude_zero]
    exact single.magnitude_pos Nat.one_pos
  rw [← exact]
  exact double.magnitude_strictMono.monotone (double.magnitude_strictMono.lt_iff_lt.mp positive)

/-- From one on the spacing of doubles is coarser than the units of single precision. -/
theorem whole_single_of_one_le {rank : Nat} (large : 1 ≤ double.magnitude rank) :
    single.Whole (double.magnitude rank) := by
  -- Units of single precision are `2 ^ 925` units of doubles: `1074 - 149`.
  have coarse : 925 ≤ double.doublings rank := by
    by_contra fine
    have spaced : double.spacing rank ≤ twoPow 924 := twoPow_le (by omega)
    have below : double.units rank < double.one := by
      calc double.units rank < double.units (rank + 1) := double.units_strictMono (Nat.lt_add_one rank)
        _ ≤ twoPow 53 * double.spacing rank := double.units_succ_le rank
        _ ≤ twoPow 53 * twoPow 924 := Nat.mul_le_mul_left _ spaced
        _ = twoPow (53 + 924) := (twoPow_add 53 924).symm
        _ ≤ double.one := twoPow_le (by decide)
    rw [magnitude_eq, one_le_div double.one_pos'] at large
    exact below.not_ge (by exact_mod_cast large)
  refine ⟨double.significand rank * 2 ^ (double.doublings rank - 925), ?_⟩
  have units : double.unitBits = 1074 := rfl
  have one : (single.one : ℚ) = 2 ^ 149 := natCast_twoPow 149
  have exponent : (double.doublings rank - double.unitBits : Int) = (double.doublings rank - 925 : Nat) - 149 := by
    omega
  rw [magnitude_eq_zpow, exponent, one, zpow_sub₀ (by norm_num), zpow_natCast]
  push_cast
  rw [mul_div_assoc]
  norm_num

/-- No integer of a machine word overflows a format whose exponents go beyond those of the word. -/
theorem rankOfRat_intCast_lt_limit (format : Format) (wide : 63 < twoPow (format.exponentBits - 1)) {value : Int}
    (small : value.natAbs ≤ 2 ^ 63) : format.rankOfRat value < format.limit := by
  have positive := format.binadeSize_pos
  have held := format.exists_magnitude_eq (show 1 < 2 * format.binadeSize by omega)
    (show -(format.unitBits : Int) ≤ 63 by omega)
  have size : |(value : ℚ)| ≤ (1 : Nat) * (2 : ℚ) ^ (63 : Int) := by
    rw [← Int.cast_abs, Int.abs_eq_natAbs]
    exact_mod_cast small
  apply format.magnitude_strictMono.lt_iff_lt.mp
  calc format.magnitude (format.rankOfRat value) ≤ (1 : Nat) * (2 : ℚ) ^ (63 : Int) :=
        format.magnitude_rankOfRat_le held size
    _ = 2 ^ 63 := by norm_num
    _ < 2 ^ twoPow (format.exponentBits - 1) := pow_lt_pow_right₀ one_lt_two wide
    _ = format.magnitude format.limit := format.magnitude_limit.symm

private theorem le_natAbs_keyOfRat (format : Format) {value : ℚ} {rank : Nat} (finite : rank < format.limit)
    (large : format.magnitude rank ≤ |value|) : rank ≤ (format.keyOfRat value).natAbs := by
  rw [natAbs_keyOfRat]
  exact le_min (format.le_rankOfRat_of_magnitude_le large) finite.le

/-- A value rounds to zero only if it is less than the least magnitude. -/
theorem compare_keyOfRat_zero (format : Format) {value : ℚ} (clear : value = 0 ∨ format.magnitude 1 ≤ |value|) :
    Ord.compare (format.keyOfRat value) 0 = Ord.compare value 0 := by
  rcases clear with rfl | large
  · rw [keyOfRat_zero, compare_eq_iff_eq.mpr rfl, compare_eq_iff_eq.mpr rfl]
  have some := format.le_natAbs_keyOfRat format.one_lt_limit large
  rcases lt_trichotomy value 0 with negative | rfl | positive
  · have order := format.keyOfRat_mono negative.le
    rw [keyOfRat_zero] at order
    rw [compare_lt_iff_lt.mpr negative, compare_lt_iff_lt]
    omega
  · simp [keyOfRat_zero] at some
  · have order := format.keyOfRat_mono positive.le
    rw [keyOfRat_zero] at order
    rw [compare_gt_iff_gt.mpr positive, compare_gt_iff_gt]
    omega

end Format

namespace Binary

open Format

variable {format : Format}

/-- Conversion keeps the sign of a value that is not too small for the other format, and that of infinity. -/
theorem compare_key_convert (target : Format) {value : Binary format} {key : Int} (found : value.key? = some key)
    (clear : key = 0 ∨ target.magnitude 1 ≤ format.magnitude key.natAbs) :
    ∃ converted, (value.convert : Binary target).key? = some converted ∧ Ord.compare converted 0 = Ord.compare key 0 := by
  cases value with
  | nan => cases found
  | infinity negative =>
    obtain rfl := Option.some.inj found
    have limit := format.limit_pos
    have targetLimit := target.limit_pos
    refine ⟨_, rfl, ?_⟩
    cases negative with
    | false =>
      rw [compare_gt_iff_gt.mpr (by simpa using targetLimit), compare_gt_iff_gt.mpr (by simpa using limit)]
    | true =>
      rw [compare_lt_iff_lt.mpr (by simpa using targetLimit), compare_lt_iff_lt.mpr (by simpa using limit)]
  | finite negative rank =>
    obtain ⟨_, same, exact⟩ := exists_key (show (finite negative rank).toRat? = some _ from rfl)
    obtain rfl := Option.some.inj (found.symm.trans same)
    refine ⟨_, key?_round negative _, ?_⟩
    rw [← exact, target.compare_keyOfRat_zero, ← format.valueOfKey_zero,
      compare_map_of_strictMono format.valueOfKey_strictMono]
    rw [abs_valueOfKey]
    exact clear.imp_left fun zero => by rw [zero, valueOfKey_zero]

private theorem compare_ofInt_zero {value : Binary format} {key : Int} (found : value.key? = some key) :
    value.compare (ofInt 0) = some (Ord.compare key 0) := by
  have zero : (ofInt 0 : Binary format).key? = some 0 := by
    rw [ofInt, key?_round, Int.cast_zero, keyOfRat_zero]
  exact compare_eq_some_iff.mpr ⟨key, 0, found, zero, rfl⟩

theorem subtract_of_toRat? {left right : Binary format} {leftExact rightExact : ℚ}
    (leftFinite : left.toRat? = some leftExact) (rightFinite : right.toRat? = some rightExact) :
    ∃ negativeZero, left.subtract right = round negativeZero (leftExact - rightExact) := by
  cases left with
  | nan | infinity => cases leftFinite
  | finite leftNegative leftRank =>
    cases right with
    | nan | infinity => cases rightFinite
    | finite rightNegative rightRank =>
      obtain rfl := Option.some.inj leftFinite
      obtain rfl := Option.some.inj rightFinite
      refine ⟨leftNegative && !rightNegative, ?_⟩
      rw [subtract, negate, add, sub_eq_add_neg]
      cases rightNegative <;> simp [signedMagnitude]

private theorem whole_of_toRat? {value : Binary format} {exact : ℚ} (finite : value.toRat? = some exact) :
    format.Whole exact := by
  cases value with
  | nan | infinity => cases finite
  | finite negative rank =>
    obtain rfl := Option.some.inj finite
    exact (format.whole_magnitude rank).signedMagnitude negative

theorem toRat?_ofRank (negative : Bool) {rank : Nat} (inside : rank < format.limit) :
    (ofRank negative rank : Binary format).toRat? = some (signedMagnitude format negative rank) := by
  rw [ofRank_of_lt negative inside, toRat?]

/-- The double of a long integer is an integer again. -/
theorem exists_toRat?_ofInt {value : Int} (small : value.natAbs ≤ 2 ^ 63) :
    ∃ exact, (ofInt value : Double).toRat? = some exact ∧ single.Whole exact := by
  have whole : single.Whole (double.magnitude (double.rankOfRat value)) := by
    by_cases zero : value = 0
    · rw [zero, Int.cast_zero, rankOfRat_zero, magnitude_zero]
      exact single.whole_zero
    · apply whole_single_of_one_le
      have held : ∃ rank, double.magnitude rank = 1 := by
        simpa using exists_magnitude_eq_of_le (show 1 ≤ 2 ^ 53 by norm_num)
      apply double.le_magnitude_rankOfRat held
      rw [← Int.cast_abs]
      exact_mod_cast Int.one_le_abs zero
  rw [ofInt, round]
  exact ⟨_, toRat?_ofRank _ (double.rankOfRat_intCast_lt_limit (by decide) small), whole.signedMagnitude _⟩

private theorem exists_toRat?_convert {value : Single} (finite : value.isFinite) :
    ∃ exact, (value.convert : Double).toRat? = some exact ∧ single.Whole exact := by
  cases value with
  | nan | infinity => cases finite
  | finite negative rank =>
    obtain ⟨wide, inside, exact⟩ := exists_magnitude_eq_single rank.isLt
    have whole : single.Whole (double.magnitude wide) := by
      rw [exact]
      exact single.whole_magnitude rank
    rw [convert_finite, ← exact, rankOfRat_magnitude]
    exact ⟨_, toRat?_ofRank _ inside, whole.signedMagnitude _⟩

end Binary

namespace Number

open Format

variable {left right : Number}

/-- A finite number is a finite double, and but for doubles proper a whole number of the units of single precision. -/
theorem exists_toRat?_toDouble {number : Number} (finite : number.isFinite) :
    ∃ exact, number.toDouble.toRat? = some exact ∧ (number.kind ≠ .double → single.Whole exact) := by
  have weaken {value : Double} (present : ∃ exact, value.toRat? = some exact ∧ single.Whole exact) :
      ∃ exact, value.toRat? = some exact ∧ (number.kind ≠ .double → single.Whole exact) := by
    obtain ⟨exact, found, whole⟩ := present
    exact ⟨exact, found, fun _ => whole⟩
  cases number with
  | int32 word =>
    have low := word.le_toInt
    have high := word.toInt_lt
    exact weaken (Binary.exists_toRat?_ofInt (by omega))
  | int64 word =>
    have low := word.le_toInt
    have high := word.toInt_lt
    exact weaken (Binary.exists_toRat?_ofInt (by omega))
  | float value => exact weaken (Binary.exists_toRat?_convert finite)
  | double value =>
    cases value with
    | nan | infinity => cases finite
    | finite negative rank => exact ⟨_, rfl, fun other => absurd rfl other⟩

private theorem subtract_of_floating (floating : left.kind.isFloating ∨ right.kind.isFloating) :
    (left.kind ≠ .double ∧ right.kind ≠ .double ∧
      left.subtract right = .float (left.toDouble.subtract right.toDouble).convert) ∨
    left.subtract right = .double (left.toDouble.subtract right.toDouble) := by
  cases left with
  | int32 l | int64 l =>
    cases right with
    | int32 r | int64 r => simp [kind, Kind.isFloating, Kind.isInteger] at floating
    | float r => exact Or.inl ⟨Kind.noConfusion, Kind.noConfusion, rfl⟩
    | double r => exact Or.inr rfl
  | float l =>
    cases right with
    | int32 r | int64 r | float r => exact Or.inl ⟨Kind.noConfusion, Kind.noConfusion, rfl⟩
    | double r => exact Or.inr rfl
  | double l =>
    cases right with
    | int32 r | int64 r | float r | double r => exact Or.inr rfl

/-- A double keeps its order against zero when it is rounded to single precision and compared as a double again. -/
theorem compare_float_zero {value : Double} {key : Int} (found : value.key? = some key)
    (clear : key = 0 ∨ Format.single.magnitude 1 ≤ Format.double.magnitude key.natAbs) :
    (float value.convert).compare (int32 0) = some (Ord.compare key 0) := by
  obtain ⟨narrow, narrowFound, narrowOrder⟩ := Binary.compare_key_convert Format.single found clear
  have wideClear : narrow = 0 ∨ Format.double.magnitude 1 ≤ Format.single.magnitude narrow.natAbs := by
    refine or_iff_not_imp_left.mpr fun some => ?_
    have least : 1 ≤ narrow.natAbs := Int.natAbs_pos.mpr some
    exact magnitude_one_double_le.trans (Format.single.magnitude_strictMono.monotone least)
  obtain ⟨wide, wideFound, wideOrder⟩ := Binary.compare_key_convert Format.double narrowFound wideClear
  rw [compare_of_floating (Or.inl rfl), ← narrowOrder, ← wideOrder]
  exact Binary.compare_ofInt_zero wideFound

/-- The rounded difference of whole multiples of a magnitude is at least that magnitude, if it is not zero. -/
theorem keyOfRat_sub_clear {l r : ℚ} (leftWhole : Format.single.Whole l) (rightWhole : Format.single.Whole r) :
    Format.double.keyOfRat (l - r) = 0 ∨
      Format.single.magnitude 1 ≤ Format.double.magnitude (Format.double.keyOfRat (l - r)).natAbs := by
  by_cases same : l - r = 0
  · exact Or.inl (by rw [same, keyOfRat_zero])
  · right
    obtain ⟨wide, inside, exact⟩ := exists_magnitude_eq_single Format.single.one_lt_limit
    have least := (leftWhole.sub rightWhole).magnitude_one_le same
    rw [← exact] at least ⊢
    exact Format.double.magnitude_strictMono.monotone (Format.double.le_natAbs_keyOfRat inside least)

/-- Two finite numbers, one of them floating, are ordered as their difference is against zero. Neither the
subtraction nor the rounding of a float turns a difference into a zero, and none changes its sign. -/
theorem compare_subtract (leftFinite : left.isFinite) (rightFinite : right.isFinite)
    (floating : left.kind.isFloating ∨ right.kind.isFloating) :
    ∃ order, left.compare right = some order ∧ (left.subtract right).compare (.int32 0) = some order := by
  obtain ⟨l, leftExact, leftWhole⟩ := exists_toRat?_toDouble leftFinite
  obtain ⟨r, rightExact, rightWhole⟩ := exists_toRat?_toDouble rightFinite
  obtain ⟨negativeZero, difference⟩ := Binary.subtract_of_toRat? leftExact rightExact
  have found : (left.toDouble.subtract right.toDouble).key? = some (Format.double.keyOfRat (l - r)) := by
    rw [difference, Binary.key?_round]
  have order : Ord.compare (Format.double.keyOfRat (l - r)) 0 = Ord.compare l r := by
    have whole := (Binary.whole_of_toRat? leftExact).sub (Binary.whole_of_toRat? rightExact)
    rw [Format.double.compare_keyOfRat_zero (or_iff_not_imp_left.mpr whole.magnitude_one_le), ← cmp_eq_compare,
      cmp_sub_zero, cmp_eq_compare]
  refine ⟨Ord.compare l r, ?_, ?_⟩
  · rw [compare_of_floating (floating.imp isFloating_iff.mp isFloating_iff.mp)]
    exact Binary.compare_of_toRat? leftExact rightExact
  · rw [← order]
    rcases subtract_of_floating floating with ⟨leftNarrow, rightNarrow, result⟩ | result
    · rw [result]
      exact compare_float_zero found (keyOfRat_sub_clear (leftWhole leftNarrow) (rightWhole rightNarrow))
    · rw [result, compare_of_floating (Or.inl rfl)]
      exact Binary.compare_ofInt_zero found

/-- The least normal float and its successor, whose difference is the least magnitude. -/
theorem compare_subtract_leastNormal :
    (float (.ofBits 0x00800000)).isFinite ∧ (float (.ofBits 0x00800001)).isFinite ∧
    (float (.ofBits 0x00800000)).compare (float (.ofBits 0x00800001)) = some .lt ∧
    ((float (.ofBits 0x00800000)).subtract (float (.ofBits 0x00800001))).compare (.int32 0) = some .lt := by
  have leftFinite : (float (.ofBits 0x00800000)).isFinite := by decide +kernel
  have rightFinite : (float (.ofBits 0x00800001)).isFinite := by decide +kernel
  have less : (float (.ofBits 0x00800000)).compare (float (.ofBits 0x00800001)) = some .lt := by decide +kernel
  obtain ⟨order, compared, subtracted⟩ := compare_subtract leftFinite rightFinite (Or.inl rfl)
  obtain rfl := Option.some.inj (less.symm.trans compared)
  exact ⟨leftFinite, rightFinite, less, subtracted⟩

end Number

end ScriptNumbers
