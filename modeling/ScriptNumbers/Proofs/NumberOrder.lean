import ScriptNumbers.Number.Order
import ScriptNumbers.Proofs.KeyOrder

/-! The order of numbers. Integers are compared exactly and mixed kinds as doubles, which is no single measure. It is
one lexicographic order all the same: doubles decide first, and among integers with equal doubles the exact values. -/

namespace ScriptNumbers

namespace Format

/-- Numbers of the other kinds stay well below the range of doubles. -/
theorem lt_limit_of_magnitude_le {rank : Nat} (small : double.magnitude rank ≤ 2 ^ 128) : rank < double.limit := by
  apply double.magnitude_strictMono.lt_iff_lt.mp
  have limit : double.magnitude double.limit = 2 ^ 1024 := double.magnitude_limit
  rw [limit]
  exact small.trans_lt (pow_lt_pow_right₀ (by norm_num) (by norm_num))

theorem exists_magnitude_eq_of_le {value : Nat} (fits : value ≤ 2 ^ 53) : ∃ rank, double.magnitude rank = value := by
  have size : 2 * double.binadeSize = 2 ^ 53 := rfl
  rcases fits.lt_or_eq with less | rfl
  · exact double.exists_magnitude_eq_natCast (less.trans_eq size.symm)
  · obtain ⟨rank, exact⟩ := double.exists_magnitude_eq (show 1 < 2 * double.binadeSize by decide)
      (show -(double.unitBits : Int) ≤ 53 by omega)
    exact ⟨rank, exact.trans (by norm_num)⟩

/-- Up to `2 ^ 53` the double of an integer is that integer. -/
theorem exists_key_eq_intCast {value : Int} (fits : value.natAbs ≤ 2 ^ 53) :
    ∃ key : Int, key.natAbs < double.limit ∧ double.valueOfKey key = value := by
  obtain ⟨rank, exact⟩ := exists_magnitude_eq_of_le fits
  have finite : rank < double.limit := by
    apply lt_limit_of_magnitude_le
    rw [exact]
    exact_mod_cast fits.trans (by decide)
  rcases Int.natAbs_eq value with positive | negative
  · refine ⟨rank, finite, ?_⟩
    rw [positive, double.valueOfKey_natCast, exact]
    rfl
  · refine ⟨-rank, by simpa using finite, ?_⟩
    rw [double.valueOfKey_neg, double.valueOfKey_natCast, exact, negative]
    simp

private theorem keyOfRat_lt_succ {value : Int} (low : -(2 ^ 53) ≤ value) (high : value < 2 ^ 53) :
    double.keyOfRat value < double.keyOfRat (value + 1 : Int) := by
  obtain ⟨lower, lowerFinite, lowerExact⟩ := exists_key_eq_intCast (show value.natAbs ≤ 2 ^ 53 by omega)
  obtain ⟨upper, upperFinite, upperExact⟩ := exists_key_eq_intCast (show (value + 1).natAbs ≤ 2 ^ 53 by omega)
  rw [← lowerExact, ← upperExact, double.keyOfRat_valueOfKey lowerFinite, double.keyOfRat_valueOfKey upperFinite]
  apply double.valueOfKey_strictMono.lt_iff_lt.mp
  rw [lowerExact, upperExact]
  exact_mod_cast Int.lt_succ value

private theorem keyOfRat_lt_of_small {lower upper : Int} (order : lower < upper)
    (small : lower.natAbs < 2 ^ 53 ∨ upper.natAbs < 2 ^ 53) : double.keyOfRat lower < double.keyOfRat upper := by
  have mono {left right : Int} (order : left ≤ right) : double.keyOfRat left ≤ double.keyOfRat right :=
    double.keyOfRat_mono (by exact_mod_cast order)
  rcases small with small | small
  · have step : double.keyOfRat lower < double.keyOfRat (lower + 1 : Int) := keyOfRat_lt_succ (by omega) (by omega)
    exact step.trans_le (mono order)
  · have step : double.keyOfRat (upper - 1 : Int) < double.keyOfRat (upper - 1 + 1 : Int) :=
      keyOfRat_lt_succ (by omega) (by omega)
    rw [Int.sub_add_cancel] at step
    exact (mono (Int.le_sub_one_of_lt order)).trans_lt step

/-- Only beyond `2 ^ 53` do different integers become the same double. -/
theorem large_of_keyOfRat_eq {left right : Int} (different : left ≠ right)
    (same : double.keyOfRat left = double.keyOfRat right) : 2 ^ 53 ≤ left.natAbs ∧ 2 ^ 53 ≤ right.natAbs := by
  by_contra small
  have small : left.natAbs < 2 ^ 53 ∨ right.natAbs < 2 ^ 53 := by omega
  rcases Int.lt_or_gt_of_ne different with order | order
  · exact (keyOfRat_lt_of_small order small).ne same
  · exact (keyOfRat_lt_of_small order small.symm).ne' same

end Format

namespace Binary

variable {format : Format} {left right : Binary format}

theorem compare_eq_some_iff {order : Ordering} :
    left.compare right = some order ↔
      ∃ l r, left.key? = some l ∧ right.key? = some r ∧ Ord.compare l r = order := by
  unfold Binary.compare
  cases left.key? <;> cases right.key? <;> simp

end Binary

namespace Number

variable {left middle right : Number} {l r : Int}

theorem isFloating_iff {number : Number} : number.kind.isFloating ↔ number.toInt? = none := by
  cases number <;> simp [kind, Kind.isFloating, Kind.isInteger, toInt?]

def doubleKey? (number : Number) : Option Int := number.toDouble.key?

theorem doubleKey?_of_toInt? {number : Number} {value : Int} (exact : number.toInt? = some value) :
    number.doubleKey? = some (Format.double.keyOfRat value) := by
  cases number with
  | int32 word | int64 word =>
    obtain rfl := Option.some.inj exact
    exact Binary.key?_round false _
  | float value => cases exact
  | double value => cases exact

theorem compare_of_integers (leftExact : left.toInt? = some l) (rightExact : right.toInt? = some r) :
    left.compare right = some (Ord.compare l r) := by
  simp only [Number.compare, leftExact, rightExact]

theorem compare_of_floating (floating : left.toInt? = none ∨ right.toInt? = none) :
    left.compare right = left.toDouble.compare right.toDouble := by
  unfold Number.compare
  rcases floating with floating | floating
  · simp only [floating]
  · cases left.toInt? <;> simp only [floating]

/-- The order of doubles, refined by the exact order of integers. -/
def Precedes (left right : Number) : Prop :=
  ∃ leftKey rightKey, left.doubleKey? = some leftKey ∧ right.doubleKey? = some rightKey ∧
    (leftKey < rightKey ∨
      leftKey = rightKey ∧ ∃ l r, left.toInt? = some l ∧ right.toInt? = some r ∧ l < r)

/-- Equal doubles, which between integers have to be exact. -/
def Meets (left right : Number) : Prop :=
  ∃ key, left.doubleKey? = some key ∧ right.doubleKey? = some key ∧
    ∀ l r, left.toInt? = some l → right.toInt? = some r → l = r

/-- Rounding is monotone, so integers whose doubles differ are in the order of their doubles. -/
theorem precedes_of_integers (leftExact : left.toInt? = some l) (rightExact : right.toInt? = some r) :
    left.Precedes right ↔ l < r := by
  simp only [Precedes, doubleKey?_of_toInt? leftExact, doubleKey?_of_toInt? rightExact, leftExact, rightExact,
    Option.some.injEq]
  constructor
  · rintro ⟨_, _, rfl, rfl, less | ⟨-, _, _, rfl, rfl, order⟩⟩
    · by_contra reversed
      exact less.not_ge (Format.double.keyOfRat_mono (by exact_mod_cast not_lt.mp reversed))
    · exact order
  · intro order
    have keys : Format.double.keyOfRat l ≤ Format.double.keyOfRat r :=
      Format.double.keyOfRat_mono (by exact_mod_cast order.le)
    exact ⟨_, _, rfl, rfl, keys.lt_or_eq.imp_right fun same => ⟨same, l, r, rfl, rfl, order⟩⟩

private theorem meets_of_integers (leftExact : left.toInt? = some l) (rightExact : right.toInt? = some r) :
    left.Meets right ↔ l = r := by
  simp only [Meets, doubleKey?_of_toInt? leftExact, doubleKey?_of_toInt? rightExact, leftExact, rightExact,
    Option.some.injEq]
  constructor
  · rintro ⟨-, -, -, exact⟩
    exact exact l r rfl rfl
  · rintro rfl
    exact ⟨_, rfl, rfl, fun _ _ left right => left.symm.trans right⟩

private theorem precedes_of_floating (floating : left.toInt? = none ∨ right.toInt? = none) :
    left.Precedes right ↔ left.compare right = some .lt := by
  rw [compare_of_floating floating, Binary.compare_eq_some_iff]
  simp only [compare_lt_iff_lt]
  constructor
  · rintro ⟨leftKey, rightKey, leftSome, rightSome, less | ⟨-, l, r, leftExact, rightExact, -⟩⟩
    · exact ⟨leftKey, rightKey, leftSome, rightSome, less⟩
    · simp [leftExact, rightExact] at floating
  · rintro ⟨leftKey, rightKey, leftSome, rightSome, less⟩
    exact ⟨leftKey, rightKey, leftSome, rightSome, Or.inl less⟩

private theorem meets_of_floating (floating : left.toInt? = none ∨ right.toInt? = none) :
    left.Meets right ↔ left.compare right = some .eq := by
  rw [compare_of_floating floating, Binary.compare_eq_some_iff]
  simp only [compare_eq_iff_eq]
  constructor
  · rintro ⟨key, leftSome, rightSome, -⟩
    exact ⟨key, key, leftSome, rightSome, rfl⟩
  · rintro ⟨key, _, leftSome, rightSome, rfl⟩
    refine ⟨key, leftSome, rightSome, ?_⟩
    intro l r leftExact rightExact
    simp [leftExact, rightExact] at floating

private theorem lessThan_iff : left.lessThan right ↔ left.Precedes right := by
  rw [lessThan, beq_iff_eq]
  cases leftExact : left.toInt? with
  | none => exact (precedes_of_floating (Or.inl leftExact)).symm
  | some l =>
    cases rightExact : right.toInt? with
    | none => exact (precedes_of_floating (Or.inr rightExact)).symm
    | some r =>
      rw [compare_of_integers leftExact rightExact, precedes_of_integers leftExact rightExact, Option.some.injEq]
      exact compare_lt_iff_lt

private theorem equalTo_iff : left.equalTo right ↔ left.Meets right := by
  rw [equalTo, beq_iff_eq]
  cases leftExact : left.toInt? with
  | none => exact (meets_of_floating (Or.inl leftExact)).symm
  | some l =>
    cases rightExact : right.toInt? with
    | none => exact (meets_of_floating (Or.inr rightExact)).symm
    | some r =>
      rw [compare_of_integers leftExact rightExact, meets_of_integers leftExact rightExact, Option.some.injEq]
      exact compare_eq_iff_eq

private theorem Precedes.irrefl (number : Number) : ¬number.Precedes number := by
  rintro ⟨_, _, leftSome, rightSome, less | ⟨-, _, _, leftExact, rightExact, order⟩⟩
  · exact less.ne (Option.some.inj (leftSome.symm.trans rightSome))
  · exact order.ne (Option.some.inj (leftExact.symm.trans rightExact))

private theorem Precedes.trans (first : left.Precedes middle) (second : middle.Precedes right) :
    left.Precedes right := by
  obtain ⟨leftKey, middleKey, leftSome, middleSome, first⟩ := first
  obtain ⟨_, rightKey, same, rightSome, second⟩ := second
  obtain rfl := Option.some.inj (middleSome.symm.trans same)
  refine ⟨leftKey, rightKey, leftSome, rightSome, ?_⟩
  rcases first with first | ⟨rfl, l, m, leftExact, middleExact, first⟩
  · rcases second with second | ⟨rfl, -⟩
    · exact Or.inl (first.trans second)
    · exact Or.inl first
  · rcases second with second | ⟨rfl, _, r, same, rightExact, second⟩
    · exact Or.inl second
    · obtain rfl := Option.some.inj (middleExact.symm.trans same)
      exact Or.inr ⟨rfl, l, r, leftExact, rightExact, first.trans second⟩

/-- A strict partial order on the numbers of all kinds. A value that is not a number is below and above none. -/
theorem lessThan_strictOrder (left middle right : Number) :
    ¬left.lessThan left ∧ (left.lessThan right → ¬right.lessThan left) ∧
      (left.lessThan middle → middle.lessThan right → left.lessThan right) := by
  simp only [lessThan_iff]
  exact ⟨Precedes.irrefl left, fun less greater => Precedes.irrefl left (less.trans greater), Precedes.trans⟩

/-- Two long integers that doubles do not hold, and a float between them. -/
theorem lessThan_longAroundFloat : (int64 9007199254740993).lessThan (float (.ofInt 9007200328482816)) ∧
    (float (.ofInt 9007200328482816)).lessThan (int64 9007200328482819) ∧
    (int64 9007199254740993).lessThan (int64 9007200328482819) := by
  have below : (int64 9007199254740993).lessThan (float (.ofInt 9007200328482816)) := by decide +kernel
  have above : (float (.ofInt 9007200328482816)).lessThan (int64 9007200328482819) := by decide +kernel
  exact ⟨below, above, (lessThan_strictOrder _ _ _).2.2 below above⟩

private theorem Meets.trans_or (first : left.Meets middle) (second : middle.Meets right) :
    left.Meets right ∨ middle.toInt? = none ∧ ∃ l r, left.toInt? = some l ∧ right.toInt? = some r ∧ l ≠ r ∧
      2 ^ 53 ≤ l.natAbs ∧ 2 ^ 53 ≤ r.natAbs := by
  obtain ⟨key, leftKey, middleKey, first⟩ := first
  obtain ⟨_, same, rightKey, second⟩ := second
  obtain rfl := Option.some.inj (middleKey.symm.trans same)
  by_cases exact : ∀ l r, left.toInt? = some l → right.toInt? = some r → l = r
  · exact Or.inl ⟨key, leftKey, rightKey, exact⟩
  · simp only [not_forall] at exact
    obtain ⟨l, r, leftExact, rightExact, different⟩ := exact
    refine Or.inr ⟨?_, l, r, leftExact, rightExact, different, ?_⟩
    · refine Option.eq_none_iff_forall_ne_some.mpr fun m middleExact => different ?_
      exact (first l m leftExact middleExact).trans (second m r middleExact rightExact)
    · rw [doubleKey?_of_toInt? leftExact, ← rightKey, doubleKey?_of_toInt? rightExact, Option.some.injEq] at leftKey
      exact Format.large_of_keyOfRat_eq different leftKey

private theorem eq_int64_of_large {number : Number} {value : Int} (exact : number.toInt? = some value)
    (large : 2 ^ 53 ≤ value.natAbs) : ∃ word : Int64, number = .int64 word ∧ word.toInt = value := by
  cases number with
  | int32 word =>
    obtain rfl := Option.some.inj exact
    have low := word.le_toInt
    have high := word.toInt_lt
    omega
  | int64 word => exact ⟨word, rfl, Option.some.inj exact⟩
  | float value | double value => cases exact

/-- Equality is transitive but for long integers that only a floating value between them identifies. -/
theorem equalTo_trans_or (first : left.equalTo middle) (second : middle.equalTo right) :
    left.equalTo right ∨ middle.kind.isFloating ∧ ∃ l r : Int64, left = .int64 l ∧ right = .int64 r ∧ l ≠ r ∧
      2 ^ 53 ≤ l.toInt.natAbs ∧ 2 ^ 53 ≤ r.toInt.natAbs := by
  rw [equalTo_iff] at first second
  rcases first.trans_or second with meets | ⟨floating, l, r, leftExact, rightExact, different, leftLarge, rightLarge⟩
  · exact Or.inl (equalTo_iff.mpr meets)
  · obtain ⟨leftWord, rfl, rfl⟩ := eq_int64_of_large leftExact leftLarge
    obtain ⟨rightWord, rfl, rfl⟩ := eq_int64_of_large rightExact rightLarge
    refine Or.inr ⟨isFloating_iff.mpr floating, leftWord, rightWord, rfl, rfl, ?_, leftLarge, rightLarge⟩
    rintro rfl
    exact different rfl

/-- Two neighbours at the bound are both equal to the same double. -/
theorem equalTo_trans_or_neighbours :
    (int64 9007199254740992).equalTo (double (.ofInt 9007199254740992)) ∧
    (double (.ofInt 9007199254740992)).equalTo (int64 9007199254740993) ∧
    ¬(int64 9007199254740992).equalTo (int64 9007199254740993) ∧
    ∃ l r : Int64, int64 9007199254740992 = int64 l ∧ int64 9007199254740993 = int64 r ∧ l ≠ r ∧
      2 ^ 53 ≤ l.toInt.natAbs ∧ 2 ^ 53 ≤ r.toInt.natAbs := by
  have first : (int64 9007199254740992).equalTo (double (.ofInt 9007199254740992)) := by decide +kernel
  have second : (double (.ofInt 9007199254740992)).equalTo (int64 9007199254740993) := by decide +kernel
  have different : ¬(int64 9007199254740992).equalTo (int64 9007199254740993) := by decide
  exact ⟨first, second, different, ((equalTo_trans_or first second).resolve_left different).2⟩

end Number

end ScriptNumbers
