import Mathlib.Data.Int.ConditionallyCompleteOrder
import Mathlib.Order.Compare
import Mathlib.Order.Monotone.Odd
import ScriptNumbers.Proofs.DecimalRounding

/-! The keys of floating values as one order. Keys and exact values determine each other among finite values, and
rounding is monotone from exact values to keys. Both maps are odd, so the negative half repeats the positive one. -/

namespace ScriptNumbers

theorem compare_map_of_strictMono {α β : Type} [LinearOrder α] [LinearOrder β] {f : α → β} (mono : StrictMono f)
    (left right : α) : compare (f left) (f right) = compare left right := by
  rw [← cmp_eq_compare, ← cmp_eq_compare]
  exact mono.cmp_map_eq left right

namespace Format

variable (format : Format)

/-- The exact value that belongs to a key. -/
def valueOfKey (key : Int) : ℚ := if key < 0 then -format.magnitude key.natAbs else format.magnitude key.natAbs

theorem valueOfKey_natCast (rank : Nat) : format.valueOfKey rank = format.magnitude rank := by
  simp [valueOfKey]

theorem valueOfKey_zero : format.valueOfKey 0 = 0 := by
  simp [valueOfKey, magnitude_zero]

theorem abs_valueOfKey (key : Int) : |format.valueOfKey key| = format.magnitude key.natAbs := by
  have nonneg := format.magnitude_nonneg key.natAbs
  unfold valueOfKey
  split
  · rw [abs_neg, abs_of_nonneg nonneg]
  · exact abs_of_nonneg nonneg

theorem valueOfKey_neg (key : Int) : format.valueOfKey (-key) = -format.valueOfKey key := by
  rcases lt_trichotomy key 0 with negative | rfl | positive
  · simp [valueOfKey, negative, negative.le]
  · simp [valueOfKey, magnitude_zero]
  · simp [valueOfKey, positive, positive.le]

theorem valueOfKey_strictMono : StrictMono format.valueOfKey := by
  apply strictMono_of_odd_strictMonoOn_nonneg format.valueOfKey_neg
  intro lower lowerNonneg upper upperNonneg order
  obtain ⟨lower, rfl⟩ := Int.eq_ofNat_of_zero_le lowerNonneg
  obtain ⟨upper, rfl⟩ := Int.eq_ofNat_of_zero_le upperNonneg
  rw [valueOfKey_natCast, valueOfKey_natCast]
  exact format.magnitude_strictMono (Int.ofNat_lt.mp order)

/-- The key of an exact value once it is rounded. Beyond the last magnitude it is that of infinity. -/
def keyOfRat (value : ℚ) : Int :=
  let rank : Int := min (format.rankOfRat value) format.limit
  if value < 0 then -rank else rank

theorem keyOfRat_of_nonneg {value : ℚ} (nonneg : 0 ≤ value) :
    format.keyOfRat value = min (format.rankOfRat value : Int) format.limit :=
  if_neg nonneg.not_gt

theorem keyOfRat_of_finite {value : ℚ} (nonneg : 0 ≤ value) (finite : format.rankOfRat value < format.limit) :
    format.keyOfRat value = format.rankOfRat value := by
  have inside : (format.rankOfRat value : Int) ≤ format.limit := Int.ofNat_le.mpr finite.le
  rw [format.keyOfRat_of_nonneg nonneg, min_eq_left inside]

theorem natAbs_keyOfRat (value : ℚ) : (format.keyOfRat value).natAbs = min (format.rankOfRat value) format.limit := by
  unfold keyOfRat
  dsimp only
  split <;> omega

theorem keyOfRat_zero : format.keyOfRat 0 = 0 := by
  simp [keyOfRat, rankOfRat_zero]

theorem keyOfRat_neg (value : ℚ) : format.keyOfRat (-value) = -format.keyOfRat value := by
  rcases lt_trichotomy value 0 with negative | rfl | positive
  · simp [keyOfRat, rankOfRat_neg, negative, negative.le]
  · simp [keyOfRat, rankOfRat_zero]
  · simp [keyOfRat, rankOfRat_neg, positive, positive.le]

theorem keyOfRat_mono : Monotone format.keyOfRat := by
  apply monotone_of_odd_of_monotoneOn_nonneg format.keyOfRat_neg
  intro lower lowerNonneg upper upperNonneg order
  have ranks := format.rankOfRat_mono_of_nonneg lowerNonneg order
  rw [format.keyOfRat_of_nonneg lowerNonneg, format.keyOfRat_of_nonneg upperNonneg]
  exact min_le_min_right _ (Int.ofNat_le.mpr ranks)

/-- A value that the format holds keeps its place. -/
theorem keyOfRat_valueOfKey {key : Int} (finite : key.natAbs < format.limit) :
    format.keyOfRat (format.valueOfKey key) = key := by
  have exact (rank : Nat) (inside : rank < format.limit) : format.keyOfRat (format.valueOfKey rank) = rank := by
    rw [valueOfKey_natCast, format.keyOfRat_of_nonneg (format.magnitude_nonneg rank), rankOfRat_magnitude,
      min_eq_left (Int.ofNat_le.mpr inside.le)]
  obtain ⟨rank, rfl | rfl⟩ := Int.eq_nat_or_neg key
  · exact exact rank (by simpa using finite)
  · rw [valueOfKey_neg, keyOfRat_neg, exact rank (by simpa using finite)]

end Format

namespace Binary

variable {format : Format}

theorem key?_ofRank (negative : Bool) (rank : Nat) :
    (ofRank negative rank : Binary format).key? =
      some (if negative then -min (rank : Int) format.limit else min (rank : Int) format.limit) := by
  unfold ofRank
  split
  next inside => simp [key?, min_eq_left (Int.ofNat_le.mpr inside.le)]
  next beyond => simp [key?, min_eq_right (Int.ofNat_le.mpr (Nat.not_lt.mp beyond))]

/-- The sign that a rounded zero gets does not show in its key. -/
theorem key?_round (negativeZero : Bool) (value : ℚ) :
    (round negativeZero value : Binary format).key? = some (format.keyOfRat value) := by
  rw [round, key?_ofRank]
  by_cases zero : value = 0
  · simp [zero, Format.keyOfRat, Format.rankOfRat_zero]
  · simp [zero, Format.keyOfRat]

theorem exists_key {value : Binary format} {exact : ℚ} (finite : value.toRat? = some exact) :
    ∃ key, value.key? = some key ∧ format.valueOfKey key = exact := by
  cases value with
  | nan => cases finite
  | infinity negative => cases finite
  | finite negative rank =>
    obtain rfl := Option.some.inj finite
    refine ⟨_, rfl, ?_⟩
    cases negative with
    | false => exact format.valueOfKey_natCast rank
    | true => exact (format.valueOfKey_neg rank).trans (congrArg Neg.neg (format.valueOfKey_natCast rank))

/-- A key that is not that of an infinity tells the exact value. -/
theorem toRat?_of_key? {value : Binary format} {key : Int} (found : value.key? = some key)
    (finite : key.natAbs < format.limit) : value.toRat? = some (format.valueOfKey key) := by
  cases value with
  | nan => cases found
  | infinity negative =>
    obtain rfl := Option.some.inj found
    cases negative <;> simp at finite
  | finite negative rank =>
    obtain ⟨_, same, exact⟩ := exists_key (show (Binary.finite negative rank).toRat? = some _ from rfl)
    obtain rfl := Option.some.inj (found.symm.trans same)
    exact congrArg some exact.symm

/-- An integer that is the value of a key is kept exactly. -/
theorem toRat?_ofInt_of_key {value key : Int} (inside : key.natAbs < format.limit) (exact : format.valueOfKey key = value) :
    (ofInt value : Binary format).toRat? = some (value : ℚ) := by
  have found : (ofInt value : Binary format).key? = some key := by
    rw [ofInt, key?_round, ← exact, format.keyOfRat_valueOfKey inside]
  rw [toRat?_of_key? found inside, exact]

/-- Finite values are compared as the rationals that they are. -/
theorem compare_of_toRat? {left right : Binary format} {leftExact rightExact : ℚ}
    (leftFinite : left.toRat? = some leftExact) (rightFinite : right.toRat? = some rightExact) :
    left.compare right = some (Ord.compare leftExact rightExact) := by
  obtain ⟨leftKey, leftSome, rfl⟩ := exists_key leftFinite
  obtain ⟨rightKey, rightSome, rfl⟩ := exists_key rightFinite
  simp only [Binary.compare, leftSome, rightSome, compare_map_of_strictMono format.valueOfKey_strictMono]

end Binary

end ScriptNumbers
