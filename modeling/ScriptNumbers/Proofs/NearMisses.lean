import Mathlib.Algebra.Order.Field.Rat
import Mathlib.Tactic.FieldSimp
import Mathlib.Tactic.LinearCombination
import Mathlib.Tactic.Linarith
import Mathlib.Tactic.Positivity
import Mathlib.Tactic.Ring
import ScriptNumbers.Decimal.Basic

/-! How close a decimal can come to a short binary fraction without being equal to it. For a fixed power of ten
the quotients of significands that come close to one target are few, since fractions that lie between neighbours
have large denominators. -/

namespace ScriptNumbers.Proofs.NearMisses

/-- A fraction, or infinity if the denominator is zero. -/
structure Fraction where
  num : Nat
  den : Nat

namespace Fraction

/-- So many steps from a fraction to another one, each to the mediant of the two. -/
def towards (start goal : Fraction) (steps : Nat) : Fraction :=
  ⟨start.num + steps * goal.num, start.den + steps * goal.den⟩

/-- The fraction is smaller than the target by more than nine parts in `2 ^ 55` of its own size. -/
def FarBelow (target fraction : Fraction) : Prop :=
  (2 ^ 55 + 9) * (fraction.num * target.den) < 2 ^ 55 * (fraction.den * target.num)

def FarAbove (target fraction : Fraction) : Prop :=
  2 ^ 55 * (fraction.den * target.num) < (2 ^ 55 - 9) * (fraction.num * target.den)

def Close (target fraction : Fraction) : Prop := ¬FarBelow target fraction ∧ ¬FarAbove target fraction

/-- The left fraction is smaller, and no fraction between the two has a smaller denominator than their mediant. -/
def Adjacent (left right : Fraction) : Prop := right.num * left.den = left.num * right.den + 1

instance (target fraction : Fraction) : Decidable (FarBelow target fraction) := Nat.decLt _ _

instance (target fraction : Fraction) : Decidable (FarAbove target fraction) := Nat.decLt _ _

instance (left right : Fraction) : Decidable (Adjacent left right) := Nat.decEq _ _

variable {target left right fraction : Fraction}

private theorem Adjacent.add_le_den (adjacent : Adjacent left right)
    (above : fraction.den * left.num < fraction.num * left.den)
    (below : fraction.num * right.den < fraction.den * right.num) :
    left.den + right.den ≤ fraction.den := by
  obtain ⟨first, fromLeft⟩ := Nat.exists_eq_add_of_lt above
  obtain ⟨second, toRight⟩ := Nat.exists_eq_add_of_lt below
  have combined : fraction.den = left.den * (second + 1) + right.den * (first + 1) := by
    unfold Adjacent at adjacent
    zify at adjacent fromLeft toRight ⊢
    linear_combination left.den * toRight + right.den * fromLeft - fraction.den * adjacent
  rw [combined]
  exact Nat.add_le_add (Nat.le_mul_of_pos_right _ second.succ_pos) (Nat.le_mul_of_pos_right _ first.succ_pos)

private theorem FarBelow.mono (far : FarBelow target left) (order : fraction.num * left.den ≤ fraction.den * left.num)
    (positive : 0 < fraction.den) : FarBelow target fraction := by
  unfold FarBelow at far ⊢
  refine Nat.lt_of_mul_lt_mul_left (a := left.den) ?_
  calc left.den * ((2 ^ 55 + 9) * (fraction.num * target.den))
      = (2 ^ 55 + 9) * target.den * (fraction.num * left.den) := by ring
    _ ≤ (2 ^ 55 + 9) * target.den * (fraction.den * left.num) := Nat.mul_le_mul_left _ order
    _ = fraction.den * ((2 ^ 55 + 9) * (left.num * target.den)) := by ring
    _ < fraction.den * (2 ^ 55 * (left.den * target.num)) := Nat.mul_lt_mul_of_pos_left far positive
    _ = left.den * (2 ^ 55 * (fraction.den * target.num)) := by ring

private theorem FarAbove.mono (far : FarAbove target right)
    (order : fraction.den * right.num ≤ fraction.num * right.den) (positive : 0 < fraction.den) :
    FarAbove target fraction := by
  unfold FarAbove at far ⊢
  refine Nat.lt_of_mul_lt_mul_left (a := right.den) ?_
  calc right.den * (2 ^ 55 * (fraction.den * target.num))
      = fraction.den * (2 ^ 55 * (right.den * target.num)) := by ring
    _ < fraction.den * ((2 ^ 55 - 9) * (right.num * target.den)) := Nat.mul_lt_mul_of_pos_left far positive
    _ = (2 ^ 55 - 9) * target.den * (fraction.den * right.num) := by ring
    _ ≤ (2 ^ 55 - 9) * target.den * (fraction.num * right.den) := Nat.mul_le_mul_left _ order
    _ = right.den * ((2 ^ 55 - 9) * (fraction.num * target.den)) := by ring

end Fraction

structure Enclosure where
  lower : Fraction
  middle : Fraction
  upper : Fraction

namespace Enclosure

open Fraction

/-- Both neighbours are far from the target, and whatever lies strictly between one of them and the middle has a
denominator of at least `bound`. -/
structure Isolates (target : Fraction) (bound : Nat) (enclosure : Enclosure) : Prop where
  below : FarBelow target enclosure.lower
  above : FarAbove target enclosure.upper
  lower : Adjacent enclosure.lower enclosure.middle
  upper : Adjacent enclosure.middle enclosure.upper
  left : bound ≤ enclosure.lower.den + enclosure.middle.den
  right : bound ≤ enclosure.middle.den + enclosure.upper.den

instance (target : Fraction) (bound : Nat) (enclosure : Enclosure) : Decidable (enclosure.Isolates target bound) :=
  decidable_of_iff (FarBelow target enclosure.lower ∧ FarAbove target enclosure.upper ∧
      Adjacent enclosure.lower enclosure.middle ∧ Adjacent enclosure.middle enclosure.upper ∧
      bound ≤ enclosure.lower.den + enclosure.middle.den ∧ bound ≤ enclosure.middle.den + enclosure.upper.den)
    ⟨fun ⟨below, above, lower, upper, left, right⟩ => ⟨below, above, lower, upper, left, right⟩,
      fun ⟨below, above, lower, upper, left, right⟩ => ⟨below, above, lower, upper, left, right⟩⟩

variable {target : Fraction} {bound : Nat} {enclosure : Enclosure} {fraction : Fraction}

/-- A short fraction that is close to the target is the middle one. -/
theorem Isolates.eq_middle (isolates : enclosure.Isolates target bound) (close : Close target fraction)
    (positive : 0 < fraction.den) (short : fraction.den < bound) :
    fraction.num * enclosure.middle.den = fraction.den * enclosure.middle.num := by
  rcases Nat.lt_trichotomy (fraction.num * enclosure.middle.den) (fraction.den * enclosure.middle.num) with
    smaller | same | larger
  · have above : fraction.den * enclosure.lower.num < fraction.num * enclosure.lower.den :=
      Nat.lt_of_not_le fun order => close.1 (isolates.below.mono order positive)
    have long := isolates.lower.add_le_den above smaller
    exact absurd (isolates.left.trans long) (by omega)
  · exact same
  · have below : fraction.num * enclosure.upper.den < fraction.den * enclosure.upper.num :=
      Nat.lt_of_not_le fun order => close.2 (isolates.above.mono order positive)
    have long := isolates.upper.add_le_den larger below
    exact absurd (isolates.right.trans long) (by omega)

/-- The middle fraction is in lowest terms, so what is equal to it is a multiple. -/
theorem Isolates.exists_multiple (isolates : enclosure.Isolates target bound) (positive : 0 < fraction.den)
    (same : fraction.num * enclosure.middle.den = fraction.den * enclosure.middle.num) :
    ∃ times, fraction.num = times * enclosure.middle.num ∧ fraction.den = times * enclosure.middle.den := by
  have adjacent := isolates.lower
  unfold Adjacent at adjacent
  have order : fraction.den * enclosure.lower.num ≤ fraction.num * enclosure.lower.den := by
    by_contra less
    have scaled := Nat.mul_le_mul_right enclosure.middle.den (Nat.lt_of_not_le less)
    have cleared : fraction.num * enclosure.lower.den * enclosure.middle.den =
        fraction.den * (enclosure.lower.num * enclosure.middle.den + 1) := by
      rw [← adjacent, Nat.mul_right_comm, same]
      ring
    linarith
  obtain ⟨times, difference⟩ := Nat.exists_eq_add_of_le order
  refine ⟨times, ?_, ?_⟩
  · zify at adjacent same difference ⊢
    linear_combination enclosure.middle.num * difference - fraction.num * adjacent - enclosure.lower.num * same
  · zify at adjacent same difference ⊢
    linear_combination enclosure.middle.den * difference - fraction.den * adjacent - enclosure.lower.den * same

end Enclosure

open Fraction

/-- Narrows an interval of neighbours at their mediant, until that is close to the target or long. -/
def descend (target : Fraction) (bound : Nat) : Nat → Fraction → Fraction → Fraction × Fraction
  | 0, lower, upper => (lower, upper)
  | steps + 1, lower, upper =>
    let middle := lower.towards upper 1
    if bound ≤ middle.den then (lower, upper)
    else if FarBelow target middle then descend target bound steps middle upper
    else if FarAbove target middle then descend target bound steps lower middle
    else (lower, upper)

/-- The neighbours of the last mediant, brought as near to it as the bound asks for. -/
def enclose (target : Fraction) (bound : Nat) : Enclosure :=
  let (lower, upper) := descend target bound 1000 ⟨0, 1⟩ ⟨1, 0⟩
  let middle := lower.towards upper 1
  let approach (start : Fraction) : Fraction := start.towards middle ((bound - start.den) / middle.den)
  ⟨approach lower, middle, approach upper⟩

def binaryExponent : Int → Int
  | .ofNat tens => Nat.log2 (10 ^ tens)
  | .negSucc tens => -(Nat.log2 (10 ^ (tens + 1)) + 1)

/-- The part that the largest power of two takes of a power of ten. -/
def target (exponent : Int) : Fraction :=
  ⟨10 ^ (-exponent).toNat * 2 ^ (binaryExponent exponent).toNat,
    10 ^ exponent.toNat * 2 ^ (-binaryExponent exponent).toNat⟩

/-- The decimals that are closest to a short binary fraction without being equal to one. -/
def misses : List Decimal := [⟨14077062, -32⟩, ⟨7038531, -32⟩, ⟨25645849, -15⟩]

/-- A fraction that can be the quotient of a significand by a short odd one only if it is the target itself or one
of the known misses. -/
def Harmless (exponent : Int) (target fraction : Fraction) : Prop :=
  2 ^ 25 ≤ fraction.den ∨ fraction.num * target.den = fraction.den * target.num ∧ exponent.natAbs ≤ 10 ∨
    2 ^ 25 ≤ 2 * fraction.den ∧ (fraction.den % 2 = 0 ∨ ⟨fraction.num, exponent⟩ ∈ misses)

instance (exponent : Int) (target fraction : Fraction) : Decidable (Harmless exponent target fraction) :=
  inferInstanceAs (Decidable (_ ∨ _ ∧ _ ∨ _ ∧ (_ ∨ _)))

/-- What is known of the quotients that are close to the target of an exponent. -/
structure Settles (exponent : Int) (target : Fraction) (enclosure : Enclosure) : Prop where
  isolates : enclosure.Isolates target (2 ^ 25)
  largest : 2 ^ 26 * target.den < 2 * (2 ^ 26 - 1) * target.num
  middle : Harmless exponent target enclosure.middle

instance (exponent : Int) (target : Fraction) (enclosure : Enclosure) :
    Decidable (Settles exponent target enclosure) :=
  decidable_of_iff (enclosure.Isolates target (2 ^ 25) ∧ 2 ^ 26 * target.den < 2 * (2 ^ 26 - 1) * target.num ∧
      Harmless exponent target enclosure.middle)
    ⟨fun ⟨isolates, largest, middle⟩ => ⟨isolates, largest, middle⟩,
      fun ⟨isolates, largest, middle⟩ => ⟨isolates, largest, middle⟩⟩

private theorem settles_all : (List.range 84).all fun index =>
    decide (Settles (index - 45) (target (index - 45)) (enclose (target (index - 45)) (2 ^ 25))) := by
  decide +kernel

private theorem settles {exponent : Int} (low : -45 ≤ exponent) (high : exponent ≤ 38) :
    Settles exponent (target exponent) (enclose (target exponent) (2 ^ 25)) := by
  have row := List.all_eq_true.mp settles_all (exponent + 45).toNat (List.mem_range.mpr (by omega))
  have same : ((exponent + 45).toNat : Int) - 45 = exponent := by omega
  rw [same] at row
  exact of_decide_eq_true row

private theorem pow_toNat_neg_mul_zpow {base : ℚ} (some : base ≠ 0) (exponent : Int) :
    base ^ (-exponent).toNat * base ^ exponent = base ^ exponent.toNat := by
  rcases le_total 0 exponent with nonneg | nonpos
  · obtain ⟨count, rfl⟩ := Int.eq_ofNat_of_zero_le nonneg
    rw [Int.toNat_neg_natCast, pow_zero, one_mul, zpow_natCast, Int.toNat_natCast]
  · obtain ⟨count, count_eq⟩ := Int.eq_ofNat_of_zero_le (neg_nonneg.mpr nonpos)
    obtain rfl : exponent = -count := by omega
    rw [neg_neg, Int.toNat_natCast, Int.toNat_neg_natCast, zpow_neg, zpow_natCast, pow_zero]
    exact mul_inv_cancel₀ (pow_ne_zero _ some)

private theorem target_den_pos (exponent : Int) : 0 < (target exponent).den :=
  Nat.mul_pos (Nat.pow_pos (by decide)) (Nat.pow_pos (by decide))

private theorem target_balance (exponent : Int) :
    ((target exponent).num : ℚ) * 10 ^ exponent = (target exponent).den * 2 ^ binaryExponent exponent := by
  have tens := pow_toNat_neg_mul_zpow (show (10 : ℚ) ≠ 0 by norm_num) exponent
  have twos := pow_toNat_neg_mul_zpow (show (2 : ℚ) ≠ 0 by norm_num) (binaryExponent exponent)
  rw [target]
  push_cast
  rw [← tens, ← twos]
  ring

variable {decimal : Decimal} {odd : Nat} {exponent : Int}

private theorem target_balance_of_doubled {power : Int} {doublings : Nat}
    (binary : binaryExponent power = exponent + doublings) :
    ((target power).num : ℚ) * 10 ^ power = (target power).den * (2 ^ exponent * 2 ^ doublings) := by
  rw [target_balance, binary, zpow_add₀ (by norm_num), zpow_natCast]

/-- The relative distance does not change when both sides are divided by a power of ten and doubled some times. -/
theorem close_of_near {doublings : Nat} (near : |decimal.toRat - odd * 2 ^ exponent| ≤ 9 / 2 ^ 55 * decimal.toRat)
    (binary : binaryExponent decimal.exponent = exponent + doublings) :
    Close (target decimal.exponent) ⟨decimal.digits * 2 ^ doublings, odd⟩ := by
  have tens : (0 : ℚ) < 10 ^ decimal.exponent := zpow_pos (by norm_num) _
  have denominator : (0 : ℚ) < (target decimal.exponent).den := by exact_mod_cast target_den_pos decimal.exponent
  have balance := target_balance_of_doubled binary
  have scale : (0 : ℚ) < 2 ^ doublings * (target decimal.exponent).den := by positivity
  obtain ⟨lower, upper⟩ := abs_le.mp near
  rw [Decimal.toRat] at lower upper
  refine ⟨fun far => ?_, fun far => ?_⟩
  · have cast : (2 ^ 55 + 9 : ℚ) * (decimal.digits * 2 ^ doublings * (target decimal.exponent).den) <
        2 ^ 55 * (odd * (target decimal.exponent).num) := by
      exact_mod_cast far
    have scaled := mul_lt_mul_of_pos_right cast tens
    have cleared : (2 ^ 55 + 9 : ℚ) * (decimal.digits * 10 ^ decimal.exponent) < 2 ^ 55 * (odd * 2 ^ exponent) := by
      refine lt_of_mul_lt_mul_right ?_ scale.le
      linear_combination scaled + 2 ^ 55 * odd * balance
    linarith
  · have cast : (2 ^ 55 : ℚ) * (odd * (target decimal.exponent).num) <
        (2 ^ 55 - 9) * (decimal.digits * 2 ^ doublings * (target decimal.exponent).den) := by
      have cast := (Nat.cast_lt (α := ℚ)).mpr far
      push_cast at cast
      norm_num
      exact cast
    have scaled := mul_lt_mul_of_pos_right cast tens
    have cleared : (2 ^ 55 : ℚ) * (odd * 2 ^ exponent) < (2 ^ 55 - 9) * (decimal.digits * 10 ^ decimal.exponent) := by
      refine lt_of_mul_lt_mul_right ?_ scale.le
      linear_combination scaled - 2 ^ 55 * odd * balance
    linarith

private theorem largest_binaryExponent {power : Int}
    (largest : 2 ^ 26 * (target power).den < 2 * (2 ^ 26 - 1) * (target power).num)
    (coarse : (1 - 1 / 2 ^ 26 : ℚ) * 2 ^ exponent ≤ 10 ^ power) : exponent ≤ binaryExponent power := by
  by_contra beyond
  have tens : (0 : ℚ) < 10 ^ power := zpow_pos (by norm_num) _
  have denominator : (0 : ℚ) < (target power).den := by exact_mod_cast target_den_pos power
  have cast : (2 ^ 26 : ℚ) * (target power).den < 2 * (2 ^ 26 - 1) * (target power).num := by
    have cast := (Nat.cast_lt (α := ℚ)).mpr largest
    push_cast at cast
    norm_num
    exact cast
  have scaled := mul_lt_mul_of_pos_right cast tens
  have cleared : (2 ^ 26 : ℚ) * 10 ^ power < (2 ^ 26 - 1) * (2 * 2 ^ binaryExponent power) := by
    refine lt_of_mul_lt_mul_right ?_ denominator.le
    linear_combination scaled + 2 * (2 ^ 26 - 1) * target_balance power
  have doubled : (2 : ℚ) * 2 ^ binaryExponent power ≤ 2 ^ exponent := by
    rw [← zpow_one_add₀ (by norm_num)]
    exact zpow_le_zpow_right₀ (by norm_num) (by omega)
  linarith

private theorem eq_of_balance {doublings : Nat} (binary : binaryExponent decimal.exponent = exponent + doublings)
    (same : decimal.digits * 2 ^ doublings * (target decimal.exponent).den = odd * (target decimal.exponent).num) :
    decimal.toRat = odd * 2 ^ exponent := by
  have denominator : (0 : ℚ) < (target decimal.exponent).den := by exact_mod_cast target_den_pos decimal.exponent
  have balance := target_balance_of_doubled binary
  have scale : (0 : ℚ) < 2 ^ doublings * (target decimal.exponent).den := by positivity
  have cast : (decimal.digits * 2 ^ doublings * (target decimal.exponent).den : ℚ) =
      odd * (target decimal.exponent).num := by
    exact_mod_cast same
  refine mul_right_cancel₀ scale.ne' ?_
  rw [Decimal.toRat]
  linear_combination (10 : ℚ) ^ decimal.exponent * cast + odd * balance

private theorem mem_misses_of_doubled {doublings : Nat}
    (member : (⟨decimal.digits * 2 ^ doublings, decimal.exponent⟩ : Decimal) ∈ misses) : decimal ∈ misses := by
  obtain ⟨digits, power⟩ := decimal
  simp only [misses, List.mem_cons, List.not_mem_nil, Decimal.mk.injEq, or_false] at member ⊢
  rcases doublings with _ | _ | doublings
  · omega
  · omega
  · rw [Nat.add_assoc, pow_add, ← Nat.mul_assoc] at member
    omega

/-- A decimal that is close to a short binary fraction and at least as coarse is equal to it, and then its power of
ten is small, or it is one of three. -/
theorem eq_or_mem_misses (isOdd : odd % 2 = 1) (short : odd < 2 ^ 25)
    (near : |decimal.toRat - odd * 2 ^ exponent| ≤ 9 / 2 ^ 55 * decimal.toRat)
    (coarse : (1 - 1 / 2 ^ 26 : ℚ) * 2 ^ exponent ≤ 10 ^ decimal.exponent) (low : -45 ≤ decimal.exponent)
    (high : decimal.exponent ≤ 38) :
    decimal.toRat = odd * 2 ^ exponent ∧ decimal.exponent.natAbs ≤ 10 ∨ decimal ∈ misses := by
  have row := settles low high
  have order := largest_binaryExponent row.largest coarse
  obtain ⟨doublings, binary⟩ : ∃ doublings : Nat, binaryExponent decimal.exponent = exponent + doublings :=
    ⟨(binaryExponent decimal.exponent - exponent).toNat, by omega⟩
  have close := close_of_near near binary
  have positive : 0 < odd := by omega
  have same := row.isolates.eq_middle close positive short
  obtain ⟨times, numerator, denominator⟩ := row.isolates.exists_multiple positive same
  generalize enclose (target decimal.exponent) (2 ^ 25) = enclosure at row numerator denominator
  dsimp only at numerator denominator
  -- The fraction is a multiple of the middle one, which is too long, or exact, or more than half as long as allowed.
  rcases row.middle with long | ⟨exact, small⟩ | ⟨half, known⟩
  · have some : 0 < times := Nat.pos_of_ne_zero fun zero => by simp [zero] at denominator; omega
    have := Nat.le_mul_of_pos_left enclosure.middle.den some
    omega
  · refine Or.inl ⟨eq_of_balance binary ?_, small⟩
    rw [numerator, denominator, Nat.mul_assoc, exact, Nat.mul_assoc]
  · have once : times = 1 := by
      rcases Nat.lt_trichotomy times 1 with none | once | twice
      · simp [Nat.lt_one_iff.mp none] at denominator
        omega
      · exact once
      · have := Nat.mul_le_mul_right enclosure.middle.den twice
        omega
    rw [once, Nat.one_mul] at numerator denominator
    rcases known with even | member
    · omega
    · exact Or.inr (mem_misses_of_doubled (numerator ▸ member))

end ScriptNumbers.Proofs.NearMisses
