import ScriptNumbers.Number.Basic
import ScriptNumbers.Proofs.NearestValue

/-! The correctly rounded number of a floating kind: the nearest one, under a sign that also tells the zeros apart.
There is only one, and rounding a decimal from its exact value finds it. -/

namespace ScriptNumbers

namespace Binary

variable {format : Format} {negative : Bool} {value : ℚ}

structure IsRounded (negative : Bool) (value : ℚ) (result : Binary format) : Prop where
  nearest : result.IsNearest value
  sign : result.isNegative = negative

/-- The two zeros share a key, and so their signs have to agree. -/
theorem eq_of_key? {left right : Binary format} {key : Int} (leftKey : left.key? = some key)
    (rightKey : right.key? = some key) (signs : left.isNegative = right.isNegative) : left = right := by
  have limit := format.limit_pos
  cases left with
  | nan => cases leftKey
  | infinity l =>
    cases right with
    | nan => cases rightKey
    | infinity r => exact congrArg infinity signs
    | finite r rank =>
      obtain rfl : l = r := signs
      have apart := rank.isLt
      rw [← rightKey, key?, key?, Option.some.injEq] at leftKey
      split at leftKey <;> omega
  | finite l rank =>
    cases right with
    | nan => cases rightKey
    | infinity r =>
      obtain rfl : l = r := signs
      have apart := rank.isLt
      rw [← rightKey, key?, key?, Option.some.injEq] at leftKey
      split at leftKey <;> omega
    | finite r other =>
      obtain rfl : l = r := signs
      rw [← rightKey, key?, key?, Option.some.injEq] at leftKey
      obtain rfl : rank = other := by
        apply Fin.ext
        split at leftKey <;> omega
      rfl

theorem IsRounded.unique {left right : Binary format} (one : left.IsRounded negative value)
    (other : right.IsRounded negative value) : left = right := by
  obtain ⟨⟨leftKey, leftSome, leftNearest⟩, leftSign⟩ := one
  obtain ⟨⟨rightKey, rightSome, rightNearest⟩, rightSign⟩ := other
  rw [Format.isNearest_iff.mp leftNearest] at leftSome
  rw [Format.isNearest_iff.mp rightNearest] at rightSome
  exact eq_of_key? leftSome rightSome (leftSign.trans rightSign.symm)

private theorem IsRounded.not_isNan {result : Binary format} (rounded : result.IsRounded negative value) :
    result.isNan = false := by
  obtain ⟨key, some, -⟩ := rounded.nearest
  cases result with
  | nan => cases some
  | infinity | finite => rfl

section Decimals

variable (negative) (decimal : Decimal)

theorem isRounded_ofDecimal :
    (ofDecimal negative decimal : Binary format).IsRounded negative (if negative then -decimal.toRat else decimal.toRat) :=
  ⟨isNearest_ofDecimal negative decimal, isNegative_ofDecimal negative decimal⟩

private theorem isFinite_ofDecimal :
    (ofDecimal negative decimal : Binary format).isFinite ↔ decimal.toRat < format.midpoint (format.limit - 1) := by
  rw [← not_le, ← ofDecimal_eq_infinity_iff negative decimal, ofDecimal, ofRank]
  split <;> simp [isFinite]

private theorem isZero_ofDecimal :
    (ofDecimal negative decimal : Binary format).isZero ↔ decimal.toRat ≤ format.midpoint 0 := by
  have rank : format.rankOfRat decimal.toRat = 0 ↔ _ := Format.rankOfRat_eq_zero_iff
  rw [abs_of_nonneg decimal.toRat_nonneg] at rank
  have limit := format.limit_pos
  rw [ofDecimal_eq, ← rank, ofRank]
  split
  next => simp [isZero]
  next => simp only [isZero, Bool.false_eq_true, false_iff]; omega

end Decimals

end Binary

namespace Kind

/-- Magnitudes from here on are infinite: halfway from the last of a floating kind to the power of two behind it. -/
def overflow (kind : Kind) : ℚ := if kind = .double then 2 ^ 1024 - 2 ^ 970 else 2 ^ 128 - 2 ^ 103

/-- Magnitudes up to here are zero: halfway to the least of a floating kind. -/
def underflow (kind : Kind) : ℚ := if kind = .double then 1 / 2 ^ 1075 else 1 / 2 ^ 150

end Kind

namespace Number

/-- A decimal rounded to the format of a floating kind. -/
def ofDecimal (kind : Kind) (negative : Bool) (decimal : Decimal) : Number :=
  if kind = .double then .double (.ofDecimal negative decimal) else .float (.ofDecimal negative decimal)

inductive IsRounded (negative : Bool) (value : ℚ) : Kind → Number → Prop where
  | float {result : Single} (rounded : result.IsRounded negative value) : IsRounded negative value .float (float result)
  | double {result : Double} (rounded : result.IsRounded negative value) :
      IsRounded negative value .double (double result)

variable {kind : Kind} {negative : Bool} {value : ℚ}

private theorem IsRounded.unique {left right : Number} (one : IsRounded negative value kind left)
    (other : IsRounded negative value kind right) : left = right := by
  cases one with
  | float rounded =>
    cases other with
    | float also => rw [rounded.unique also]
  | double rounded =>
    cases other with
    | double also => rw [rounded.unique also]

theorem IsRounded.iff_eq {number other : Number} (rounded : IsRounded negative value kind number) :
    IsRounded negative value kind other ↔ other = number := by
  constructor
  · exact fun also => also.unique rounded
  · rintro rfl
    exact rounded

theorem IsRounded.not_isNan {number : Number} (rounded : IsRounded negative value kind number) : number.isNan = false := by
  cases rounded with
  | float rounded => exact rounded.not_isNan
  | double rounded => exact rounded.not_isNan

section Decimals

variable (floating : kind.isFloating) (negative) (decimal : Decimal)
include floating

theorem isRounded_ofDecimal :
    IsRounded negative (if negative then -decimal.toRat else decimal.toRat) kind
      (ofDecimal kind negative decimal) := by
  cases kind with
  | int32 | int64 => cases floating
  | float => exact .float (Binary.isRounded_ofDecimal negative decimal)
  | double => exact .double (Binary.isRounded_ofDecimal negative decimal)

theorem isFinite_ofDecimal : (ofDecimal kind negative decimal).isFinite ↔ decimal.toRat < kind.overflow := by
  cases kind with
  | int32 | int64 => cases floating
  | float =>
    rw [Kind.overflow, if_neg (by decide), ← Format.single_midpoint_limit]
    exact Binary.isFinite_ofDecimal negative decimal
  | double =>
    rw [Kind.overflow, if_pos rfl, ← Format.double_midpoint_limit]
    exact Binary.isFinite_ofDecimal negative decimal

theorem isZero_ofDecimal : (ofDecimal kind negative decimal).isZero ↔ decimal.toRat ≤ kind.underflow := by
  cases kind with
  | int32 | int64 => cases floating
  | float =>
    rw [Kind.underflow, if_neg (by decide), ← Format.single_midpoint_zero]
    exact Binary.isZero_ofDecimal negative decimal
  | double =>
    rw [Kind.underflow, if_pos rfl, ← Format.double_midpoint_zero]
    exact Binary.isZero_ofDecimal negative decimal

end Decimals

end Number

end ScriptNumbers
