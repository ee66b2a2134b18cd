import ScriptNumbers.Proofs.CorrectRounding
import ScriptNumbers.Proofs.ExactOrder
import ScriptNumbers.Proofs.Remainders

/-! Conversions to the floating kinds. Each rounds the exact value once and straight to the format, whatever kind it comes
from, so it can be described by the exact value alone: where it is infinite, subnormal or zero, and that it keeps the
order. -/

namespace ScriptNumbers

namespace Format

variable (format : Format)

/-- The last midpoint below the normal magnitudes belongs to them, since its subnormal neighbour is odd. -/
theorem rankOfRat_lt_binadeSize_iff {value : ℚ} :
    format.rankOfRat value < format.binadeSize ↔ |value| < format.midpoint (format.binadeSize - 1) := by
  have positive := format.binadeSize_pos
  have even := format.binadeSize_even
  have before : format.rankOfRat value < format.binadeSize ↔ format.rankOfRat value ≤ format.binadeSize - 1 := by omega
  rw [before, rankOfRat_le_iff]
  constructor
  · rintro (below | ⟨-, parity⟩)
    · exact below
    · omega
  · exact Or.inl

private theorem midpoint_last_subnormal :
    format.midpoint (format.binadeSize - 1) = (2 * format.binadeSize - 1) / (2 * format.one) := by
  have positive := format.binadeSize_pos
  have unit := format.one_pos'
  rw [midpoint, Nat.sub_add_cancel positive, magnitude_eq, magnitude_eq, units_of_lt format (by omega),
    units_of_lt format (by omega), Nat.cast_sub positive]
  field_simp
  ring

private theorem single_midpoint_last_subnormal :
    single.midpoint (single.binadeSize - 1) = 1 / 2 ^ 126 - 1 / 2 ^ 150 := by
  have size : single.binadeSize = 2 ^ 23 := rfl
  have unit : single.one = 2 ^ 149 := by decide +kernel
  rw [midpoint_last_subnormal, size, unit]
  norm_num

private theorem double_midpoint_last_subnormal :
    double.midpoint (double.binadeSize - 1) = 1 / 2 ^ 1022 - 1 / 2 ^ 1075 := by
  have size : double.binadeSize = 2 ^ 52 := rfl
  have unit : double.one = 2 ^ 1074 := by decide +kernel
  rw [midpoint_last_subnormal, size, unit]
  decide +kernel

end Format

namespace Binary

variable {format : Format} {negative : Bool} {value : ℚ} {result : Binary format}

/-- Smaller than the normal magnitudes, but not zero. -/
def isSubnormal : Binary format → Bool
  | .finite _ rank => 0 < rank.val && rank.val < format.binadeSize
  | _ => false

/-- The sign and the rounded magnitude determine a correctly rounded value. -/
theorem IsRounded.eq_ofRank (rounded : result.IsRounded negative value) :
    result = ofRank negative (format.rankOfRat value) := by
  obtain ⟨⟨key, found, near⟩, sign⟩ := rounded
  have size := format.natAbs_keyOfRat value
  rw [← Format.isNearest_iff.mp near] at size
  have limit := format.limit_pos
  cases result with
  | nan => cases found
  | infinity negative =>
    cases sign
    obtain rfl := Option.some.inj found
    have beyond : format.limit ≤ format.rankOfRat value := by
      cases negative <;> simp at size <;> omega
    exact (ofRank_of_limit_le _ beyond).symm
  | finite negative rank =>
    cases sign
    obtain rfl := Option.some.inj found
    have inside := rank.isLt
    have same : format.rankOfRat value = rank := by
      cases negative <;> simp at size <;> omega
    rw [same, ofRank_of_lt _ inside]
    rfl

section Regions

variable (rounded : result.IsRounded negative value)
include rounded

private theorem IsRounded.eq_infinity_iff :
    result = .infinity negative ↔ format.midpoint (format.limit - 1) ≤ |value| := by
  rw [rounded.eq_ofRank, ← Format.limit_le_rankOfRat_iff, ofRank_eq_infinity_iff]

private theorem IsRounded.eq_zero_iff : result = zero negative ↔ |value| ≤ format.midpoint 0 := by
  have limit := format.limit_pos
  rw [rounded.eq_ofRank, ← Format.rankOfRat_eq_zero_iff, zero]
  constructor
  · intro same
    rw [ofRank_of_lt negative limit] at same
    exact rank_eq_of_ofRank_eq same
  · intro same
    rw [same]

private theorem IsRounded.isSubnormal_iff :
    result.isSubnormal ↔ format.midpoint 0 < |value| ∧ |value| < format.midpoint (format.binadeSize - 1) := by
  rw [rounded.eq_ofRank, ← not_le, ← Format.rankOfRat_eq_zero_iff, ← format.rankOfRat_lt_binadeSize_iff, ofRank]
  have order := format.binadeSize_lt_limit
  split
  · simp [isSubnormal, Nat.pos_iff_ne_zero]
  · simp only [isSubnormal, Bool.false_eq_true, false_iff]
    omega

end Regions

private theorem isRounded_of_toRat? {value : Binary format} {exact : ℚ} (finite : value.toRat? = some exact) :
    value.IsRounded value.isNegative exact := by
  refine ⟨?_, rfl⟩
  cases value with
  | nan | infinity => cases finite
  | finite negative rank =>
    cases finite
    obtain ⟨key, found, inside, exact⟩ := exists_key_of_finite negative rank
    refine ⟨key, found, Format.isNearest_iff.mpr ?_⟩
    rw [← exact, format.keyOfRat_valueOfKey inside]

theorem isRounded_convert {source : Format} {value : Binary source} {exact : ℚ} (finite : value.toRat? = some exact) :
    (value.convert : Binary format).IsRounded value.isNegative exact := by
  cases value with
  | nan | infinity => cases finite
  | finite negative rank =>
    cases finite
    refine ⟨isNearest_round negative _, ?_⟩
    rw [convert_finite]
    exact isNegative_ofRank negative _

private theorem isRounded_ofInt (value : Int) : (ofInt value : Binary format).IsRounded (decide (value < 0)) value :=
  ⟨isNearest_round false _, isNegative_ofInt value⟩

/-- A value is the one that belongs to its key. -/
theorem toExtended?_of_key? {value : Binary format} {key : Int} (found : value.key? = some key) :
    value.toExtended? = some (format.extendedOfKey key) := by
  have limit := format.limit_pos
  cases value with
  | nan => cases found
  | infinity negative =>
    obtain rfl := Option.some.inj found
    have held := format.holds_infinity negative
    cases negative <;> exact congrArg some held.symm
  | finite negative rank =>
    obtain ⟨_, same, inside, exact⟩ := exists_key_of_finite negative rank
    obtain rfl := Option.some.inj (found.symm.trans same)
    rw [format.extendedOfKey_of_finite inside, exact]
    rfl

end Binary

namespace Kind

/-- The format of a floating kind. -/
def format : Kind → Format
  | double => .double
  | int32 | int64 | float => .single

/-- Magnitudes from here on are normal: halfway from the last subnormal one to the first normal one. -/
def normal (kind : Kind) : ℚ := if kind = .double then 1 / 2 ^ 1022 - 1 / 2 ^ 1075 else 1 / 2 ^ 126 - 1 / 2 ^ 150

end Kind

namespace Number

open Extended

/-- Infinity of a floating kind. -/
def infinity (kind : Kind) (negative : Bool) : Number :=
  if kind = .double then double (.infinity negative) else float (.infinity negative)

/-- Zero of a floating kind with a sign. -/
def signedZero (kind : Kind) (negative : Bool) : Number :=
  if kind = .double then double (.zero negative) else float (.zero negative)

def isSubnormal : Number → Bool
  | int32 _ | int64 _ => false
  | float value => value.isSubnormal
  | double value => value.isSubnormal

section Finite

variable {number : Number} {exact : ℚ} (finite : number.toRat? = some exact)
include finite

private theorem isRounded_toSingle : number.toSingle.IsRounded number.isNegative exact := by
  cases number with
  | int32 word | int64 word =>
    cases finite
    exact Binary.isRounded_ofInt _
  | float value => exact Binary.isRounded_of_toRat? finite
  | double value => exact Binary.isRounded_convert finite

private theorem isRounded_toDouble : number.toDouble.IsRounded number.isNegative exact := by
  cases number with
  | int32 word | int64 word =>
    cases finite
    exact Binary.isRounded_ofInt _
  | float value => exact Binary.isRounded_convert finite
  | double value => exact Binary.isRounded_of_toRat? finite

private theorem isRounded_cast {kind : Kind} (floating : kind.isFloating) :
    IsRounded number.isNegative exact kind (number.cast kind) := by
  cases kind with
  | int32 | int64 => cases floating
  | float => exact .float (isRounded_toSingle finite)
  | double => exact .double (isRounded_toDouble finite)

/-- Doubles have all values of the other kinds but those of long integers beyond `2 ^ 53`. -/
theorem toRat?_toDouble (small : ¬number.IsHuge) : number.toDouble.toRat? = some exact := by
  cases number with
  | int32 word =>
    cases finite
    have low := word.le_toInt
    have high := word.toInt_lt
    exact Binary.toRat?_ofInt_of_small (by omega)
  | int64 word =>
    cases finite
    exact Binary.toRat?_ofInt_of_small (not_lt.mp fun large => small ⟨word, rfl, large⟩)
  | float value => exact (Binary.widens_convert value).toRat?.trans finite
  | double value => exact finite

end Finite

section Regions

variable {kind : Kind} {negative : Bool} {value : ℚ} {number : Number} (rounded : IsRounded negative value kind number)
include rounded

private theorem IsRounded.eq_infinity_iff : number = infinity kind negative ↔ kind.overflow ≤ |value| := by
  cases rounded with
  | float rounded => simpa [infinity, Kind.overflow, Format.single_midpoint_limit] using rounded.eq_infinity_iff
  | double rounded => simpa [infinity, Kind.overflow, Format.double_midpoint_limit] using rounded.eq_infinity_iff

private theorem IsRounded.eq_signedZero_iff : number = signedZero kind negative ↔ |value| ≤ kind.underflow := by
  cases rounded with
  | float rounded => simpa [signedZero, Kind.underflow, Format.single_midpoint_zero] using rounded.eq_zero_iff
  | double rounded => simpa [signedZero, Kind.underflow, Format.double_midpoint_zero] using rounded.eq_zero_iff

private theorem IsRounded.isSubnormal_iff : number.isSubnormal ↔ kind.underflow < |value| ∧ |value| < kind.normal := by
  cases rounded with
  | float rounded =>
    rw [isSubnormal, rounded.isSubnormal_iff, Format.single_midpoint_zero, Format.single_midpoint_last_subnormal]
    rfl
  | double rounded =>
    rw [isSubnormal, rounded.isSubnormal_iff, Format.double_midpoint_zero, Format.double_midpoint_last_subnormal]
    rfl

end Regions

/-- What a conversion to a floating kind should make of a number with an exact value. -/
structure IsConversion (number : Number) (exact : ℚ) (kind : Kind) (result : Number) : Prop where
  rounded : IsRounded number.isNegative exact kind result
  infinite : result = infinity kind number.isNegative ↔ kind.overflow ≤ |exact|
  subnormal : result.isSubnormal ↔ kind.underflow < |exact| ∧ |exact| < kind.normal
  zero : result = signedZero kind number.isNegative ↔ |exact| ≤ kind.underflow
  exact : kind = .double → ¬number.IsHuge → result.toRat? = some exact

private theorem isConversion_cast {kind : Kind} (floating : kind.isFloating) {number : Number} {exact : ℚ}
    (finite : number.toRat? = some exact) : number.IsConversion exact kind (number.cast kind) := by
  have rounded := isRounded_cast finite floating
  refine ⟨rounded, rounded.eq_infinity_iff, rounded.isSubnormal_iff, rounded.eq_signedZero_iff, ?_⟩
  rintro rfl small
  exact toRat?_toDouble finite small

private theorem cast_infinity {source kind : Kind} (negative : Bool) (floating : kind.isFloating) :
    (infinity source negative).cast kind = infinity kind negative := by
  cases kind with
  | int32 | int64 => cases floating
  | float | double =>
    unfold infinity
    split <;> rfl

private theorem finite_or_infinity {number : Number} (proper : ¬number.isNan) :
    (∃ exact, number.toRat? = some exact) ∨ ∃ negative, number = infinity number.kind negative := by
  cases number with
  | int32 word | int64 word => exact Or.inl ⟨_, rfl⟩
  | float value | double value =>
    cases value with
    | nan => exact absurd rfl proper
    | infinity negative => exact Or.inr ⟨negative, rfl⟩
    | finite negative rank => exact Or.inl ⟨_, rfl⟩

private theorem toExtended?_cast {number : Number} {exact : Extended} (found : number.toExtended? = some exact)
    {kind : Kind} (floating : kind.isFloating) :
    (number.cast kind).toExtended? = some (kind.format.extendedOfKey (kind.format.keyOfExtended exact)) := by
  cases kind with
  | int32 | int64 => cases floating
  | float =>
    apply Binary.toExtended?_of_key?
    cases number with
    | int32 word | int64 word =>
      cases found
      exact Binary.key?_round false _
    | float value => exact Binary.key?_of_toExtended? found
    | double value => exact Binary.key?_convert .single found
  | double => exact Binary.toExtended?_of_key? (doubleKey?_of_toExtended? found)

private theorem cast_mono {left right : Number} {l r : Extended} (leftExact : left.toExtended? = some l)
    (rightExact : right.toExtended? = some r) (order : l ≤ r) {kind : Kind} (floating : kind.isFloating) :
    ∃ lower upper, (left.cast kind).toExtended? = some lower ∧ (right.cast kind).toExtended? = some upper ∧
      lower ≤ upper := by
  refine ⟨_, _, toExtended?_cast leftExact floating, toExtended?_cast rightExact floating, ?_⟩
  apply kind.format.extendedOfKey_strictMonoOn.monotoneOn
  · exact kind.format.natAbs_keyOfExtended_le l
  · exact kind.format.natAbs_keyOfExtended_le r
  · exact kind.format.keyOfExtended_mono order

/-- A conversion to a floating kind gives the nearest value with the sign of the number, rounded once from the exact
value, and an infinity stays one. Conversions keep the order of the exact values. -/
theorem cast_rounds_once {kind : Kind} (floating : kind.isFloating) :
    (∀ number : Number, ¬number.isNan →
      (∃ exact, number.toRat? = some exact ∧ number.IsConversion exact kind (number.cast kind)) ∨
        ∃ negative, number = infinity number.kind negative ∧ number.cast kind = infinity kind negative) ∧
    ∀ (left right : Number) (l r : Extended), left.toExtended? = some l → right.toExtended? = some r → l ≤ r →
      ∃ lower upper, (left.cast kind).toExtended? = some lower ∧ (right.cast kind).toExtended? = some upper ∧
        lower ≤ upper := by
  constructor
  · intro number proper
    rcases finite_or_infinity proper with ⟨exact, finite⟩ | ⟨negative, same⟩
    · exact Or.inl ⟨exact, finite, isConversion_cast floating finite⟩
    · refine Or.inr ⟨negative, same, ?_⟩
      rw [same]
      exact cast_infinity negative floating
  · intro left right l r leftExact rightExact order
    exact cast_mono leftExact rightExact order floating

/-- A long integer just above the middle between two floats, where its double lies. -/
theorem cast_rounds_once_aboveMiddle :
    Kind.float.isFloating ∧ ¬(int64 1152921573326323713).isNan ∧
    (int64 1152921573326323713).cast .float = float (.ofInt 1152921642045800448) ∧
    IsRounded false 1152921573326323713 .float (float (.ofInt 1152921642045800448)) ∧
    ((int64 1152921573326323713).cast .double).cast .float = float (.ofInt 1152921504606846976) := by
  have proper : ¬(int64 1152921573326323713).isNan := by decide
  have straight : (int64 1152921573326323713).cast .float = float (.ofInt 1152921642045800448) := by decide +kernel
  have twice : ((int64 1152921573326323713).cast .double).cast .float = float (.ofInt 1152921504606846976) := by
    decide +kernel
  have floating : Kind.float.isFloating := rfl
  refine ⟨floating, proper, straight, ?_, twice⟩
  rcases (cast_rounds_once floating).1 _ proper with ⟨exact, finite, conversion⟩ | ⟨negative, same, -⟩
  · cases finite
    rw [← straight]
    exact conversion.rounded
  · cases same

end Number

end ScriptNumbers
