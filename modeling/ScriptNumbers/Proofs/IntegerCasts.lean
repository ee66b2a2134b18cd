import ScriptNumbers.Proofs.CastRoundTrips

/-! Conversions to the integer kinds. One method holds two rules: a floating number loses its fraction and stops at the
ends of the range, an integer loses its high bits. So the narrow conversion follows from the long one, but by a clamp
for one sort of number and by a wrap for the other. -/

namespace ScriptNumbers

open Literal

namespace Binary

variable {format : Format}

/-- What was cut off between wider bounds can still be cut off between narrower ones. -/
theorem truncateInto_narrower {low high least greatest : Int} (below : least ≤ low) (above : high ≤ greatest)
    (nonpos : low ≤ 0) (nonneg : 0 ≤ high) (value : Binary format) :
    value.truncateInto low high = max low (min high (value.truncateInto least greatest)) := by
  cases value with
  | nan =>
    simp only [truncateInto]
    omega
  | infinity negative =>
    simp only [truncateInto]
    split <;> omega
  | finite negative rank =>
    simp only [truncateInto]
    omega

end Binary

namespace Kind

/-- The word at an end of the range of an integer kind. -/
def extremeWord (kind : Kind) (negative : Bool) : Int := if negative then -2 ^ (wordBits kind - 1) else kind.lastWord

/-- The word of an integer kind that is next to an integer. -/
def clamp (kind : Kind) (value : Int) : Int := max (kind.extremeWord true) (min (kind.extremeWord false) value)

end Kind

namespace Number

/-- What a floating number becomes between the ends of an integer kind. Integers have nothing to cut off. -/
def truncateInto (target : Kind) : Number → Int
  | int32 word => word.toInt
  | int64 word => word.toInt
  | float value => value.truncateInto (target.extremeWord true) (target.extremeWord false)
  | double value => value.truncateInto (target.extremeWord true) (target.extremeWord false)

/-- What a conversion to an integer kind should make of a number of any kind. Each number is in one of the four cases. -/
structure IsIntegerCast (number : Number) (target : Kind) (result : Number) : Prop where
  kind : result.kind = target
  integer : ∀ value, number.toInt? = some value → result.toInt? = some (value.bmod (2 ^ wordBits target))
  finite : ∀ exact, number.kind.isFloating → number.toRat? = some exact →
    result.toInt? = some (target.clamp (truncated exact))
  infinite : ∀ negative, number = infinity number.kind negative → result.toInt? = some (target.extremeWord negative)
  nan : number.isNan → result.toInt? = some 0

section Conversion

variable {number : Number} {target : Kind} (integral : target.isInteger)
include integral

private theorem toInt?_cast_integer {value : Int} (exact : number.toInt? = some value) :
    (number.cast target).toInt? = some (value.bmod (2 ^ wordBits target)) := by
  have word : number.cast target = ofWord target value := by
    cases target with
    | int32 => exact congrArg int32 (toInt32_of_toInt? exact)
    | int64 => exact congrArg int64 (toInt64_of_toInt? exact)
    | float | double => cases integral
  simp only [word, toInt?_ofWord]

private theorem toInt?_cast_floating (floating : number.kind.isFloating) :
    (number.cast target).toInt? = some (number.truncateInto target) := by
  have word : number.cast target = ofWord target (number.truncateInto target) := by
    cases number with
    | int32 | int64 => cases floating
    | float | double =>
      cases target with
      | int32 | int64 => rfl
      | float | double => cases integral
  have fits : Fits (wordBits target) (number.truncateInto target) := by
    cases number with
    | int32 | int64 => cases floating
    | float value | double value => exact target.fits_truncateInto value
  simp only [word, toInt?_ofWord, fits.bmod_eq]

private theorem isIntegerCast_cast : number.IsIntegerCast target (number.cast target) where
  kind := number.kind_cast target
  integer value exact := toInt?_cast_integer integral exact
  finite exact floating found := by
    rw [toInt?_cast_floating integral floating]
    apply congrArg some
    cases number with
    | int32 | int64 => cases floating
    | float value | double value => exact Binary.truncateInto_of_toRat? found _ _
  infinite negative same := by
    have floating : number.kind.isFloating := by
      cases number with
      | int32 | int64 => cases same
      | float | double => rfl
    rw [toInt?_cast_floating integral floating]
    apply congrArg some
    cases number with
    | int32 | int64 => cases floating
    | float | double =>
      cases same
      cases negative <;> rfl
  nan improper := by
    cases number with
    | int32 | int64 => cases improper
    | float value | double value =>
      rw [toInt?_cast_floating integral rfl]
      cases value with
      | nan => rfl
      | infinity | finite => cases improper

end Conversion

/-- A floating number that was cut off at the ends of the long words is still to be cut off at those of the narrow ones. -/
theorem toInt_toInt32_of_floating {number : Number} (floating : number.kind.isFloating) :
    number.toInt32.toInt = Kind.int32.clamp number.toInt64.toInt := by
  have narrow : (number.cast .int32).toInt? = some (number.truncateInto .int32) := toInt?_cast_floating rfl floating
  have long : (number.cast .int64).toInt? = some (number.truncateInto .int64) := toInt?_cast_floating rfl floating
  simp only [cast, toInt?, Option.some_inj] at narrow long
  rw [narrow, long]
  cases number with
  | int32 | int64 => cases floating
  | float value | double value =>
    apply Binary.truncateInto_narrower <;> decide

/-- The low half of an integer can be taken from its long word. -/
theorem toInt_toInt32_of_integer {number : Number} (integral : number.kind.isInteger) :
    number.toInt32.toInt = number.toInt64.toInt.bmod (2 ^ 32) := by
  cases number with
  | int32 word => rw [← Int64.toInt_toInt32, toInt64, Int32.toInt32_toInt64, toInt32]
  | int64 word => exact word.toInt_toInt32
  | float | double => cases integral

/-- A conversion to an integer kind truncates and clamps a floating number and wraps an integer. Between the two widths
the rules differ in the same way. -/
theorem cast_truncates_or_wraps (number : Number) :
    (∀ target : Kind, target.isInteger → number.IsIntegerCast target (number.cast target)) ∧
    number.cast .int32 = int32 number.toInt32 ∧ number.cast .int64 = int64 number.toInt64 ∧
    (number.kind.isFloating → number.toInt32.toInt = Kind.int32.clamp number.toInt64.toInt) ∧
    (number.kind.isInteger → number.toInt32.toInt = number.toInt64.toInt.bmod (2 ^ 32)) := by
  refine ⟨?_, rfl, rfl, ?_, ?_⟩
  · intro target integral
    exact isIntegerCast_cast integral
  · intro floating
    exact toInt_toInt32_of_floating floating
  · intro integral
    exact toInt_toInt32_of_integer integral

/-- The least value above the narrow words: a double stops before it, and a long integer wraps. -/
theorem cast_truncates_or_wraps_bound :
    Kind.int32.isInteger ∧ (double (.ofInt 2147483648)).kind.isFloating ∧ (int64 2147483648).kind.isInteger ∧
    (double (.ofInt 2147483648)).toRat? = some 2147483648 ∧ (int64 2147483648).toInt? = some 2147483648 ∧
    ((double (.ofInt 2147483648)).cast .int32).toInt? = some 2147483647 ∧
    (double (.ofInt 2147483648)).toInt32.toInt = Kind.int32.clamp (double (.ofInt 2147483648)).toInt64.toInt ∧
    ((int64 2147483648).cast .int32).toInt? = some (-2147483648) ∧
    (int64 2147483648).toInt32.toInt = (int64 2147483648).toInt64.toInt.bmod (2 ^ 32) := by
  have finite : (double (.ofInt 2147483648)).toRat? = some ((2147483648 : Int) : ℚ) := by decide +kernel
  obtain ⟨clamps, -, -, narrowed, -⟩ := cast_truncates_or_wraps (double (.ofInt 2147483648))
  obtain ⟨wraps, -, -, -, reduced⟩ := cast_truncates_or_wraps (int64 2147483648)
  have stopped := (clamps .int32 rfl).finite _ rfl finite
  rw [truncated_intCast] at stopped
  exact ⟨rfl, rfl, rfl, finite, rfl, stopped, narrowed rfl, (wraps .int32 rfl).integer _ rfl, reduced rfl⟩

end Number

end ScriptNumbers
