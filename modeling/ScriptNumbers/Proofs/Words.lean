import ScriptNumbers.Proofs.NumberText

/-! The words of the integer kinds: which integers they hold, and the number that the word of an integer is. -/

namespace ScriptNumbers.Literal

open Numeral

/-- The range of words with so many bits. -/
def Fits (bits : Nat) (value : Int) : Prop := -2 ^ (bits - 1) ≤ value ∧ value < 2 ^ (bits - 1)

instance (bits : Nat) (value : Int) : Decidable (Fits bits value) := inferInstanceAs (Decidable (_ ∧ _))

/-- Bits of the words of an integer kind. -/
def wordBits (kind : Kind) : Nat := if kind = .int64 then 64 else 32

/-- The word of an integer kind with the given value, which has to fit. -/
def ofWord (kind : Kind) (value : Int) : Number :=
  if kind = .int64 then .int64 (.ofInt value) else .int32 (.ofInt value)

theorem kind_ofWord {kind : Kind} (integral : kind.isInteger) (value : Int) : (ofWord kind value).kind = kind := by
  cases kind with
  | int32 | int64 => rfl
  | float | double => cases integral

theorem toInt?_ofWord (kind : Kind) (value : Int) :
    (ofWord kind value).toInt? = some (value.bmod (2 ^ wordBits kind)) := by
  cases kind with
  | int64 => exact congrArg some Int64.toInt_ofInt
  | int32 | float | double => exact congrArg some Int32.toInt_ofInt

variable {bits : Nat} {value : Int}

theorem Fits.le_sub_one (fits : Fits bits value) : value ≤ 2 ^ (bits - 1) - 1 := Int.le_sub_one_of_lt fits.2

theorem Fits.bmod_eq {kind : Kind} (fits : Fits (wordBits kind) value) : value.bmod (2 ^ wordBits kind) = value := by
  obtain ⟨low, high⟩ := fits
  cases kind <;> exact Int.bmod_eq_of_le low high

theorem Fits.mono {few many : Nat} (order : few ≤ many) (fits : Fits few value) : Fits many value := by
  have wider : (2 : Int) ^ (few - 1) ≤ 2 ^ (many - 1) := pow_le_pow_right₀ (by decide) (by omega)
  unfold Fits at *
  omega

theorem checkRange_of_fits (fits : Fits bits value) :
    checkRange (-2 ^ (bits - 1)) (2 ^ (bits - 1) - 1) value = .ok value :=
  checkRange_of_inside fits.1 fits.le_sub_one

/-- The side on which a value is out of range is the one of its sign. -/
theorem checkRange_of_not_fits (outside : ¬Fits bits value) :
    checkRange (-2 ^ (bits - 1)) (2 ^ (bits - 1) - 1) value = .error (if value < 0 then .tooSmall else .tooLarge) := by
  have positive : (0 : Int) < 2 ^ (bits - 1) := pow_pos (by decide) _
  unfold Fits at outside
  by_cases negative : value < 0
  · rw [checkRange, if_pos (by omega), if_pos negative]
  · rw [checkRange, if_neg (by omega), if_pos (by omega), if_neg negative]

end ScriptNumbers.Literal
