import ScriptNumbers.Literal.Reading
import ScriptNumbers.Proofs.FloatingNumerals
import ScriptNumbers.Proofs.HexNumerals
import ScriptNumbers.Proofs.Words

/-! The numerals that the parts of a literal are spelled as. If the parts are those of a literal, then all of them are
well formed, so that there is nothing left to blame a numeral for but a value out of range, and only an integer has a
range. -/

namespace ScriptNumbers.Literal

open Numeral

section Floating

variable (negative : Bool) {mantissa : Mantissa} (front : mantissa.WellFormed) {exponent : Option (Marker × Exponent)}
  (behind : ∀ power ∈ exponent, power.2.WellFormed)

/-- The exponent behind the letter of numerals. -/
def numeralPower : (exponent : Option (Marker × Exponent)) → (∀ power ∈ exponent, power.2.WellFormed) → Option Power
  | none, _ => none
  | some (_, value), behind => some ⟨'e', value, List.mem_cons_self, behind _ rfl⟩

/-- The numeral of a decimal, with the facts that make it one. -/
def floatingNumeral : FloatingNumeral where
  sign := if negative then some true else none
  mantissa := mantissa
  power := numeralPower exponent behind
  formed := front

private theorem numeral_eq_text :
    numeral negative mantissa exponent = String.ofList (floatingNumeral negative front behind).text := by
  rcases exponent with _ | ⟨marker, value⟩ <;> cases negative <;> rfl

theorem floatingNumeral_isNegative : (floatingNumeral negative front behind).isNegative = negative := by
  rw [FloatingNumeral.isNegative, floatingNumeral]
  cases negative <;> rfl

theorem floatingNumeral_exponent :
    (floatingNumeral negative front behind).exponent = (exponent.map (·.2.toInt)).getD 0 := by
  rcases exponent with _ | ⟨marker, value⟩ <;> rfl

include front behind in
/-- A decimal of a floating kind is its value, rounded once. -/
theorem readNumeral_floating {kind : Kind} (floating : kind.isFloating) :
    readNumeral kind negative mantissa exponent =
      .ok (Number.ofDecimal kind negative (mantissa.scaled ((exponent.map (·.2.toInt)).getD 0))) := by
  rw [readNumeral, numeral_eq_text negative front behind, Number.ofText_numeral _ floating, floatingNumeral_isNegative,
    floatingNumeral_exponent]
  rfl

end Floating

section Integers

variable {kind : Kind} (integral : kind.isInteger) (negative : Bool) {digits : List Char}
  (formed : Mantissa.WellFormed ⟨digits, none⟩)
include integral formed

private theorem ofText_plain : Number.ofText kind (numeral negative ⟨digits, none⟩ none) =
    ((checkRange (-2 ^ (wordBits kind - 1)) (2 ^ (wordBits kind - 1) - 1) (withSign negative (Decimal.ofDigits digits))).map
      (ofWord kind)).mapError fun reason => ⟨some kind, numeral negative ⟨digits, none⟩ none, reason⟩ := by
  have some : digits ≠ [] := by simpa using formed.some
  have solid : ∀ c ∈ signed negative digits, Text.isBlank c = false :=
    Number.isBlank_of_mem_signed fun c member => isBlank_of_isDigit (formed.whole c member)
  have text : (numeral negative ⟨digits, none⟩ none).toList = signed negative digits := by
    simp [numeral, Mantissa.text]
  rw [Number.ofText, text, trim_eq_self solid]
  cases kind with
  | float | double => cases integral
  | int32 | int64 =>
    rw [Number.ofChars, integer_signed (by decide) negative formed.whole some]
    rfl

theorem readNumeral_of_fits (fits : Fits (wordBits kind) (withSign negative (Decimal.ofDigits digits))) :
    readNumeral kind negative ⟨digits, none⟩ none =
      .ok (ofWord kind (withSign negative (Decimal.ofDigits digits))) := by
  rw [readNumeral, ofText_plain integral negative formed, checkRange_of_fits fits]
  rfl

theorem readNumeral_of_not_fits (outside : ¬Fits (wordBits kind) (withSign negative (Decimal.ofDigits digits))) :
    readNumeral kind negative ⟨digits, none⟩ none =
      .error ⟨some kind, if withSign negative (Decimal.ofDigits digits) < 0 then .tooSmall else .tooLarge⟩ := by
  rw [readNumeral, ofText_plain integral negative formed, checkRange_of_not_fits outside]
  rfl

end Integers

/-- The number of an integer kind with the given bits, or its negative. -/
def ofBits (kind : Kind) (negative : Bool) (bits : Nat) : Number :=
  if kind = .int64 then .int64 (if negative then -.ofNat bits else .ofNat bits)
  else .int32 (if negative then -.ofNat bits else .ofNat bits)

theorem readHex_integer {kind : Kind} (integral : kind.isInteger) (negative : Bool) {digits : List Char}
    (legal : digits ∈ Grammar.hexDigits) :
    readHex negative digits (some kind) =
      if placeValue digits < 2 ^ wordBits kind then .ok (ofBits kind negative (placeValue digits))
      else .error ⟨some kind, .tooLarge⟩ := by
  have read := hexadecimal_digits (Nat.two_pow_pos (wordBits kind)) legal
  have word : readHex negative digits (some kind) =
      ((hexadecimal (2 ^ wordBits kind) digits).map (ofBits kind negative)).mapError fun reason => ⟨some kind, reason⟩ := by
    cases kind with
    | float | double => cases integral
    | int32 =>
      have size : 2 ^ wordBits .int32 = UInt32.size := rfl
      rw [readHex, Option.getD_some, size]
      rcases hexadecimal UInt32.size digits <;> rfl
    | int64 =>
      have size : 2 ^ wordBits .int64 = UInt64.size := rfl
      rw [readHex, Option.getD_some, size]
      rcases hexadecimal UInt64.size digits <;> rfl
  rw [word, read]
  by_cases small : placeValue digits < 2 ^ wordBits kind
  · rw [if_pos small, if_pos small]
    rfl
  · rw [if_neg small, if_neg small]
    rfl

section Plain

variable {negative : Bool} {digits : List Char} (formed : Mantissa.WellFormed ⟨digits, none⟩) {value : Int}
  (meaning : value = withSign negative (Decimal.ofDigits digits))
include formed meaning

theorem readPlain_narrow (fits : Fits 32 value) (oversized : Oversized) :
    readPlain oversized negative ⟨digits, none⟩ = .ok ⟨.int32 (.ofInt value), false⟩ := by
  subst meaning
  have read : readNumeral .int32 negative ⟨digits, none⟩ none = _ := readNumeral_of_fits rfl negative formed fits
  unfold readPlain
  rw [read]
  rfl

theorem readPlain_reject (wide : ¬Fits 32 value) :
    readPlain .reject negative ⟨digits, none⟩ = .error ⟨some .int32, if value < 0 then .tooSmall else .tooLarge⟩ := by
  subst meaning
  have outside : readNumeral .int32 negative ⟨digits, none⟩ none = _ := readNumeral_of_not_fits rfl negative formed wide
  unfold readPlain
  rw [outside]

private theorem readPlain_promote (wide : ¬Fits 32 value) :
    readPlain .promote negative ⟨digits, none⟩ = (readWide negative ⟨digits, none⟩).map (⟨·, true⟩) := by
  subst meaning
  have outside : readNumeral .int32 negative ⟨digits, none⟩ none = _ := readNumeral_of_not_fits rfl negative formed wide
  unfold readPlain
  rw [outside]

theorem readPlain_long (wide : ¬Fits 32 value) (fits : Fits 64 value) :
    readPlain .promote negative ⟨digits, none⟩ = .ok ⟨.int64 (.ofInt value), true⟩ := by
  rw [readPlain_promote formed meaning wide]
  subst meaning
  have read : readNumeral .int64 negative ⟨digits, none⟩ none = _ := readNumeral_of_fits rfl negative formed fits
  rw [readWide, read]
  rfl

theorem readPlain_double (wide : ¬Fits 64 value) :
    readPlain .promote negative ⟨digits, none⟩ =
      .ok ⟨.double (.ofDecimal negative ⟨Decimal.ofDigits digits, 0⟩), true⟩ := by
  have narrow : ¬Fits 32 value := fun fits => wide (fits.mono (by decide))
  have scaled : Mantissa.scaled ⟨digits, none⟩ 0 = ⟨Decimal.ofDigits digits, 0⟩ := by simp [Mantissa.scaled]
  rw [readPlain_promote formed meaning narrow]
  subst meaning
  have outside : readNumeral .int64 negative ⟨digits, none⟩ none = _ := readNumeral_of_not_fits rfl negative formed wide
  have unscaled : ∀ power ∈ (none : Option (Marker × Exponent)), power.2.WellFormed := by simp
  have double : readNumeral .double negative _ none = _ := readNumeral_floating negative formed unscaled rfl
  rw [readWide, outside, double, Option.map_none, Option.getD_none, scaled]
  rfl

end Plain

end ScriptNumbers.Literal
