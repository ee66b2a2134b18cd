import ScriptNumbers.Number.Text
import ScriptNumbers.Proofs.PositionalText
import ScriptNumbers.Proofs.ShortestDecimal

/-! Every number is read back from its text. The text of a number has no blanks, so trimming does nothing, and of
a floating number it has the digits of a decimal that reads back. -/

namespace ScriptNumbers

namespace Numeral

variable {format : Format}

private theorem floating_positional (negative : Bool) (decimal : Decimal) :
    (floating (signed negative decimal.positional) : Except Reason (Binary format)) = .ok (.ofDecimal negative decimal) := by
  have read : floating (if negative then '-' :: decimal.positionalParts.text else decimal.positionalParts.text) =
      Except.ok (Binary.ofDecimal negative (decimal.positionalParts.scaled 0) : Binary format) :=
    floating_text negative decimal.positionalParts_wellFormed
  rw [← decimal.positional_eq_text] at read
  rw [signed, read, Binary.ofDecimal_congr negative decimal.toRat_scaled_positionalParts]

/-- The text of a floating value is read as that value, the sign of a zero included. -/
theorem floating_binaryText (value : Binary format) : floating value.text = .ok value := by
  cases value with
  | nan => rfl
  | infinity negative => cases negative <;> rfl
  | finite negative rank => rw [Binary.text, floating_positional, Binary.ofDecimal_shortest]

theorem withSign_natAbs (value : Int) : withSign (value < 0) value.natAbs = value := by
  unfold withSign
  split
  next negative => rw [decide_eq_true_eq] at negative; omega
  next positive => rw [decide_eq_true_eq] at positive; omega

theorem checkRange_of_inside {low high value : Int} (above : low ≤ value) (below : value ≤ high) :
    checkRange low high value = .ok value := by
  rw [checkRange, if_neg (by omega), if_neg (by omega)]

/-- Digits under a sign are held against the range as a whole. -/
theorem integer_signed {low high : Int} (around : low ≤ 0 ∧ 0 ≤ high) (negative : Bool) {digits : List Char}
    (run : Digits digits) (some : digits ≠ []) :
    integer low high (signed negative digits) = checkRange low high (withSign negative (Decimal.ofDigits digits)) := by
  cases negative with
  | false => exact integer_digits around run some
  | true => exact integer_negative around run some

private theorem integer_integerText {low high value : Int} (around : low ≤ 0 ∧ 0 ≤ high) (above : low ≤ value)
    (below : value ≤ high) : integer low high (integerText value) = .ok value := by
  rw [integerText, integer_signed around _ (digits_toDigits _) (Decimal.toDigits_ne_nil _), Decimal.ofDigits_toDigits,
    withSign_natAbs, checkRange_of_inside above below]

end Numeral

namespace Number

open Numeral Text

private theorem ofChars_chars (number : Number) : ofChars number.kind number.chars = .ok number := by
  cases number with
  | int32 value =>
    have read := integer_integerText (by decide) value.minValue_le_toInt value.toInt_le
    simp only [ofChars, kind, chars, read, Except.map, Int32.ofInt_toInt]
  | int64 value =>
    have read := integer_integerText (by decide) value.minValue_le_toInt value.toInt_le
    simp only [ofChars, kind, chars, read, Except.map, Int64.ofInt_toInt]
  | float value => simp only [ofChars, kind, chars, floating_binaryText, Except.map]
  | double value => simp only [ofChars, kind, chars, floating_binaryText, Except.map]

theorem isBlank_of_mem_signed {negative : Bool} {text : List Char} (solid : ∀ c ∈ text, isBlank c = false) :
    ∀ c ∈ signed negative text, isBlank c = false := by
  intro c member
  cases negative with
  | false => exact solid c member
  | true =>
    rcases List.mem_cons.mp member with rfl | member
    · rfl
    · exact solid c member

theorem isBlank_of_mem_mantissa {mantissa : Mantissa} (formed : mantissa.WellFormed) :
    ∀ c ∈ mantissa.text, isBlank c = false := by
  obtain ⟨whole, fraction⟩ := mantissa
  intro c member
  rcases List.mem_append.mp member with digit | behind
  · exact isBlank_of_isDigit (formed.whole c digit)
  · cases fraction with
    | none => cases behind
    | some fraction =>
      rcases List.mem_cons.mp behind with rfl | digit
      · rfl
      · exact isBlank_of_isDigit (formed.fraction c digit)

private theorem isBlank_of_mem_binaryText {format : Format} (value : Binary format) :
    ∀ c ∈ value.text, isBlank c = false := by
  cases value with
  | nan => simp [Binary.text, isBlank]
  | infinity negative => exact isBlank_of_mem_signed (by simp [isBlank])
  | finite negative rank =>
    rw [Binary.text, Decimal.positional_eq_text]
    exact isBlank_of_mem_signed (isBlank_of_mem_mantissa (Decimal.positionalParts_wellFormed _))

private theorem isBlank_of_mem_chars (number : Number) : ∀ c ∈ number.chars, isBlank c = false := by
  have digits (value : Int) : ∀ c ∈ integerText value, isBlank c = false :=
    isBlank_of_mem_signed fun c member => isBlank_of_isDigit (digits_toDigits _ c member)
  cases number with
  | int32 value => exact digits value.toInt
  | int64 value => exact digits value.toInt
  | float value => exact isBlank_of_mem_binaryText value
  | double value => exact isBlank_of_mem_binaryText value

theorem ofText_ofList_chars (number : Number) : ofText number.kind (String.ofList number.chars) = .ok number := by
  rw [ofText, String.toList_ofList, trim_eq_self number.isBlank_of_mem_chars, ofChars_chars]
  rfl

/-- The text of a number, read as a numeral of its kind, is that number: the same integer, the same sign and rank
of a floating value that is a number, and otherwise again the value that is not one. -/
theorem ofText_text (number : Number) : ofText number.kind number.text = .ok number := by
  rw [text, ofText_ofList_chars]

end Number

end ScriptNumbers
