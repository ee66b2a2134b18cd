import ScriptNumbers.Proofs.LiteralText
import ScriptNumbers.Proofs.NearestValue

/-! Plain integers, the literals with no point, exponent or suffix. They are read exactly as long as a word of either
integer kind holds them, and behind that as the nearest double, unless they are rejected. -/

namespace ScriptNumbers.Literal

open Numeral

section Nearest

variable {negative : Bool} {digits : List Char} {value : Int}
  (meaning : value = withSign negative (Decimal.ofDigits digits))
include meaning

/-- The double that is read is the one nearest to the value. It has the sign of the text, and it is infinite from
halfway between the last double and `2 ^ 1024` on. -/
theorem ofDecimal_nearest {double : Double} (read : double = .ofDecimal negative ⟨Decimal.ofDigits digits, 0⟩) :
    double.IsNearest value ∧ double.isNegative = negative ∧
      (double = .infinity negative ↔ (2 : ℚ) ^ 1024 - 2 ^ 970 ≤ |(value : ℚ)|) := by
  have exact : Decimal.toRat ⟨Decimal.ofDigits digits, 0⟩ = Decimal.ofDigits digits := by simp [Decimal.toRat]
  have signed : (value : ℚ) = if negative then -(Decimal.ofDigits digits : ℚ) else Decimal.ofDigits digits := by
    rw [meaning, withSign]
    split <;> simp
  have size : |(value : ℚ)| = Decimal.ofDigits digits := by
    rw [signed]
    split <;> simp
  rw [read]
  refine ⟨?_, Binary.isNegative_ofDecimal negative _, ?_⟩
  · rw [signed, ← exact]
    exact Binary.isNearest_ofDecimal negative _
  · rw [size, ← exact, ← Format.double_midpoint_limit]
    exact Binary.ofDecimal_eq_infinity_iff negative _

end Nearest

/-- A plain integer is written as the value of an exponent is: a sign or none, and digits. -/
structure PlainInteger where
  numeral : Exponent
  formed : numeral.WellFormed

namespace PlainInteger

def text (integer : PlainInteger) : String := String.ofList integer.numeral.text

def value (integer : PlainInteger) : Int := integer.numeral.toInt

def isNegative (integer : PlainInteger) : Bool := integer.numeral.sign == some true

/-- The texts of plain integers are the words of `[+-]? [0-9]+`. -/
theorem exists_text_iff {text : String} :
    text.toList ∈ Grammar.optional Grammar.sign * Grammar.many Grammar.digit ↔
      ∃ integer : PlainInteger, integer.text = text := by
  rw [← Grammar.exponentValue, Grammar.mem_exponentValue_iff]
  constructor
  · rintro ⟨numeral, formed, same⟩
    exact ⟨⟨numeral, formed⟩, by rw [PlainInteger.text, same, String.ofList_toList]⟩
  · rintro ⟨integer, rfl⟩
    exact ⟨integer.numeral, integer.formed, String.toList_ofList.symm⟩

variable (integer : PlainInteger)

theorem value_eq : integer.value = withSign integer.isNegative (Decimal.ofDigits integer.numeral.digits) := by
  simp [value, isNegative, Exponent.toInt, withSign]

theorem mantissa_wellFormed : Mantissa.WellFormed ⟨integer.numeral.digits, none⟩ :=
  ⟨integer.formed.digits, nofun, by simpa using integer.formed.some⟩

theorem scan_toList : scan integer.text.toList =
    .ok ⟨integer.isNegative, .decimal ⟨integer.numeral.digits, none⟩ none, none⟩ := by
  let mantissa : Mantissa := ⟨integer.numeral.digits, none⟩
  have formed : mantissa.WellFormed := integer.mantissa_wellFormed
  have legal : mantissa.text ∈ Grammar.mantissa := Grammar.mem_mantissa_iff.mpr ⟨mantissa, formed, rfl⟩
  have sign : signText integer.numeral.sign ∈ Grammar.optional Grammar.sign := Grammar.mem_optional_sign_iff.mpr ⟨_, rfl⟩
  have whole : integer.text.toList = Pieces.text ⟨signText integer.numeral.sign, .plain mantissa.text, []⟩ := by
    simp [text, Exponent.text_eq_append, Pieces.text, BodyPieces.text, Mantissa.text, mantissa]
  have minus : integer.isNegative ↔ signText integer.numeral.sign = ['-'] := by
    rw [isNegative]
    rcases integer.numeral.sign with _ | _ | _ <;> decide
  rw [whole]
  exact scan_text ⟨sign, .plain legal, Or.inl rfl⟩ ⟨minus, .plain formed, rfl⟩

theorem parse_eq (settings : Settings) : parse settings integer.text =
    ((readPlain settings.oversizedInteger integer.isNegative ⟨integer.numeral.digits, none⟩).mapError
      fun cause => ⟨cause.kind, integer.text, cause.reason⟩).map Reading.number := by
  rw [parse_of_scan integer.scan_toList]
  rfl

/-- A plain integer of any length is read as the narrower word if that holds its value. Otherwise it is rejected, or it
is promoted to the wider word, and only if that does not hold it either to the nearest double. -/
theorem parse_plain (settings : Settings) :
    (Fits 32 integer.value → parse settings integer.text = .ok (.int32 (.ofInt integer.value))) ∧
    (¬Fits 32 integer.value → settings.oversizedInteger = .reject → parse settings integer.text =
      .error ⟨some .int32, integer.text, if integer.value < 0 then .tooSmall else .tooLarge⟩) ∧
    (¬Fits 32 integer.value → Fits 64 integer.value → settings.oversizedInteger = .promote →
      parse settings integer.text = .ok (.int64 (.ofInt integer.value))) ∧
    (¬Fits 64 integer.value → settings.oversizedInteger = .promote →
      ∃ value : Double, parse settings integer.text = .ok (.double value) ∧ value.IsNearest integer.value ∧
        value.isNegative = integer.isNegative ∧
        (value = .infinity integer.isNegative ↔ (2 : ℚ) ^ 1024 - 2 ^ 970 ≤ |(integer.value : ℚ)|)) := by
  refine ⟨fun fits => ?_, fun wide reject => ?_, fun wide fits promote => ?_, fun wide promote => ?_⟩
  · rw [parse_eq, readPlain_narrow integer.mantissa_wellFormed integer.value_eq fits]
    rfl
  · rw [parse_eq, reject, readPlain_reject integer.mantissa_wellFormed integer.value_eq wide]
    rfl
  · rw [parse_eq, promote, readPlain_long integer.mantissa_wellFormed integer.value_eq wide fits]
    rfl
  · refine ⟨_, ?_, ofDecimal_nearest integer.value_eq rfl⟩
    rw [parse_eq, promote, readPlain_double integer.mantissa_wellFormed integer.value_eq wide]
    rfl

/-- The least integer and one below it, and a long integer that is outgrown behind leading zeros. -/
theorem parse_plain_outgrown :
    (Fits 32 (-2147483648) ∧ ¬Fits 32 (-2147483649) ∧ Fits 64 (-2147483649) ∧ ¬Fits 64 9223372036854775808) ∧
    parse .standard "-2147483648" = .ok (.int32 (-2147483648)) ∧
    parse ⟨true, true, .reject⟩ "-2147483649" = .error ⟨some .int32, "-2147483649", .tooSmall⟩ ∧
    parse .standard "-2147483649" = .ok (.int64 (-2147483649)) ∧
    ∃ value : Double, parse .standard "+009223372036854775808" = .ok (.double value) ∧
      value.IsNearest 9223372036854775808 ∧ value.isNegative = false := by
  let least : PlainInteger := ⟨⟨some true, "2147483648".toList⟩, List.all_eq_true.mp (by decide), by decide⟩
  let below : PlainInteger := ⟨⟨some true, "2147483649".toList⟩, List.all_eq_true.mp (by decide), by decide⟩
  let beyond : PlainInteger :=
    ⟨⟨some false, "009223372036854775808".toList⟩, List.all_eq_true.mp (by decide), by decide⟩
  refine ⟨by decide, ?_, ?_, ?_, ?_⟩
  · exact (parse_plain least .standard).1 (by decide)
  · exact (parse_plain below ⟨true, true, .reject⟩).2.1 (by decide) rfl
  · exact (parse_plain below .standard).2.2.1 (by decide) (by decide) rfl
  · obtain ⟨value, read, nearest, sign, -⟩ := (parse_plain beyond .standard).2.2.2 (by decide) rfl
    exact ⟨value, read, nearest, sign⟩

end PlainInteger

end ScriptNumbers.Literal
