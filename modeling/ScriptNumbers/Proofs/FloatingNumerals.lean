import ScriptNumbers.Proofs.CorrectRounding
import ScriptNumbers.Proofs.LiteralGrammar
import ScriptNumbers.Proofs.NumberText

/-! Floating numerals of any length. Whatever the digits and the exponent are, the numeral is rounded once, from the
rational that it denotes, and blanks around it do not count. -/

namespace ScriptNumbers

namespace Numeral

def Mantissa.toRat (mantissa : Mantissa) : ℚ :=
  let fraction := mantissa.fraction.getD []
  Decimal.ofDigits mantissa.whole + Decimal.ofDigits fraction / 10 ^ fraction.length

/-- The value of a sign, a mantissa and an exponent. -/
def scientific (negative : Bool) (mantissa : Mantissa) (exponent : Int) : ℚ :=
  (if negative then -1 else 1) * mantissa.toRat * 10 ^ exponent

section Values

variable (negative : Bool) (mantissa : Mantissa) (exponent : Int)

private theorem Mantissa.toRat_scaled : (mantissa.scaled exponent).toRat = mantissa.toRat * 10 ^ exponent := by
  have ten : (10 : ℚ) ≠ 0 := by norm_num
  rw [Mantissa.scaled, Decimal.toRat, Mantissa.toRat, Decimal.ofDigits_append, zpow_sub₀ ten, zpow_natCast]
  push_cast
  field_simp

theorem scientific_eq :
    scientific negative mantissa exponent =
      if negative then -(mantissa.scaled exponent).toRat else (mantissa.scaled exponent).toRat := by
  rw [scientific, mul_assoc, Mantissa.toRat_scaled]
  cases negative <;> simp

theorem abs_scientific : |scientific negative mantissa exponent| = (mantissa.scaled exponent).toRat := by
  have nonneg := (mantissa.scaled exponent).toRat_nonneg
  rw [scientific_eq]
  cases negative with
  | false => exact abs_of_nonneg nonneg
  | true => exact (abs_neg _).trans (abs_of_nonneg nonneg)

end Values

/-- The power of ten behind a mantissa. -/
structure Power where
  letter : Char
  exponent : Exponent
  legal : letter ∈ ['e', 'E']
  formed : exponent.WellFormed

structure FloatingNumeral where
  sign : Option Bool
  mantissa : Mantissa
  power : Option Power
  formed : mantissa.WellFormed

def powerText : Option Power → List Char
  | none => []
  | some power => power.letter :: power.exponent.text

namespace FloatingNumeral

def text (numeral : FloatingNumeral) : List Char :=
  signText numeral.sign ++ (numeral.mantissa.text ++ powerText numeral.power)

def isNegative (numeral : FloatingNumeral) : Bool := numeral.sign == some true

def exponent (numeral : FloatingNumeral) : Int := (numeral.power.map (·.exponent.toInt)).getD 0

def toRat (numeral : FloatingNumeral) : ℚ := scientific numeral.isNegative numeral.mantissa numeral.exponent

section Words

open Literal
open scoped Computability

/-- The texts of floating numerals are the words of `[+-]? mantissa ( [eE] [+-]? [0-9]+ )?`. -/
theorem exists_text_iff {word : List Char} :
    word ∈ Grammar.optional Grammar.sign *
        (Grammar.mantissa * Grammar.optional (Grammar.oneOf (· ∈ ['e', 'E']) * Grammar.exponentValue)) ↔
      ∃ numeral : FloatingNumeral, numeral.text = word := by
  constructor
  · rintro ⟨_, before, _, ⟨_, front, _, present, rfl⟩, rfl⟩
    obtain ⟨sign, rfl⟩ := Grammar.mem_optional_sign_iff.mp before
    obtain ⟨mantissa, formed, rfl⟩ := Grammar.mem_mantissa_iff.mp front
    rcases present with rfl | ⟨_, ⟨letter, legal, rfl⟩, _, value, rfl⟩
    · exact ⟨⟨sign, mantissa, none, formed⟩, rfl⟩
    · obtain ⟨exponent, behind, rfl⟩ := Grammar.mem_exponentValue_iff.mp value
      exact ⟨⟨sign, mantissa, some ⟨letter, exponent, legal, behind⟩, formed⟩, rfl⟩
  · rintro ⟨⟨sign, mantissa, power, formed⟩, rfl⟩
    have before := Grammar.mem_optional_sign_iff.mpr ⟨sign, rfl⟩
    have front := Grammar.mem_mantissa_iff.mpr ⟨mantissa, formed, rfl⟩
    refine Language.append_mem_mul before (Language.append_mem_mul front ?_)
    cases power with
    | none => exact Or.inl rfl
    | some power =>
      have letter : [power.letter] ∈ Grammar.oneOf (· ∈ ['e', 'E']) := ⟨_, power.legal, rfl⟩
      have behind := Grammar.mem_exponentValue_iff.mpr ⟨power.exponent, power.formed, rfl⟩
      exact Or.inr (Language.append_mem_mul letter behind)

end Words

variable (numeral : FloatingNumeral)

private theorem decimal?_text : decimal? (numeral.mantissa.text ++ powerText numeral.power) =
    some (numeral.mantissa.scaled numeral.exponent) := by
  obtain ⟨sign, mantissa, power, formed⟩ := numeral
  cases power with
  | none =>
    rw [powerText, List.append_nil]
    exact Numeral.decimal?_text formed
  | some power =>
    obtain ⟨letter, exponent, legal, behind⟩ := power
    have marked : letter = 'e' ∨ letter = 'E' := by simpa using legal
    have ends : mantissa.EndsBefore (letter :: exponent.text) := by
      refine ⟨endsDigits_cons ?_, fun _ c first => ?_⟩
      · rcases marked with rfl | rfl <;> decide
      · cases first
        rcases marked with rfl | rfl <;> decide
    have split := Mantissa.split?_text formed ends
    have value := Exponent.split?_text behind endsDigits_nil
    rw [List.append_nil] at value
    simp [decimal?, powerText, split, marked, value, FloatingNumeral.exponent]

private theorem text_begins :
    ∃ c rest, numeral.mantissa.text ++ powerText numeral.power = c :: rest ∧ BeginsMantissa c := by
  obtain ⟨c, rest, text, begins⟩ := Mantissa.text_begins numeral.formed
  exact ⟨c, _, by rw [text, List.cons_append], begins⟩

private theorem floating_text {format : Format} : (floating numeral.text : Except Reason (Binary format)) =
    .ok (.ofDecimal numeral.isNegative (numeral.mantissa.scaled numeral.exponent)) := by
  have decimal := numeral.decimal?_text
  obtain ⟨c, rest, behind, begins⟩ := numeral.text_begins
  rw [behind] at decimal
  rw [text, behind]
  exact floating_signed numeral.sign begins decimal

private theorem text_ne_nil : numeral.text ≠ [] := by
  obtain ⟨c, rest, behind, -⟩ := numeral.text_begins
  rw [text, behind]
  exact List.append_ne_nil_of_right_ne_nil _ nofun

private theorem isBlank_of_mem_text : ∀ c ∈ numeral.text, Text.isBlank c = false := by
  obtain ⟨sign, mantissa, power, formed⟩ := numeral
  intro c member
  rw [text, List.mem_append, List.mem_append] at member
  rcases member with mark | digit | behind
  · exact isBlank_of_mem_signText c mark
  · exact Number.isBlank_of_mem_mantissa formed c digit
  · cases power with
    | none => cases behind
    | some power =>
      rw [powerText, Exponent.text_eq_append, List.mem_cons, List.mem_append] at behind
      rcases behind with rfl | mark | digit
      · have letter : power.letter = 'e' ∨ power.letter = 'E' := by simpa using power.legal
        rcases letter with letter | letter <;> rw [letter] <;> rfl
      · exact isBlank_of_mem_signText c mark
      · exact isBlank_of_isDigit (power.formed.digits c digit)

end FloatingNumeral

end Numeral

namespace Number

open Numeral

section Reading

variable (numeral : FloatingNumeral) {kind : Kind} (floating : kind.isFloating) {before behind : List Char}
  (blankBefore : ∀ c ∈ before, Text.isBlank c) (blankBehind : ∀ c ∈ behind, Text.isBlank c) {text : String}
  (whole : text.toList = before ++ numeral.text ++ behind)
include floating blankBefore blankBehind whole

private theorem ofText_floating : ofText kind text =
    .ok (ofDecimal kind numeral.isNegative (numeral.mantissa.scaled numeral.exponent)) := by
  have trimmed := trim_blanks blankBefore blankBehind numeral.text_ne_nil numeral.isBlank_of_mem_text
  rw [ofText, whole, trimmed]
  cases kind with
  | int32 | int64 => cases floating
  | float | double =>
    rw [ofChars, numeral.floating_text]
    rfl

/-- A floating numeral is read as the one number that its value is rounded to: infinite from the overflow threshold
on, zero up to half the least magnitude, and in any case under the sign of the text. -/
theorem ofText_floatingNumeral :
    ∃ number, ofText kind text = .ok number ∧
      (∀ other, IsRounded numeral.isNegative numeral.toRat kind other ↔ other = number) ∧
      (number.isFinite ↔ |numeral.toRat| < kind.overflow) ∧ (number.isZero ↔ |numeral.toRat| ≤ kind.underflow) := by
  have rounded := isRounded_ofDecimal numeral.isNegative floating (numeral.mantissa.scaled numeral.exponent)
  rw [← scientific_eq] at rounded
  refine ⟨_, ofText_floating numeral floating blankBefore blankBehind whole, fun other => rounded.iff_eq, ?_, ?_⟩
  · rw [FloatingNumeral.toRat, abs_scientific]
    exact isFinite_ofDecimal numeral.isNegative floating _
  · rw [FloatingNumeral.toRat, abs_scientific]
    exact isZero_ofDecimal numeral.isNegative floating _

end Reading

theorem ofText_numeral (numeral : FloatingNumeral) {kind : Kind} (floating : kind.isFloating) :
    ofText kind (String.ofList numeral.text) =
      .ok (ofDecimal kind numeral.isNegative (numeral.mantissa.scaled numeral.exponent)) := by
  have solid : ∀ c ∈ ([] : List Char), Text.isBlank c := List.forall_mem_nil _
  apply ofText_floating numeral floating solid solid
  rw [String.toList_ofList, List.nil_append, List.append_nil]

/-- Slightly less than half the least float, with blanks around and a negative sign, and the exponent that is a power of
ten of its own. -/
theorem ofText_floatingNumeral_extremes :
    (∃ number, ofText .float "\t-.7E-0045\u3000" = .ok number ∧ IsRounded true (-7 / 10 ^ 46) .float number ∧
      number.isZero) ∧
    ∃ number, ofText .double "1e100000000000000000000" = .ok number ∧ ¬number.isFinite := by
  let tiny : FloatingNumeral :=
    { sign := some true
      mantissa := ⟨[], some ['7']⟩
      power := some ⟨'E', ⟨some true, "0045".toList⟩, by decide, List.all_eq_true.mp (by decide), by decide⟩
      formed := ⟨nofun, List.all_eq_true.mp (by decide), by decide⟩ }
  let huge : FloatingNumeral :=
    { sign := none
      mantissa := ⟨['1'], none⟩
      power := some ⟨'e', ⟨none, "100000000000000000000".toList⟩, by decide, List.all_eq_true.mp (by decide), by decide⟩
      formed := ⟨List.all_eq_true.mp (by decide), nofun, by decide⟩ }
  have tinyValue : tiny.toRat = -7 / 10 ^ 46 := by
    have exponent : tiny.exponent = -45 := by decide
    have mantissa : tiny.mantissa.toRat = 7 / 10 := by decide +kernel
    rw [FloatingNumeral.toRat, scientific, mantissa, exponent]
    norm_num [FloatingNumeral.isNegative, tiny]
  have hugeValue : Kind.double.overflow ≤ |huge.toRat| := by
    have exponent : 400 ≤ huge.exponent := by decide
    have mantissa : huge.mantissa.toRat = 1 := by decide +kernel
    have large : (10 : ℚ) ^ (400 : Int) ≤ 10 ^ huge.exponent := zpow_le_zpow_right₀ (by norm_num) exponent
    have value : huge.toRat = 10 ^ huge.exponent := by
      rw [FloatingNumeral.toRat, scientific, mantissa, mul_one]
      exact one_mul _
    rw [value, abs_of_pos (Decimal.ten_zpow_pos _)]
    rw [zpow_ofNat] at large
    rw [Kind.overflow, if_pos rfl]
    exact le_trans (by decide +kernel) large
  have solid : ∀ c ∈ ([] : List Char), Text.isBlank c := List.forall_mem_nil _
  have tab : ∀ c ∈ ['\t'], Text.isBlank c := List.forall_mem_singleton.mpr rfl
  have wide : ∀ c ∈ ['\u3000'], Text.isBlank c := List.forall_mem_singleton.mpr rfl
  have tinyWhole : "\t-.7E-0045\u3000".toList = ['\t'] ++ tiny.text ++ ['\u3000'] := by decide
  have hugeWhole : "1e100000000000000000000".toList = [] ++ huge.text ++ [] := by decide
  have float : Kind.float.isFloating := rfl
  have double : Kind.double.isFloating := rfl
  constructor
  · obtain ⟨number, read, rounded, -, zero⟩ := ofText_floatingNumeral tiny float tab wide tinyWhole
    rw [tinyValue] at rounded zero
    refine ⟨number, read, (rounded number).mpr rfl, zero.mpr ?_⟩
    rw [Kind.underflow, if_neg (by decide)]
    decide +kernel
  · obtain ⟨number, read, -, finite, -⟩ := ofText_floatingNumeral huge double solid solid hugeWhole
    exact ⟨number, read, fun inside => absurd hugeValue (not_le.mpr (finite.mp inside))⟩

end Number

end ScriptNumbers
