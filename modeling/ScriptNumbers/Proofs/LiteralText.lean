import ScriptNumbers.Proofs.LiteralScan
import ScriptNumbers.Proofs.LiteralValues

/-! The text of a finite number with the suffix of its kind is a literal for that number. The text is a sign and a
mantissa, so the suffix is all that is behind the digits. -/

namespace ScriptNumbers.Literal

open Numeral

theorem parse_of_scan {text : String} {parts : Parts} (found : scan text.toList = .ok parts) (settings : Settings) :
    parse settings text =
      ((ofParts settings parts).mapError fun cause => ⟨cause.kind, text, cause.reason⟩).map Reading.number := by
  rw [parse, read, readChars, found]

private theorem scan_suffix (negative : Bool) {mantissa : Mantissa} (formed : mantissa.WellFormed) (kind : Kind) :
    scan (signed negative mantissa.text ++ [suffix kind]) = .ok ⟨negative, .decimal mantissa none, some kind⟩ := by
  have front : mantissa.text ∈ Grammar.mantissa := Grammar.mem_mantissa_iff.mpr ⟨mantissa, formed, rfl⟩
  have behind : [suffix kind] ∈ Grammar.optional Grammar.typeSuffix := mem_optional_typeSuffix.mpr ⟨some kind, rfl⟩
  cases negative with
  | false =>
    have legal : Pieces.WellFormed ⟨[], .plain mantissa.text, [suffix kind]⟩ := ⟨Or.inl rfl, .plain front, behind⟩
    exact scan_text legal ⟨by simp, .plain formed, rfl⟩
  | true =>
    have legal : Pieces.WellFormed ⟨['-'], .plain mantissa.text, [suffix kind]⟩ :=
      ⟨Grammar.mem_optional_sign.mpr (by simp), .plain front, behind⟩
    exact scan_text legal ⟨by simp, .plain formed, rfl⟩

theorem readDecimal_floating (oversized : Oversized) (negative : Bool) {mantissa : Mantissa} (front : mantissa.WellFormed)
    {exponent : Option (Marker × Exponent)} (behind : ∀ power ∈ exponent, power.2.WellFormed) {kind : Kind}
    (floating : kind.isFloating) :
    readDecimal oversized negative mantissa exponent (some kind) =
      .ok ⟨Number.ofDecimal kind negative (mantissa.scaled ((exponent.map (·.2.toInt)).getD 0)), false⟩ := by
  have typed : (kind.isFloating || isIntegral mantissa exponent) = true := by simp [floating]
  rw [readDecimal, readTyped, if_pos typed, readNumeral_floating negative front behind floating]
  rfl

theorem readDecimal_integer (oversized : Oversized) (negative : Bool) (digits : List Char) (kind : Kind) :
    readDecimal oversized negative ⟨digits, none⟩ none (some kind) =
      (readNumeral kind negative ⟨digits, none⟩ none).map (⟨·, false⟩) := by
  have typed : (kind.isFloating || isIntegral ⟨digits, none⟩ none) = true := by simp [isIntegral]
  rw [readDecimal, readTyped, if_pos typed]

section Enabled

variable {settings : Settings} {suffix : Option Kind} (enabled : suffix ≠ none → settings.typeSuffixes)
include enabled

theorem not_disabled : ¬(suffix.isSome && !settings.typeSuffixes) := by
  cases suffix with
  | none => exact Bool.false_ne_true
  | some kind => simp [enabled nofun]

theorem ofParts_decimal (negative : Bool) (mantissa : Mantissa) (exponent : Option (Marker × Exponent)) :
    ofParts settings ⟨negative, .decimal mantissa exponent, suffix⟩ =
      readDecimal settings.oversizedInteger negative mantissa exponent suffix := by
  rw [ofParts]
  dsimp only
  rw [if_neg (not_disabled enabled)]

theorem ofParts_hexadecimal (allowed : settings.hex) (negative : Bool) (digits : List Char) :
    ofParts settings ⟨negative, .hex digits, suffix⟩ = (readHex negative digits suffix).map (⟨·, false⟩) := by
  rw [ofParts]
  dsimp only
  rw [if_neg (not_disabled enabled), if_pos allowed]

end Enabled

private theorem readChars_suffix {settings : Settings} (enabled : settings.typeSuffixes) {negative : Bool}
    {mantissa : Mantissa} (formed : mantissa.WellFormed) {kind : Kind} {reading : Reading}
    (meaning : readDecimal settings.oversizedInteger negative mantissa none (some kind) = .ok reading) :
    readChars settings (signed negative mantissa.text ++ [suffix kind]) = .ok reading := by
  rw [readChars, scan_suffix negative formed kind]
  exact (ofParts_decimal (fun _ => enabled) negative mantissa none).trans meaning

private theorem readChars_integerText {settings : Settings} (enabled : settings.typeSuffixes) {kind : Kind}
    (integral : kind.isInteger) {value : Int} (fits : Fits (wordBits kind) value) :
    readChars settings (integerText value ++ [suffix kind]) = .ok ⟨ofWord kind value, false⟩ := by
  have formed : Mantissa.WellFormed ⟨Decimal.toDigits value.natAbs, none⟩ :=
    { whole := digits_toDigits _
      fraction := nofun
      some := List.append_ne_nil_of_left_ne_nil (Decimal.toDigits_ne_nil _) _ }
  have whole : withSign (value < 0) (Decimal.ofDigits (Decimal.toDigits value.natAbs)) = value := by
    rw [Decimal.ofDigits_toDigits, withSign_natAbs]
  have word : readNumeral kind (value < 0) ⟨Decimal.toDigits value.natAbs, none⟩ none = .ok (ofWord kind value) := by
    rw [readNumeral_of_fits integral _ formed (whole.symm ▸ fits), whole]
  have meaning := readDecimal_integer settings.oversizedInteger (value < 0) (Decimal.toDigits value.natAbs) kind
  rw [word] at meaning
  have read := readChars_suffix enabled formed meaning
  rwa [Mantissa.text, List.append_nil] at read

private theorem ofDecimal_positionalParts (kind : Kind) (negative : Bool) (decimal : Decimal) :
    Number.ofDecimal kind negative (decimal.positionalParts.scaled 0) = Number.ofDecimal kind negative decimal := by
  have same := decimal.toRat_scaled_positionalParts
  rw [Number.ofDecimal, Number.ofDecimal, Binary.ofDecimal_congr negative same, Binary.ofDecimal_congr negative same]

private theorem readChars_binaryText {settings : Settings} (enabled : settings.typeSuffixes) {kind : Kind}
    (floating : kind.isFloating) {format : Format} (negative : Bool) (rank : Fin format.limit) :
    readChars settings ((Binary.finite negative rank : Binary format).text ++ [suffix kind]) =
      .ok ⟨Number.ofDecimal kind negative (Decimal.shortest format .up rank), false⟩ := by
  have formed := (Decimal.shortest format .up rank).positionalParts_wellFormed
  have unscaled : ∀ power ∈ (none : Option (Marker × Exponent)), power.2.WellFormed := nofun
  have meaning := readDecimal_floating settings.oversizedInteger negative formed unscaled floating
  rw [Option.map_none, Option.getD_none, ofDecimal_positionalParts] at meaning
  rw [Binary.text, Decimal.positional_eq_text]
  exact readChars_suffix enabled formed meaning

private theorem readChars_chars {settings : Settings} (enabled : settings.typeSuffixes) {number : Number}
    (finite : number.isFinite) :
    readChars settings (number.chars ++ [suffix number.kind]) = .ok ⟨number, false⟩ := by
  cases number with
  | int32 value =>
    have fits : Fits (wordBits .int32) value.toInt := ⟨value.minValue_le_toInt, Int.lt_add_one_iff.mpr value.toInt_le⟩
    have read := readChars_integerText enabled rfl fits
    rwa [ofWord, if_neg (by decide), Int32.ofInt_toInt] at read
  | int64 value =>
    have fits : Fits (wordBits .int64) value.toInt := ⟨value.minValue_le_toInt, Int.lt_add_one_iff.mpr value.toInt_le⟩
    have read := readChars_integerText enabled rfl fits
    rwa [ofWord, if_pos rfl, Int64.ofInt_toInt] at read
  | float value =>
    cases value with
    | nan => cases finite
    | infinity => cases finite
    | finite negative rank =>
      refine (readChars_binaryText enabled rfl negative rank).trans ?_
      simp [Number.ofDecimal, Number.kind, Binary.ofDecimal_shortest]
  | double value =>
    cases value with
    | nan => cases finite
    | infinity => cases finite
    | finite negative rank =>
      refine (readChars_binaryText enabled rfl negative rank).trans ?_
      simp [Number.ofDecimal, Number.kind, Binary.ofDecimal_shortest]

/-- The text of a finite number, followed by the suffix of its kind, is a literal for that very number wherever
suffixes are allowed. -/
theorem parse_text_suffix {settings : Settings} (enabled : settings.typeSuffixes) {number : Number}
    (finite : number.isFinite) : parse settings (number.text.push (suffix number.kind)) = .ok number := by
  have chars : (number.text.push (suffix number.kind)).toList = number.chars ++ [suffix number.kind] := by
    rw [Number.text, String.toList_push, String.toList_ofList]
  rw [parse, read, chars, readChars_chars enabled finite]
  rfl

theorem parse_negativeZero_suffix : Settings.standard.typeSuffixes ∧ (Number.double (.zero true)).isFinite ∧
    parse .standard ((Number.double (.zero true)).text.push '#') = .ok (.double (.zero true)) := by
  have finite : (Number.double (.zero true)).isFinite := by decide
  exact ⟨rfl, finite, parse_text_suffix rfl finite⟩

end ScriptNumbers.Literal
