import ScriptNumbers.Proofs.DoubleScaling
import ScriptNumbers.Proofs.FloatingNumerals
import ScriptNumbers.Proofs.JsonTexts
import ScriptNumbers.Proofs.Words

/-! Numbers marked with an integer kind. Only integers of its range are read, each as exactly what is written. Whatever
else a number may be it is refused, for its value if a word holds it and otherwise as a double. The double may be
infinite, and then the text counts as no JSON: the digits that are scaled are never more than the number, but scaling
rounds up to three times. -/

namespace ScriptNumbers.Json

open Format Decimal Numeral Literal

private theorem appendDigits_lt {digits : List Char} {start : Nat} (held : start < UInt64.size) :
    (appendDigits start digits).1 < UInt64.size := by
  induction digits generalizing start with
  | nil => exact held
  | cons c rest ih =>
    rw [appendDigits]
    split
    next fits => exact ih fits
    next => exact held

private theorem mul_le_ofDigitChars (digits : List Char) (start : Nat) :
    start * 10 ^ digits.length ≤ Nat.ofDigitChars 10 digits start := by
  rw [Nat.ofDigitChars_eq_ofDigitChars_zero, Nat.mul_comm start]
  exact Nat.le_add_right _ _

/-- Digits that are left count at least as zeros. -/
theorem appendDigits_mul_le (digits : List Char) (start : Nat) :
    (appendDigits start digits).1 * 10 ^ (appendDigits start digits).2.length ≤ Nat.ofDigitChars 10 digits start := by
  induction digits generalizing start with
  | nil => exact mul_le_ofDigitChars [] start
  | cons c rest ih =>
    rw [appendDigits]
    split
    next => exact ih _
    next => exact mul_le_ofDigitChars (c :: rest) start

/-- The first digit that is left is one that the word cannot hold. -/
theorem appendDigits_full {digits : List Char} {start : Nat} {c : Char} {more : List Char}
    (left : (appendDigits start digits).2 = c :: more) :
    UInt64.size ≤ 10 * (appendDigits start digits).1 + digitValue c ∧
      (10 * (appendDigits start digits).1 + digitValue c) * 10 ^ more.length ≤ Nat.ofDigitChars 10 digits start := by
  induction digits generalizing start with
  | nil => cases left
  | cons d rest ih =>
    rw [appendDigits] at left ⊢
    split at left
    next fits =>
      rw [if_pos fits]
      exact ih left
    next beyond =>
      cases left
      rw [if_neg beyond]
      exact ⟨not_lt.mp beyond, mul_le_ofDigitChars more _⟩

/-- Where a digit did not fit, those that are appended instead are less. -/
theorem appendDigits_instead {digits : List Char} (run : Digits digits) {start digit : Nat}
    (full : UInt64.size ≤ 10 * start + digit) :
    (appendDigits start digits).1 * 10 ^ ((appendDigits start digits).2.length + 1) ≤
      (10 * start + digit) * 10 ^ digits.length := by
  cases digits with
  | nil =>
    simp only [appendDigits, List.length_nil]
    omega
  | cons d rest =>
    by_cases fits : 10 * start + digitValue d < UInt64.size
    · have read := appendDigits_mul_le (d :: rest) start
      have behind := ofDigits_lt fun other member => run other (List.mem_cons_of_mem d member)
      rw [Nat.ofDigitChars_cons, Nat.ofDigitChars_eq_ofDigitChars_zero, Nat.mul_comm (10 ^ rest.length)] at read
      rw [ofDigits] at behind
      have next : 10 * start + digitValue d + 1 ≤ 10 * start + digit := by omega
      calc (appendDigits start (d :: rest)).1 * 10 ^ ((appendDigits start (d :: rest)).2.length + 1)
          = (appendDigits start (d :: rest)).1 * 10 ^ (appendDigits start (d :: rest)).2.length * 10 := by
            rw [pow_succ, mul_assoc]
        _ ≤ (10 * start + digitValue d + 1) * 10 ^ rest.length * 10 := by
            refine Nat.mul_le_mul_right 10 (read.trans ?_)
            rw [Nat.add_one_mul (10 * start + digitValue d)]
            exact Nat.add_le_add_left behind.le _
        _ ≤ (10 * start + digit) * 10 ^ rest.length * 10 :=
            Nat.mul_le_mul_right 10 (Nat.mul_le_mul_right _ next)
        _ = (10 * start + digit) * 10 ^ (d :: rest).length := by rw [List.length_cons, pow_succ, mul_assoc]
    · rw [appendDigits, if_neg fits, List.length_cons, pow_succ', ← mul_assoc]
      exact Nat.mul_le_mul_right _ (by omega)

private theorem leading_lt (token : NumberToken) : token.leading.digits < UInt64.size :=
  appendDigits_lt (appendDigits_lt (by decide))

/-- What is left of the digits is never more than they are. -/
theorem leading_mul_le (whole : List Char) {fraction : List Char} (run : Digits fraction) :
    (appendDigits (appendDigits 0 whole).1 fraction).1 *
        10 ^ ((appendDigits 0 whole).2.length + (appendDigits (appendDigits 0 whole).1 fraction).2.length) ≤
      ofDigits (whole ++ fraction) := by
  have front := appendDigits_mul_le whole 0
  have behind := appendDigits_mul_le fraction (appendDigits 0 whole).1
  rw [ofDigits_append, ofDigits]
  cases left : (appendDigits 0 whole).2 with
  | nil =>
    rw [left, List.length_nil, pow_zero, Nat.mul_one] at front
    rw [List.length_nil, Nat.zero_add]
    refine behind.trans ?_
    rw [Nat.ofDigitChars_eq_ofDigitChars_zero, Nat.mul_comm (10 ^ fraction.length)]
    exact Nat.add_le_add_right (Nat.mul_le_mul_right _ front) _
  | cons c more =>
    obtain ⟨full, above⟩ := appendDigits_full left
    have instead := appendDigits_instead run full
    generalize appendDigits 0 whole = taken at *
    generalize appendDigits taken.1 fraction = all at *
    calc all.1 * 10 ^ ((c :: more).length + all.2.length)
        = all.1 * 10 ^ (all.2.length + 1) * 10 ^ more.length := by
          rw [mul_assoc, ← pow_add, List.length_cons]
          congr 2
          omega
      _ ≤ (10 * taken.1 + digitValue c) * 10 ^ fraction.length * 10 ^ more.length := Nat.mul_le_mul_right _ instead
      _ = (10 * taken.1 + digitValue c) * 10 ^ more.length * 10 ^ fraction.length := mul_right_comm _ _ _
      _ ≤ Nat.ofDigitChars 10 whole 0 * 10 ^ fraction.length := Nat.mul_le_mul_right _ above
      _ ≤ _ := Nat.le_add_right _ _

namespace NumberToken

def exactExponent (token : NumberToken) : Int := (token.exponent.map (·.toInt)).getD 0

/-- The number that a token writes. -/
def toRat (token : NumberToken) : ℚ := Numeral.scientific token.negative token.mantissa token.exactExponent

variable {token : NumberToken}

private theorem toRat_leading_le (formed : token.WellFormed) : token.leading.toRat ≤ |token.toRat| := by
  have run : Digits (token.mantissa.fraction.getD []) := by
    cases some : token.mantissa.fraction with
    | none => nofun
    | some fraction => exact (formed.fraction fraction some).1
  have fewer : (_ : ℚ) ≤ _ := Nat.cast_le.mpr (leading_mul_le token.mantissa.whole run)
  have ten : (10 : ℚ) ≠ 0 := by norm_num
  have exponent : token.leading.exponent =
      ((appendDigits 0 token.mantissa.whole).2.length +
        (appendDigits (appendDigits 0 token.mantissa.whole).1 (token.mantissa.fraction.getD [])).2.length : Nat) +
      (token.exactExponent - (token.mantissa.fraction.getD []).length) := by
    rw [leading, exactExponent]
    push_cast
    ring
  rw [toRat, abs_scientific, Mantissa.scaled, Decimal.toRat, Decimal.toRat, exponent, zpow_add₀ ten, zpow_natCast,
    ← mul_assoc]
  push_cast at fewer
  exact mul_le_mul_of_nonneg_right fewer (ten_zpow_pos _).le

/-- The number that the digits before the point write. -/
def toInt (token : NumberToken) : Int := withSign token.negative (ofDigits token.mantissa.whole)

private theorem toRat_of_isInteger (integer : token.isInteger) : token.toRat = token.toInt := by
  obtain ⟨negative, ⟨whole, fraction⟩, exponent⟩ := token
  obtain ⟨noFraction, noExponent⟩ := Bool.and_eq_true_iff.mp integer
  obtain rfl := Option.isNone_iff_eq_none.mp noFraction
  obtain rfl := Option.isNone_iff_eq_none.mp noExponent
  have nothing : ofDigits [] = 0 := rfl
  cases negative <;> simp [toRat, toInt, Numeral.scientific, Mantissa.toRat, exactExponent, withSign, nothing]

/-- An integer as it is written: without point and exponent, and without a sign if it is zero. -/
def WritesInteger (token : NumberToken) (value : Int) : Prop :=
  token.isInteger ∧ token.toRat = value ∧ (token.negative → value ≠ 0)

instance (token : NumberToken) (value : Int) : Decidable (token.WritesInteger value) :=
  inferInstanceAs (Decidable (_ ∧ _ ∧ _))

theorem writesInteger_iff {value : Int} :
    token.WritesInteger value ↔ token.isInteger ∧ token.toInt = value ∧ (token.negative → value ≠ 0) := by
  refine and_congr_right fun integer => and_congr_left fun _ => ?_
  rw [toRat_of_isInteger integer, Int.cast_inj]

end NumberToken

/-- The integers of a signed or an unsigned word of 64 bits. -/
def IsWord (value : Int) : Prop := -2 ^ 63 ≤ value ∧ value < 2 ^ 64

instance (value : Int) : Decidable (IsWord value) := inferInstanceAs (Decidable (_ ∧ _))

theorem isWord_of_fits {kind : Kind} {value : Int} (fits : Fits (wordBits kind) value) : IsWord value := by
  have wide : wordBits kind ≤ 64 := by cases kind <;> decide
  obtain ⟨low, high⟩ := fits.mono wide
  exact ⟨low, high.trans (by decide)⟩

section Value

variable {token : NumberToken} {value : Int}

private theorem value_eq (token : NumberToken) :
    token.value = if token.isInteger ∧ (token.negative → token.toInt ≠ 0) ∧ IsWord token.toInt then
      .ok (.integer token.toInt) else token.floating := by
  have least : Int64.minValue.toInt = -2 ^ 63 := by decide
  have size : UInt64.size = 2 ^ 64 := rfl
  have same : token.toInt = withSign token.negative (ofDigits token.mantissa.whole) := rfl
  rw [NumberToken.value]
  generalize ofDigits token.mantissa.whole = magnitude at same ⊢
  cases token.isInteger with
  | false => rw [if_neg (by simp), if_neg (by simp), if_neg (by simp)]
  | true =>
    cases sign : token.negative with
    | false =>
      have same : token.toInt = magnitude := by rw [same, sign]; rfl
      by_cases short : magnitude < UInt64.size
      · rw [if_pos (by simp [short]), if_pos ⟨rfl, nofun, by omega, by omega⟩, same]
      · rw [if_neg (by simp [short]), if_neg (by simp), if_neg]
        rintro ⟨-, -, -, high⟩
        omega
    | true =>
      have same : token.toInt = -magnitude := by rw [same, sign]; rfl
      rw [if_neg (by simp)]
      by_cases reached : 0 < magnitude ∧ Int64.minValue.toInt ≤ -magnitude
      · rw [if_pos (by simp only [reached, decide_true, Bool.and_self]),
          if_pos ⟨rfl, fun _ => by omega, by omega, by omega⟩, same]
      · rw [if_neg (by simpa using reached), if_neg]
        rintro ⟨-, some, low, -⟩
        have := some rfl
        omega

theorem value_of_isWord (writes : token.WritesInteger value) (word : IsWord value) :
    token.value = .ok (.integer value) := by
  obtain ⟨integer, rfl, some⟩ := NumberToken.writesInteger_iff.mp writes
  rw [value_eq, if_pos ⟨integer, some, word⟩]

private theorem value_of_not_isWord (other : ∀ value, token.WritesInteger value → ¬IsWord value) :
    token.value = token.floating := by
  rw [value_eq, if_neg]
  rintro ⟨integer, some, word⟩
  exact other token.toInt (NumberToken.writesInteger_iff.mpr ⟨integer, rfl, some⟩) word

end Value

/-- A number is refused for its content, with a message that names it. -/
def RefusedWith (text message : String) : Prop :=
  ∃ fault, readNumber text = .error (.data fault) ∧ fault.message = message

private theorem quoted_message (front word content expected : String) :
    front ++ (word ++ content ++ "`") ++ ", expected " ++ expected =
      front ++ word ++ content ++ "`, expected " ++ expected := by
  have quote : "`" ++ ", expected " = "`, expected " := by decide
  rw [← quote]
  simp only [String.append_assoc]

private theorem message_outOfRange (value : Int) (kind : Kind) : (DataFault.outOfRange value kind).message =
    "invalid value: integer `" ++ String.ofList (integerText value) ++ "`, expected " ++
      (Expected.number kind).describe :=
  quoted_message "invalid value: " "integer `" _ _

private theorem message_floating (value : Double) (kind : Kind) :
    (DataFault.invalidType (.floating value) (.number kind)).message =
      "invalid type: floating point `" ++ String.ofList (doubleText value) ++ "`, expected " ++
        (Expected.number kind).describe :=
  quoted_message "invalid type: " "floating point `" _ _

section IntegerKind

variable {kind : Kind} (integral : kind.isInteger)
include integral

theorem toNumber_of_fits {value : Int} (fits : Fits (wordBits kind) value) :
    (Value.integer value).toNumber kind = .ok (ofWord kind value) := by
  have high := fits.le_sub_one
  cases kind with
  | int32 => exact if_pos ⟨fits.1, high⟩
  | int64 => exact if_pos ⟨fits.1, high⟩
  | float | double => cases integral

private theorem toNumber_of_not_fits {value : Int} (outside : ¬Fits (wordBits kind) value) :
    (Value.integer value).toNumber kind = .error (.data (.outOfRange value kind)) := by
  cases kind with
  | int32 => exact if_neg fun inside => outside ⟨inside.1, Int.lt_of_le_sub_one inside.2⟩
  | int64 => exact if_neg fun inside => outside ⟨inside.1, Int.lt_of_le_sub_one inside.2⟩
  | float | double => cases integral

private theorem toNumber_floating (value : Double) :
    (Value.floating value).toNumber kind = .error (.data (.invalidType (.floating value) (.number kind))) := by
  cases kind with
  | int32 | int64 => rfl
  | float | double => cases integral

variable {text : String} {token : NumberToken} (marked : Lexes text.toList (markedTokens kind token))
include marked

private theorem readNumber_of_isWord {value : Int} (writes : token.WritesInteger value) (word : IsWord value) :
    readNumber text =
      if Fits (wordBits kind) value then .ok (ofWord kind value) else .error (.data (.outOfRange value kind)) := by
  rw [readNumber_of_lexes marked, value_of_isWord writes word, Except.bind]
  split
  next fits => exact toNumber_of_fits integral fits
  next outside => exact toNumber_of_not_fits integral outside

private theorem readNumber_of_not_isWord (other : ∀ value, token.WritesInteger value → ¬IsWord value) :
    readNumber text = match scale token.leading with
      | .finite _ rank => .error (.data (.invalidType (.floating (.finite token.negative rank)) (.number kind)))
      | _ => .error .malformed := by
  rw [readNumber_of_lexes marked, value_of_not_isWord other]
  rcases scale_cases (leading_lt token) with ⟨rank, scaled⟩ | scaled
  · rw [floating_of_finite scaled, scaled]
    exact toNumber_floating integral _
  · rw [NumberToken.floating, scaled]
    rfl

private theorem exists_of_readNumber_ok {number : Number} (read : readNumber text = .ok number) :
    ∃ value, token.WritesInteger value ∧ Fits (wordBits kind) value ∧ number = ofWord kind value := by
  by_cases word : ∃ value, token.WritesInteger value ∧ IsWord value
  · obtain ⟨value, writes, word⟩ := word
    rw [readNumber_of_isWord integral marked writes word] at read
    split at read
    next fits =>
      cases read
      exact ⟨value, writes, fits, rfl⟩
    next => cases read
  · rw [readNumber_of_not_isWord integral marked fun value writes inside => word ⟨value, writes, inside⟩] at read
    split at read <;> cases read

/-- An integer kind reads the integers of its range and nothing else, and each of them as it is written. Other integers
of a word are refused by their value. Everything else is refused as a double, or as no JSON where scaling leads to
infinity, which it does not up to the third largest double. -/
theorem readNumber_integerKind :
    ((∃ number, readNumber text = .ok number) ↔ ∃ value, token.WritesInteger value ∧ Fits (wordBits kind) value) ∧
    (∀ number, readNumber text = .ok number →
      number.kind = kind ∧ ∃ value, token.WritesInteger value ∧ number.toInt? = some value) ∧
    (∀ value, token.WritesInteger value → IsWord value → ¬Fits (wordBits kind) value →
      RefusedWith text ("invalid value: integer `" ++ String.ofList (integerText value) ++ "`, expected " ++
        (Expected.number kind).describe)) ∧
    ((∀ value, token.WritesInteger value → ¬IsWord value) →
      (∀ rank, scale token.leading = .finite false rank →
        RefusedWith text ("invalid type: floating point `" ++
          String.ofList (doubleText (.finite token.negative rank)) ++ "`, expected " ++
            (Expected.number kind).describe)) ∧
      ((∀ rank, scale token.leading ≠ .finite false rank) → readNumber text = .error .malformed) ∧
      (|token.toRat| ≤ double.magnitude (double.limit - 3) → ∃ rank, scale token.leading = .finite false rank)) := by
  refine ⟨⟨?_, ?_⟩, ?_, ?_, fun other => ⟨?_, ?_, ?_⟩⟩
  · rintro ⟨number, read⟩
    obtain ⟨value, writes, fits, -⟩ := exists_of_readNumber_ok integral marked read
    exact ⟨value, writes, fits⟩
  · rintro ⟨value, writes, fits⟩
    exact ⟨_, (readNumber_of_isWord integral marked writes (isWord_of_fits fits)).trans (if_pos fits)⟩
  · intro number read
    obtain ⟨value, writes, fits, rfl⟩ := exists_of_readNumber_ok integral marked read
    exact ⟨kind_ofWord integral value, value, writes, by rw [toInt?_ofWord, fits.bmod_eq]⟩
  · intro value writes word outside
    exact ⟨_, (readNumber_of_isWord integral marked writes word).trans (if_neg outside), message_outOfRange value kind⟩
  · intro rank scaled
    exact ⟨_, by rw [readNumber_of_not_isWord integral marked other, scaled], message_floating _ kind⟩
  · intro infinite
    rw [readNumber_of_not_isWord integral marked other]
    rcases scale_cases (leading_lt token) with ⟨rank, scaled⟩ | scaled
    · exact absurd scaled (infinite rank)
    · rw [scaled]
  · intro inside
    have formed := wellFormed_of_lexes marked (show .number token ∈ markedTokens kind token by simp [markedTokens])
    refine scale_before_last (leading_lt token) (double.rankOfRat_le_of_le_magnitude ?_)
    rw [abs_of_nonneg token.leading.toRat_nonneg]
    exact (NumberToken.toRat_leading_le formed).trans inside

end IntegerKind

theorem readNumber_integerKind_bounds :
    (∃ number, readNumber "\x7b\"Int64\":-9223372036854775808\x7d" = .ok number ∧ number.kind = .int64) ∧
    RefusedWith "\x7b \"Int32\": 2147483648 \x7d" "invalid value: integer `2147483648`, expected i32" ∧
    RefusedWith "\x7b\"Int64\":-0\x7d" "invalid type: floating point `-0.0`, expected i64" := by
  refine ⟨?_, ?_, ?_⟩
  · have marked : Lexes "\x7b\"Int64\":-9223372036854775808\x7d".toList
        (markedTokens .int64 ⟨true, ⟨"9223372036854775808".toList, none⟩, none⟩) := by decide +kernel
    obtain ⟨accepted, exact, -⟩ := readNumber_integerKind rfl marked
    obtain ⟨number, read⟩ := accepted.mpr ⟨-9223372036854775808, by decide +kernel, by decide⟩
    exact ⟨number, read, (exact number read).1⟩
  · have marked : Lexes "\x7b \"Int32\": 2147483648 \x7d".toList
        (markedTokens .int32 ⟨false, ⟨"2147483648".toList, none⟩, none⟩) := by decide +kernel
    have refused := (readNumber_integerKind rfl marked).2.2.1 2147483648 (by decide +kernel) (by decide) (by decide)
    have message : "invalid value: integer `" ++ String.ofList (integerText 2147483648) ++ "`, expected " ++
        (Expected.number .int32).describe = "invalid value: integer `2147483648`, expected i32" := by decide +kernel
    rwa [message] at refused
  · have marked : Lexes "\x7b\"Int64\":-0\x7d".toList (markedTokens .int64 ⟨true, ⟨['0'], none⟩, none⟩) := by
      decide +kernel
    have signed (value : Int) (writes : NumberToken.WritesInteger ⟨true, ⟨['0'], none⟩, none⟩ value) :
        ¬IsWord value := by
      obtain ⟨-, rfl, some⟩ := NumberToken.writesInteger_iff.mp writes
      exact absurd (some rfl) (by decide)
    have refused := ((readNumber_integerKind rfl marked).2.2.2 signed).1 ⟨0, double.limit_pos⟩ (by decide +kernel)
    have message : "invalid type: floating point `" ++
        String.ofList (doubleText (.finite true ⟨0, double.limit_pos⟩)) ++ "`, expected " ++
        (Expected.number .int64).describe = "invalid type: floating point `-0.0`, expected i64" := by decide +kernel
    rwa [message] at refused

/-- A number below the largest double may be refused as no JSON, since its digits times their power of ten are an
infinite double. -/
theorem readNumber_belowLargest : ∃ token : NumberToken,
    Lexes "\x7b\"Int32\":1797693134862315700e290\x7d".toList (markedTokens .int32 token) ∧
      |token.toRat| ≤ double.magnitude (double.limit - 1) ∧
      readNumber "\x7b\"Int32\":1797693134862315700e290\x7d" = .error .malformed := by
  refine ⟨⟨false, ⟨"1797693134862315700".toList, none⟩, some ⟨none, "290".toList⟩⟩, ?_, ?_, ?_⟩
  · decide +kernel
  · decide +kernel
  · decide +kernel

end ScriptNumbers.Json
