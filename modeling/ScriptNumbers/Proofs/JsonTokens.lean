import ScriptNumbers.Json.Number
import ScriptNumbers.Proofs.Numerals

/-! The number tokens of a JSON text. A number in front of other text is read as one token, whatever the number is, as
long as the text does not go on with it. -/

namespace ScriptNumbers.Json

open Numeral

/-- A number as the grammar of JSON has it. -/
structure NumberToken.WellFormed (token : NumberToken) : Prop where
  whole : Digits token.mantissa.whole
  some : token.mantissa.whole ≠ []
  zero : ∀ rest, token.mantissa.whole = '0' :: rest → rest = []
  fraction : ∀ fraction, token.mantissa.fraction = .some fraction → Digits fraction ∧ fraction ≠ []
  exponent : ∀ exponent, token.exponent = .some exponent → Digits exponent.digits ∧ exponent.digits ≠ []

/-- The letter in front of an exponent has either case. -/
def exponentText (letter : Char) : Option Exponent → List Char
  | none => []
  | some exponent => letter :: exponent.text

def NumberToken.textWith (letter : Char) (token : NumberToken) : List Char :=
  signed token.negative (token.mantissa.text ++ exponentText letter token.exponent)

def NumberToken.text (token : NumberToken) : List Char := token.textWith 'e'

/-- A text behind which a number ends. -/
def EndsNumber (rest : List Char) : Prop := ∀ c ∈ rest.head?, ¬c.isDigit ∧ c ≠ '.' ∧ c ≠ 'e' ∧ c ≠ 'E'

variable {rest : List Char}

private theorem EndsNumber.endsDigits (ends : EndsNumber rest) : EndsDigits rest := fun c first => (ends c first).1

private theorem digits_run {run : List Char} (digit : Digits run) (some : run ≠ []) (stops : EndsDigits rest) :
    digits (run ++ rest) = .ok (run, rest) := by
  have front := takeWhile_digits digit stops
  have behind := dropWhile_digits digit stops
  cases run with
  | nil => exact absurd rfl some
  | cons c run =>
    rw [List.cons_append] at front behind ⊢
    rw [digits, if_pos (digit c List.mem_cons_self), front, behind]

private theorem wholeDigits_run {run : List Char} (digit : Digits run) (some : run ≠ [])
    (zero : ∀ rest, run = '0' :: rest → rest = []) (stops : EndsDigits rest) :
    wholeDigits (run ++ rest) = .ok (run, rest) := by
  cases run with
  | nil => exact absurd rfl some
  | cons c run =>
    by_cases first : c = '0'
    · subst first
      obtain rfl := zero run rfl
      cases rest with
      | nil => rfl
      | cons c rest => exact if_neg (stops c rfl)
    · rw [← digits_run digit some stops, List.cons_append, wholeDigits]
      exact fun c rest same => absurd (List.cons.inj same).1 first

private theorem fractionDigits_none (point : ∀ c ∈ rest.head?, c ≠ '.') : fractionDigits rest = .ok (none, rest) := by
  rw [fractionDigits]
  rintro tail rfl
  exact point '.' rfl rfl

private theorem fractionDigits_some {run : List Char} (digit : Digits run) (some : run ≠ []) (stops : EndsDigits rest) :
    fractionDigits ('.' :: (run ++ rest)) = .ok (.some run, rest) := by
  rw [fractionDigits, digits_run digit some stops]
  rfl

section Letter

variable {letter : Char} (legal : letter = 'e' ∨ letter = 'E')
include legal

private theorem exponentPart_text {exponent : Option Exponent}
    (formed : ∀ present, exponent = .some present → Digits present.digits ∧ present.digits ≠ [])
    (ends : EndsNumber rest) : exponentPart (exponentText letter exponent ++ rest) = .ok (exponent, rest) := by
  cases exponent with
  | none =>
    cases rest with
    | nil => rfl
    | cons c rest =>
      obtain ⟨-, -, lower, upper⟩ := ends c rfl
      exact if_neg (not_or.mpr ⟨lower, upper⟩)
  | some present =>
    obtain ⟨digit, some⟩ := formed present rfl
    rw [exponentText, List.cons_append, exponentPart, if_pos legal, splitSign_text digit some]
    dsimp only
    rw [digits_run digit some ends.endsDigits]
    rfl

private theorem endsDigits_exponentText (exponent : Option Exponent) (ends : EndsNumber rest) :
    EndsDigits (exponentText letter exponent ++ rest) := by
  cases exponent with
  | none => exact ends.endsDigits
  | some present => exact endsDigits_cons (by rcases legal with rfl | rfl <;> decide)

private theorem unsignedNumber_text {token : NumberToken} (formed : token.WellFormed) (ends : EndsNumber rest) :
    unsignedNumber token.negative (token.mantissa.text ++ exponentText letter token.exponent ++ rest) =
      .ok (token, rest) := by
  obtain ⟨negative, ⟨whole, fraction⟩, exponent⟩ := token
  have behind := endsDigits_exponentText legal exponent ends
  have exponentRead := exponentPart_text legal formed.exponent ends
  cases fraction with
  | none =>
    have point : ∀ c ∈ (exponentText letter exponent ++ rest).head?, c ≠ '.' := by
      cases exponent with
      | none => exact fun c first => (ends c first).2.1
      | some present =>
        intro c first
        cases first
        rcases legal with rfl | rfl <;> decide
    have wholeRead := wholeDigits_run formed.whole formed.some formed.zero behind
    dsimp only at wholeRead exponentRead
    simp only [Mantissa.text, List.append_nil, List.append_assoc, unsignedNumber, wholeRead, bind, Except.bind,
      fractionDigits_none point, exponentRead, pure, Except.pure]
  | some fraction =>
    obtain ⟨digit, some⟩ := formed.fraction fraction rfl
    have stops : EndsDigits ('.' :: (fraction ++ (exponentText letter exponent ++ rest))) := endsDigits_cons (by decide)
    have wholeRead := wholeDigits_run formed.whole formed.some formed.zero stops
    dsimp only at wholeRead exponentRead
    simp only [Mantissa.text, List.append_assoc, List.cons_append, unsignedNumber, wholeRead, bind, Except.bind,
      fractionDigits_some digit some behind, exponentRead, pure, Except.pure]

theorem numberToken_textWith {token : NumberToken} (formed : token.WellFormed) (ends : EndsNumber rest) :
    numberToken (token.textWith letter ++ rest) = .ok (token, rest) := by
  have read := unsignedNumber_text legal formed ends
  obtain ⟨negative, mantissa, exponent⟩ := token
  cases negative with
  | true => exact read
  | false =>
    obtain ⟨whole, fraction⟩ := mantissa
    cases whole with
    | nil => exact absurd rfl formed.some
    | cons c whole =>
      have other : c ≠ '-' := isDigit_ne (formed.whole c List.mem_cons_self) (by decide)
      rw [← read, NumberToken.textWith, signed, if_neg Bool.false_ne_true]
      rw [Mantissa.text, List.cons_append, List.cons_append, List.cons_append, numberToken]
      exact fun tail same => other (List.cons.inj same).1

end Letter

theorem NumberToken.text_begins (letter : Char) {token : NumberToken} (formed : token.WellFormed) :
    ∃ c tail, token.textWith letter = c :: tail ∧ (c = '-' ∨ c.isDigit) := by
  obtain ⟨negative, ⟨whole, fraction⟩, exponent⟩ := token
  cases negative with
  | true => exact ⟨'-', _, rfl, Or.inl rfl⟩
  | false =>
    cases whole with
    | nil => exact absurd rfl formed.some
    | cons c whole => exact ⟨c, _, rfl, Or.inr (formed.whole c List.mem_cons_self)⟩

theorem next_number {c : Char} (begins : c = '-' ∨ c.isDigit) :
    next c rest = (numberToken (c :: rest)).map fun (value, rest) => (.number value, rest) := by
  rcases begins with rfl | digit
  · rfl
  · rw [next, if_pos (Or.inr digit)]
    all_goals
      rintro rfl
      exact absurd digit (by decide)

theorem isBlank_of_begins {c : Char} (begins : c = '-' ∨ c.isDigit) : isBlank c = false := by
  rcases begins with rfl | digit
  · rfl
  · have other {blank : Char} (foreign : ¬blank.isDigit) : c ≠ blank := isDigit_ne digit foreign
    simp [isBlank, other (show ¬ ' '.isDigit by decide), other (show ¬ '\n'.isDigit by decide),
      other (show ¬ '\t'.isDigit by decide), other (show ¬ '\r'.isDigit by decide)]

theorem of_bind_ok {ε α β : Type} {outcome : Except ε α} {next : α → Except ε β} {result : β}
    (read : outcome >>= next = .ok result) : ∃ value, outcome = .ok value ∧ next value = .ok result := by
  cases outcome with
  | error cause => cases read
  | ok value => exact ⟨value, rfl, read⟩

theorem of_map_ok {ε α β : Type} {outcome : Except ε α} {f : α → β} {result : β}
    (read : outcome.map f = .ok result) : ∃ value, outcome = .ok value ∧ f value = result := by
  cases outcome with
  | error cause => cases read
  | ok value => exact ⟨value, rfl, Except.ok.inj read⟩

/-- Some digits in front of a text that goes on with something else. -/
structure Run (run rest : List Char) : Prop where
  digit : Digits run
  some : run ≠ []
  stops : EndsDigits rest

private theorem endsDigits_dropWhile (text : List Char) : EndsDigits (text.dropWhile Char.isDigit) := by
  intro c first
  have stopped := List.head?_dropWhile_not Char.isDigit text
  rw [Option.mem_def.mp first] at stopped
  simpa using stopped

private theorem of_digits {run : List Char} (read : digits text = .ok (run, rest)) :
    Run run rest ∧ text = run ++ rest := by
  cases text with
  | nil => cases read
  | cons c behind =>
    rw [digits] at read
    split at read
    next digit =>
      cases read
      refine ⟨⟨digits_takeWhile _, ?_, endsDigits_dropWhile _⟩, List.takeWhile_append_dropWhile.symm⟩
      rw [List.takeWhile_cons_of_pos digit]
      exact List.cons_ne_nil _ _
    next => cases read

private theorem of_wholeDigits {run : List Char} (read : wholeDigits text = .ok (run, rest)) :
    Run run rest ∧ (∀ tail, run = '0' :: tail → tail = []) ∧ text = run ++ rest := by
  unfold wholeDigits at read
  split at read
  next c behind =>
    split at read
    next => cases read
    next other =>
      cases read
      refine ⟨⟨?_, List.cons_ne_nil _ _, endsDigits_cons other⟩, fun tail same => (List.cons.inj same).2.symm, rfl⟩
      intro digit member
      cases List.mem_singleton.mp member
      rfl
  next single =>
    obtain ⟨found, rfl⟩ := of_digits read
    refine ⟨found, fun tail same => ?_, rfl⟩
    subst same
    cases tail with
    | nil => rfl
    | cons c tail => exact absurd rfl (single c (tail ++ rest))

private theorem of_fractionDigits {fraction : Option (List Char)} (read : fractionDigits text = .ok (fraction, rest))
    (stops : EndsDigits text) :
    (∀ present, fraction = some present → Digits present ∧ present ≠ []) ∧ EndsDigits rest ∧
      ∀ whole, whole ++ text = Mantissa.text ⟨whole, fraction⟩ ++ rest := by
  unfold fractionDigits at read
  split at read
  next behind =>
    obtain ⟨⟨run, after⟩, found, same⟩ := of_map_ok read
    cases same
    obtain ⟨⟨digit, some, ends⟩, rfl⟩ := of_digits found
    refine ⟨fun present same => ?_, ends, by simp [Mantissa.text]⟩
    cases same
    exact ⟨digit, some⟩
  next =>
    cases read
    refine ⟨fun present same => ?_, stops, by simp [Mantissa.text]⟩
    cases same

private theorem of_exponentPart {exponent : Option Exponent} (read : exponentPart text = .ok (exponent, rest))
    (stops : EndsDigits text) :
    (∀ present, exponent = some present → Digits present.digits ∧ present.digits ≠ []) ∧ EndsDigits rest ∧
      ∃ letter, (letter = 'e' ∨ letter = 'E') ∧ text = exponentText letter exponent ++ rest := by
  unfold exponentPart at read
  split at read
  next =>
    cases read
    refine ⟨fun present same => ?_, stops, 'e', Or.inl rfl, rfl⟩
    cases same
  next letter behind =>
    split at read
    next legal =>
      have joined := text_splitSign behind
      generalize splitSign behind = parts at read joined
      obtain ⟨sign, unsigned⟩ := parts
      obtain ⟨⟨run, after⟩, found, same⟩ := of_map_ok read
      cases same
      obtain ⟨⟨digit, some, ends⟩, rfl⟩ := of_digits found
      refine ⟨fun present same => ?_, ends, letter, legal, ?_⟩
      · cases same
        exact ⟨digit, some⟩
      · rw [exponentText, List.cons_append, ← Exponent.text_append, joined]
    next =>
      cases read
      refine ⟨fun present same => ?_, stops, 'e', Or.inl rfl, rfl⟩
      cases same

private theorem of_unsignedNumber {negative : Bool} {token : NumberToken}
    (read : unsignedNumber negative text = .ok (token, rest)) :
    token.WellFormed ∧ token.negative = negative ∧ EndsDigits rest ∧ ∃ letter, (letter = 'e' ∨ letter = 'E') ∧
      text = token.mantissa.text ++ exponentText letter token.exponent ++ rest := by
  obtain ⟨⟨whole, behindWhole⟩, wholeRead, read⟩ := of_bind_ok read
  obtain ⟨⟨fraction, behindFraction⟩, fractionRead, read⟩ := of_bind_ok read
  obtain ⟨⟨exponent, behind⟩, exponentRead, read⟩ := of_bind_ok read
  cases read
  obtain ⟨⟨digit, some, wholeEnds⟩, zero, rfl⟩ := of_wholeDigits wholeRead
  obtain ⟨fractionFormed, fractionEnds, mantissaText⟩ := of_fractionDigits fractionRead wholeEnds
  obtain ⟨exponentFormed, ends, letter, legal, rfl⟩ := of_exponentPart exponentRead fractionEnds
  refine ⟨⟨digit, some, zero, fractionFormed, exponentFormed⟩, rfl, ends, letter, legal, ?_⟩
  rw [mantissaText, List.append_assoc]

/-- What is read as a number is one, and no digit follows it. -/
theorem of_numberToken {token : NumberToken} (read : numberToken text = .ok (token, rest)) :
    token.WellFormed ∧ EndsDigits rest ∧
      ∃ letter, (letter = 'e' ∨ letter = 'E') ∧ text = token.textWith letter ++ rest := by
  unfold numberToken at read
  split at read
  next behind =>
    obtain ⟨formed, sign, ends, letter, legal, rfl⟩ := of_unsignedNumber read
    exact ⟨formed, ends, letter, legal, by simp [NumberToken.textWith, signed, sign]⟩
  next =>
    obtain ⟨formed, sign, ends, letter, legal, rfl⟩ := of_unsignedNumber read
    exact ⟨formed, ends, letter, legal, by simp [NumberToken.textWith, signed, sign]⟩

end ScriptNumbers.Json
