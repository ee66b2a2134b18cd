import Mathlib.Data.List.TakeWhile
import ScriptNumbers.Proofs.Words

/-! Integer numerals of any text. They are read from left to right within bounds, and the first problem ends the reading.
For a whole text that comes to this: the digits in front have a value, and it has to be in range before anything behind
them is looked at. -/

namespace ScriptNumbers

private theorem not_of_mem_head?_dropWhile {p : Char → Bool} (text : List Char) :
    ∀ c ∈ (text.dropWhile p).head?, ¬p c := by
  intro c first
  have stopped := List.head?_dropWhile_not p text
  rw [Option.mem_def.mp first] at stopped
  simpa using stopped

namespace Text

/-- A text between blanks that neither begins nor ends with a blank itself. -/
structure IsTrimmed (text whole : List Char) : Prop where
  between : ∃ before behind, (∀ c ∈ before, isBlank c) ∧ (∀ c ∈ behind, isBlank c) ∧ whole = before ++ text ++ behind
  first : ∀ c ∈ text.head?, ¬isBlank c
  last : ∀ c ∈ text.getLast?, ¬isBlank c

private theorem isTrimmed_trim (whole : List Char) : IsTrimmed (trim whole) whole := by
  let inner := whole.dropWhile isBlank
  have front : whole.takeWhile isBlank ++ inner = whole := List.takeWhile_append_dropWhile
  have back : trim whole ++ (inner.reverse.takeWhile isBlank).reverse = inner := by
    rw [trim, ← List.reverse_append, List.takeWhile_append_dropWhile, List.reverse_reverse]
  refine ⟨⟨whole.takeWhile isBlank, (inner.reverse.takeWhile isBlank).reverse, ?_, ?_, ?_⟩, ?_, ?_⟩
  · intro c member
    exact List.mem_takeWhile_imp member
  · intro c member
    exact List.mem_takeWhile_imp (List.mem_reverse.mp member)
  · rw [List.append_assoc, back, front]
  · intro c first
    apply not_of_mem_head?_dropWhile whole
    change c ∈ inner.head?
    rw [← back, List.head?_append, Option.mem_def.mp first]
    rfl
  · intro c last
    rw [trim, List.getLast?_reverse] at last
    exact not_of_mem_head?_dropWhile _ c last

end Text

namespace Numeral

open Literal (Fits checkRange_of_not_fits)

def hasMinus (text : List Char) : Bool := (splitSign text).1 == some true

/-- The longest run of digits behind the sign, if there is a sign. -/
def leadingDigits (text : List Char) : List Char := (splitSign text).2.takeWhile Char.isDigit

/-- The value of the leading digits under the sign. Without any it is zero. -/
def leadingValue (text : List Char) : Int := withSign (hasMinus text) (Decimal.ofDigits (leadingDigits text))

/-- Behind the sign there is something, and all of it is digits. -/
def SpellsInteger (text : List Char) : Prop := (splitSign text).2 ≠ [] ∧ leadingDigits text = (splitSign text).2

instance (text : List Char) : Decidable (SpellsInteger text) := inferInstanceAs (Decidable (_ ∧ _))

/-- The message for a text that is not an integer with so many bits. -/
def faultMessage (bits : Nat) (text : List Char) : String :=
  if text = [] then "cannot parse integer from empty string"
  else if Fits bits (leadingValue text) then "invalid digit found in string"
  else if hasMinus text then "number too small to fit in target type"
  else "number too large to fit in target type"

section Reading

variable {low high : Int} (negative : Bool)

/-- Reading stops at the first problem, so a text is read as its front and then, if that went well, as the rest. -/
theorem accumulate_append (front rest : List Char) (value : Int) :
    accumulate low high negative value (front ++ rest) =
      (accumulate low high negative value front).bind fun next => accumulate low high negative next rest := by
  induction front generalizing value with
  | nil => rfl
  | cons c front ih =>
    rw [List.cons_append, accumulate, accumulate]
    split
    · dsimp only
      split
      · exact ih _
      · rfl
    · rfl

private theorem accumulate_of_endsDigits {rest : List Char} (stops : EndsDigits rest) (value : Int) :
    accumulate low high negative value rest = if rest = [] then .ok value else .error .invalidDigit := by
  cases rest with
  | nil => rfl
  | cons c rest => rw [accumulate, if_neg (stops c rfl), if_neg (List.cons_ne_nil c rest)]

/-- The check of the front alone, and only then a look behind it. -/
theorem unsigned_eq (around : low ≤ 0 ∧ 0 ≤ high) (text : List Char) :
    unsigned low high negative text =
      (checkRange low high (withSign negative (Decimal.ofDigits (text.takeWhile Char.isDigit)))).bind fun value =>
        if text ≠ [] ∧ text.takeWhile Char.isDigit = text then .ok value else .error .invalidDigit := by
  have zero : withSign negative 0 = 0 := by cases negative <;> rfl
  have inside : checkRange low high (withSign negative 0) = .ok (withSign negative 0) := by
    rw [zero]
    exact checkRange_of_inside around.1 around.2
  cases text with
  | nil => simp [unsigned, Decimal.ofDigits, inside, Except.bind]
  | cons c rest =>
    have front := accumulate_digits around negative (digits_takeWhile (c :: rest)) inside
    have whole : accumulate low high negative 0 (c :: rest) =
        (accumulate low high negative 0 ((c :: rest).takeWhile Char.isDigit)).bind fun next =>
          accumulate low high negative next ((c :: rest).dropWhile Char.isDigit) := by
      rw [← accumulate_append, List.takeWhile_append_dropWhile]
    rw [zero] at front
    rw [unsigned, whole, front]
    · congr
      funext value
      simp [accumulate_of_endsDigits negative (not_of_mem_head?_dropWhile _), List.takeWhile_eq_self_iff,
        List.dropWhile_eq_nil_iff]
    · exact List.cons_ne_nil c rest

end Reading

/-- Out of range, a value is not zero, so its sign is the one that is written. -/
theorem checkRange_withSign {bits : Nat} {negative : Bool} {magnitude : Nat}
    (outside : ¬Fits bits (withSign negative magnitude)) :
    checkRange (-2 ^ (bits - 1)) (2 ^ (bits - 1) - 1) (withSign negative magnitude) =
      .error (if negative then .tooSmall else .tooLarge) := by
  have positive : (0 : Int) < 2 ^ (bits - 1) := pow_pos (by decide) _
  have sign : withSign negative magnitude < 0 ↔ negative := by
    unfold Fits withSign at outside
    cases negative with
    | false => simp [withSign]
    | true =>
      simp only [if_true] at outside
      simp only [withSign, if_true, iff_true]
      omega
  rw [checkRange_of_not_fits outside, if_congr sign rfl rfl]

private theorem integer_of_ne_nil {low high : Int} (around : low ≤ 0 ∧ 0 ≤ high) {text : List Char} (some : text ≠ []) :
    integer low high text = (checkRange low high (leadingValue text)).bind fun value =>
      if SpellsInteger text then .ok value else .error .invalidDigit := by
  apply Eq.trans _ (unsigned_eq (hasMinus text) around (splitSign text).2)
  unfold integer
  split
  next => exact absurd rfl some
  next => rfl
  next => rfl
  next plus minus =>
    have unsigned : splitSign text = (none, text) := by rw [splitSign] <;> assumption
    rw [hasMinus, unsigned]
    rfl

end Numeral

namespace Number

open Numeral Literal

section Reading

variable {kind : Kind} (integral : kind.isInteger)
include integral

private theorem ofChars_of_ne_nil {numeral : List Char} (some : numeral ≠ []) : ofChars kind numeral =
    ((checkRange (-2 ^ (wordBits kind - 1)) (2 ^ (wordBits kind - 1) - 1) (leadingValue numeral)).bind fun value =>
      if SpellsInteger numeral then .ok value else .error .invalidDigit).map (ofWord kind) := by
  cases kind with
  | int32 | int64 => exact congrArg (Except.map _) (integer_of_ne_nil (by decide) some)
  | float | double => cases integral

private theorem ofChars_of_spellsInteger {numeral : List Char} (spelled : SpellsInteger numeral)
    (fits : Fits (wordBits kind) (leadingValue numeral)) :
    ofChars kind numeral = .ok (ofWord kind (leadingValue numeral)) := by
  have some : numeral ≠ [] := by
    intro none
    subst none
    exact spelled.1 rfl
  simp [ofChars_of_ne_nil integral some, checkRange_of_fits fits, Except.bind, spelled, Except.map]

/-- A text that is no numeral of the kind has one problem that comes first. -/
theorem ofChars_of_fault {numeral : List Char}
    (fault : ¬(SpellsInteger numeral ∧ Fits (wordBits kind) (leadingValue numeral))) :
    ∃ reason, ofChars kind numeral = .error reason ∧ reason.message = faultMessage (wordBits kind) numeral := by
  by_cases empty : numeral = []
  · subst empty
    cases kind with
    | int32 | int64 => exact ⟨_, rfl, rfl⟩
    | float | double => cases integral
  rw [ofChars_of_ne_nil integral empty, faultMessage, if_neg empty]
  by_cases fits : Fits (wordBits kind) (leadingValue numeral)
  · have foreign : ¬SpellsInteger numeral := fun spelled => fault ⟨spelled, fits⟩
    rw [checkRange_of_fits fits, Except.bind, if_neg foreign, if_pos fits]
    exact ⟨_, rfl, rfl⟩
  · rw [leadingValue, checkRange_withSign fits, ← leadingValue, if_neg fits]
    refine ⟨_, rfl, ?_⟩
    cases hasMinus numeral <;> rfl

/-- A text is read as an integer of a kind exactly if there is nothing in it but digits behind an optional sign, between
blanks, and their value is one of the kind. Any other text is rejected as it was given, blanks included, and a value out
of range outranks a character that is no digit. -/
theorem ofText_integerNumeral (text : String) :
    let numeral := Text.trim text.toList
    Text.IsTrimmed numeral text.toList ∧
    (SpellsInteger numeral ∧ Fits (wordBits kind) (leadingValue numeral) ↔
      ∃ number, ofText kind text = .ok number ∧ number.kind = kind ∧ number.toInt? = some (leadingValue numeral)) ∧
    (¬(SpellsInteger numeral ∧ Fits (wordBits kind) (leadingValue numeral)) →
      ∃ reason, ofText kind text = .error ⟨some kind, text, reason⟩ ∧
        reason.message = faultMessage (wordBits kind) numeral) := by
  intro numeral
  have rejected (fault : ¬(SpellsInteger numeral ∧ Fits (wordBits kind) (leadingValue numeral))) :
      ∃ reason, ofText kind text = .error ⟨some kind, text, reason⟩ ∧
        reason.message = faultMessage (wordBits kind) numeral := by
    obtain ⟨reason, failed, message⟩ := ofChars_of_fault integral fault
    refine ⟨reason, ?_, message⟩
    rw [ofText, failed]
    rfl
  refine ⟨Text.isTrimmed_trim text.toList, ⟨fun accepted => ?_, fun read => ?_⟩, rejected⟩
  · have done := ofChars_of_spellsInteger integral accepted.1 accepted.2
    refine ⟨ofWord kind (leadingValue numeral), ?_, kind_ofWord integral _, ?_⟩
    · rw [ofText, done]
      rfl
    · rw [toInt?_ofWord, accepted.2.bmod_eq]
  · by_contra fault
    obtain ⟨number, done, -⟩ := read
    obtain ⟨reason, failed, -⟩ := rejected fault
    rw [done] at failed
    cases failed

end Reading

/-- A short integer that is out of range before it is no numeral either, and the least long integer behind zeros. -/
theorem ofText_integerNumeral_outgrown :
    Kind.int32.isInteger ∧ Kind.int64.isInteger ∧
    (∃ reason, ofText .int32 " -2147483649x" = .error ⟨some .int32, " -2147483649x", reason⟩ ∧
      reason.message = "number too small to fit in target type") ∧
    ∃ number, ofText .int64 "\t-0009223372036854775808\u3000" = .ok number ∧ number.kind = .int64 ∧
      number.toInt? = some (-9223372036854775808) := by
  refine ⟨rfl, rfl, ?_, ?_⟩
  · exact (ofText_integerNumeral rfl " -2147483649x").2.2 (by decide)
  · exact (ofText_integerNumeral rfl "\t-0009223372036854775808\u3000").2.1.mp (by decide)

end Number

end ScriptNumbers
