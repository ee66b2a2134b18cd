import Mathlib.Order.CompletePartialOrder
import ScriptNumbers.Proofs.LiteralGrammar

/-! The places where a piece of a literal may end. A text up to such a place can be completed to a literal, so it is made of
the characters of literals, which are printable ones of ASCII. -/

namespace ScriptNumbers.Literal

open Numeral
open scoped Computability

namespace Grammar

/-- `&[hH]` -/
def hexStart : Language Char := oneOf (· = '&') * hexMarker

/-- A body up to the end of one of its pieces. -/
def bodyStart : Language Char :=
  1 + hexStart + hexStart * hexDigits + mantissa + mantissa * exponentMarker + mantissa * exponentMarker * exponentValue

/-- What ends with a sign, with a piece of a body behind a sign that may be left out, or as a literal. -/
def boundary : Language Char := optional sign * bodyStart + literal

/-- The characters of ASCII without the one that ends a line. -/
def IsPlain (c : Char) : Prop := c.toNat < 128 ∧ c ≠ '\n'

instance (c : Char) : Decidable (IsPlain c) := inferInstanceAs (Decidable (_ ∧ _))

/-- The forms of a body that has got to the end of a piece. -/
inductive BodyStart : List Char → Prop where
  | nothing : BodyStart []
  | based {marker} (letter : [marker] ∈ hexMarker) : BodyStart ['&', marker]
  | hex {marker digits} (letter : [marker] ∈ hexMarker) (run : digits ∈ hexDigits) : BodyStart ('&' :: marker :: digits)
  | plain {front} (legal : front ∈ mantissa) : BodyStart front
  | begun {front letter} (legal : front ∈ mantissa) (marked : [letter] ∈ exponentMarker) : BodyStart (front ++ [letter])
  | scaled {front letter value} (legal : front ∈ mantissa) (marked : [letter] ∈ exponentMarker)
      (behind : value ∈ exponentValue) : BodyStart (front ++ letter :: value)

variable {front start : List Char}

theorem mem_bodyStart_iff : start ∈ bodyStart ↔ BodyStart start := by
  constructor
  · rintro (((((rfl | ⟨_, ⟨_, rfl, rfl⟩, _, ⟨marker, letter, rfl⟩, rfl⟩) |
      ⟨_, ⟨_, ⟨_, rfl, rfl⟩, _, ⟨marker, letter, rfl⟩, rfl⟩, digits, run, rfl⟩) | legal) |
      ⟨front, legal, _, ⟨letter, marked, rfl⟩, rfl⟩) | ⟨_, ⟨front, legal, _, ⟨letter, marked, rfl⟩, rfl⟩, value, behind, rfl⟩)
    · exact .nothing
    · exact .based ⟨marker, letter, rfl⟩
    · exact .hex ⟨marker, letter, rfl⟩ run
    · exact .plain legal
    · exact .begun legal ⟨letter, marked, rfl⟩
    · have whole : BodyStart (front ++ letter :: value) := .scaled legal ⟨letter, marked, rfl⟩ behind
      rwa [← List.singleton_append, ← List.append_assoc] at whole
  · have ampersand : ['&'] ∈ oneOf (· = '&') := ⟨'&', rfl, rfl⟩
    intro begins
    cases begins with
    | nothing => exact Or.inl (Or.inl (Or.inl (Or.inl (Or.inl rfl))))
    | based letter => exact Or.inl (Or.inl (Or.inl (Or.inl (Or.inr (Language.append_mem_mul ampersand letter)))))
    | hex letter run =>
      exact Or.inl (Or.inl (Or.inl (Or.inr (Language.append_mem_mul (Language.append_mem_mul ampersand letter) run))))
    | plain legal => exact Or.inl (Or.inl (Or.inr legal))
    | begun legal marked => exact Or.inl (Or.inr (Language.append_mem_mul legal marked))
    | @scaled front letter value legal marked behind =>
      have whole := Language.append_mem_mul (Language.append_mem_mul legal marked) behind
      rw [List.append_assoc] at whole
      exact Or.inr whole

theorem bodyStart_of_body {body : BodyPieces} (formed : body.WellFormed) : BodyStart body.text := by
  cases formed with
  | hex letter run => exact .hex letter run
  | plain legal => exact .plain legal
  | scaled legal marked behind => exact .scaled legal marked behind

/-- A zero completes a body that is not complete yet. -/
theorem BodyStart.exists_body (begins : BodyStart start) :
    ∃ (behind : List Char) (body : BodyPieces), body.WellFormed ∧ start ++ behind = body.text := by
  have digits : ['0'] ∈ many digit := mem_many_digit.mpr ⟨nofun, digits_zeros 1⟩
  have zero : ['0'] ++ [] ∈ mantissa := Or.inl (Language.append_mem_mul digits (Or.inl rfl))
  have power : [] ++ ['0'] ∈ exponentValue := Language.append_mem_mul (Or.inl rfl) digits
  have hexadecimal : ['0'] ∈ hexDigits := mem_hexDigits.mpr ⟨nofun, List.forall_mem_singleton.mpr rfl⟩
  cases begins with
  | nothing => exact ⟨['0'], .plain _, .plain zero, rfl⟩
  | based letter => exact ⟨['0'], .hex _ _, .hex letter hexadecimal, rfl⟩
  | hex letter run => exact ⟨[], .hex _ _, .hex letter run, List.append_nil _⟩
  | plain legal => exact ⟨[], .plain _, .plain legal, List.append_nil _⟩
  | begun legal marked => exact ⟨['0'], .scaled _ _ _, .scaled legal marked power, List.append_assoc _ _ _⟩
  | scaled legal marked behind => exact ⟨[], .scaled _ _ _, .scaled legal marked behind, List.append_nil _⟩

theorem exists_mem_literal (legal : front ∈ boundary) : ∃ behind, front ++ behind ∈ literal := by
  rcases legal with ⟨sign, before, start, begins, rfl⟩ | whole
  · obtain ⟨behind, body, formed, complete⟩ := (mem_bodyStart_iff.mp begins).exists_body
    refine ⟨behind, mem_literal_iff.mpr ⟨⟨sign, body, []⟩, ⟨before, formed, Or.inl rfl⟩, ?_⟩⟩
    rw [Pieces.text, ← complete, List.append_nil, List.append_assoc]
  · exact ⟨[], (List.append_nil _).symm ▸ whole⟩

private theorem oneOf_le {member : Char → Prop} (inside : ∀ c, member c → IsPlain c) :
    oneOf member ≤ (oneOf IsPlain)∗ := by
  rintro _ ⟨c, legal, rfl⟩
  exact mem_kstar_oneOf.mpr (List.forall_mem_singleton.mpr (inside c legal))

private theorem oneOf_mem_le {letters : List Char} (inside : letters.all fun c => decide (IsPlain c)) :
    oneOf (· ∈ letters) ≤ (oneOf IsPlain)∗ :=
  oneOf_le fun c member => of_decide_eq_true (List.all_eq_true.mp inside c member)

variable {words others letters : Language Char}

private theorem mul_le_kstar (left : words ≤ letters∗) (right : others ≤ letters∗) : words * others ≤ letters∗ :=
  (mul_le_mul' left right).trans (kstar_mul_kstar letters).le

private theorem optional_le_kstar (order : words ≤ letters∗) : optional words ≤ letters∗ := add_le one_le_kstar order

private theorem kstar_le_kstar (order : words ≤ letters∗) : words∗ ≤ letters∗ :=
  (kstar_mono order).trans (kstar_idem letters).le

private theorem many_le_kstar (order : words ≤ letters∗) :
    many words ≤ letters∗ :=
  mul_le_kstar order (kstar_le_kstar order)

private theorem isPlain_of_between {c low high : Char} (between : low ≤ c ∧ c ≤ high)
    (printable : ' ' ≤ low ∧ high ≤ '~') : IsPlain c := by
  have low := Char.le_trans printable.1 between.1
  have high := Char.le_trans between.2 printable.2
  refine ⟨Nat.lt_of_le_of_lt (UInt32.le_iff_toNat_le.mp high) (by decide), ?_⟩
  rintro rfl
  exact absurd low (by decide)

private theorem isPlain_of_isDigit {c : Char} (digit : IsDigit c) : IsPlain c := isPlain_of_between digit (by decide)

private theorem isPlain_of_isHexDigit {c : Char} (digit : IsHexDigit c) : IsPlain c := by
  rcases digit with digit | lower | upper
  · exact isPlain_of_isDigit digit
  · exact isPlain_of_between lower (by decide)
  · exact isPlain_of_between upper (by decide)

/-- All characters of literals are plain. -/
theorem literal_le_kstar : literal ≤ (oneOf IsPlain)∗ := by
  have digits : many digit ≤ (oneOf IsPlain)∗ := many_le_kstar (oneOf_le fun _ => isPlain_of_isDigit)
  have signs : optional sign ≤ (oneOf IsPlain)∗ := optional_le_kstar (oneOf_mem_le rfl)
  have points : point ≤ (oneOf IsPlain)∗ := oneOf_le (by rintro _ rfl; decide)
  have hexadecimal : hex ≤ (oneOf IsPlain)∗ := by
    have ampersand : oneOf (· = '&') ≤ (oneOf IsPlain)∗ := oneOf_le (by rintro _ rfl; decide)
    have marker : hexMarker ≤ (oneOf IsPlain)∗ := oneOf_mem_le rfl
    exact mul_le_kstar (mul_le_kstar ampersand marker) (many_le_kstar (oneOf_le fun _ => isPlain_of_isHexDigit))
  have front : mantissa ≤ (oneOf IsPlain)∗ := by
    have fraction : digit∗ ≤ (oneOf IsPlain)∗ := kstar_le_kstar (oneOf_le fun _ => isPlain_of_isDigit)
    exact add_le (mul_le_kstar digits (optional_le_kstar (mul_le_kstar points fraction))) (mul_le_kstar points digits)
  have power : exponentMarker * exponentValue ≤ (oneOf IsPlain)∗ :=
    mul_le_kstar (oneOf_mem_le rfl) (mul_le_kstar signs digits)
  have body : hex + decimal ≤ (oneOf IsPlain)∗ := add_le hexadecimal (mul_le_kstar front (optional_le_kstar power))
  exact mul_le_kstar (mul_le_kstar signs body) (optional_le_kstar (oneOf_mem_le rfl))

private theorem isPlain_of_mem_boundary (legal : front ∈ boundary) : ∀ c ∈ front, IsPlain c := by
  obtain ⟨behind, whole⟩ := exists_mem_literal legal
  intro c member
  exact mem_kstar_oneOf.mp (literal_le_kstar whole) c (List.mem_append_left behind member)

end Grammar

/-- One of some words is in front of a text, and none of them in front of it is longer. -/
structure IsLongestPrefix (words : Language Char) (text front : List Char) : Prop where
  legal : front ∈ words
  inFront : front <+: text
  longest : ∀ word ∈ words, word <+: text → word.length ≤ front.length

/-- No word reaches a character that is in none of the words. -/
theorem IsLongestPrefix.of_foreign {words : Language Char} {before after front : List Char} {c : Char}
    (foreign : ∀ word ∈ words, c ∉ word) (longest : IsLongestPrefix words (before ++ c :: after) front) :
    IsLongestPrefix words before front := by
  refine ⟨longest.legal, ?_, fun word legal inFront => ?_⟩
  · have reaches : before ++ [c] <+: before ++ c :: after := ⟨after, by simp⟩
    rcases Nat.lt_or_ge before.length front.length with beyond | inside
    · have held := List.prefix_of_prefix_length_le reaches longest.inFront (by simpa using Nat.succ_le_of_lt beyond)
      exact absurd (held.subset (by simp)) (foreign front longest.legal)
    · exact List.prefix_of_prefix_length_le longest.inFront (List.prefix_append before _) inside
  · exact longest.longest word legal (inFront.trans (List.prefix_append before _))

theorem not_mem_of_boundary {c : Char} (other : ¬Grammar.IsPlain c) : ∀ word ∈ Grammar.boundary, c ∉ word :=
  fun _ legal member => other (Grammar.isPlain_of_mem_boundary legal c member)

end ScriptNumbers.Literal
