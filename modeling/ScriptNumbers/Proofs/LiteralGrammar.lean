import Mathlib.Computability.Language
import ScriptNumbers.Literal.Parts
import ScriptNumbers.Proofs.Numerals

/-! The language of numeric literals as a regular expression, and the pieces of text that the parts of a literal stand
for. The expression says nothing of how far a piece is taken or what is tried first. -/

namespace ScriptNumbers.Literal

open Numeral
open scoped Computability

namespace Grammar

/-- The words of one character. -/
def oneOf (member : Char → Prop) : Language Char := {word | ∃ c, member c ∧ word = [c]}

def optional (words : Language Char) : Language Char := 1 + words

/-- One or more in a row. -/
def many (words : Language Char) : Language Char := words * words∗

def IsDigit (c : Char) : Prop := '0' ≤ c ∧ c ≤ '9'

def IsHexDigit (c : Char) : Prop := IsDigit c ∨ ('a' ≤ c ∧ c ≤ 'f') ∨ ('A' ≤ c ∧ c ≤ 'F')

def digit : Language Char := oneOf IsDigit

def sign : Language Char := oneOf (· ∈ ['+', '-'])

def hexMarker : Language Char := oneOf (· ∈ ['h', 'H'])

def hexDigits : Language Char := many (oneOf IsHexDigit)

def point : Language Char := oneOf (· = '.')

/-- `[0-9]+ (\. [0-9]*)? | \.[0-9]+` -/
def mantissa : Language Char := many digit * optional (point * digit∗) + point * many digit

def exponentMarker : Language Char := oneOf (· ∈ ['e', 'E', 'd', 'D'])

/-- `[+-]? [0-9]+` -/
def exponentValue : Language Char := optional sign * many digit

def hex : Language Char := oneOf (· = '&') * hexMarker * hexDigits

def decimal : Language Char := mantissa * optional (exponentMarker * exponentValue)

def typeSuffix : Language Char := oneOf (· ∈ ['%', '&', '!', '#'])

/-- `[+-]? ( &[hH][0-9A-Fa-f]+ | mantissa ( [eEdD] [+-]? [0-9]+ )? ) [%&!#]?` -/
def literal : Language Char := optional sign * (hex + decimal) * optional typeSuffix

variable {member : Char → Prop} {word : List Char}

theorem mem_oneOf : word ∈ oneOf member ↔ ∃ c, member c ∧ word = [c] := Iff.rfl

private theorem singleton_mem_oneOf {c : Char} : [c] ∈ oneOf member ↔ member c := by
  simp [mem_oneOf]

theorem mem_hexMarker {c : Char} : [c] ∈ hexMarker ↔ c = 'h' ∨ c = 'H' := by
  simp [hexMarker, singleton_mem_oneOf]

theorem mem_exponentMarker {c : Char} : [c] ∈ exponentMarker ↔ c = 'e' ∨ c = 'E' ∨ c = 'd' ∨ c = 'D' := by
  simp [exponentMarker, singleton_mem_oneOf]

theorem mem_optional {words : Language Char} : word ∈ optional words ↔ word = [] ∨ word ∈ words := Iff.rfl

theorem mem_optional_sign : word ∈ optional sign ↔ word = [] ∨ word = ['+'] ∨ word = ['-'] := by
  simp [mem_optional, sign, mem_oneOf]

theorem mem_optional_sign_iff : word ∈ optional sign ↔ ∃ mark, signText mark = word := by
  rw [mem_optional_sign]
  constructor
  · rintro (rfl | rfl | rfl)
    · exact ⟨none, rfl⟩
    · exact ⟨some false, rfl⟩
    · exact ⟨some true, rfl⟩
  · rintro ⟨_ | _ | _, rfl⟩ <;> simp [signText]

theorem mem_kstar_oneOf : word ∈ (oneOf member)∗ ↔ ∀ c ∈ word, member c := by
  constructor
  · rintro ⟨pieces, rfl, each⟩ c inside
    obtain ⟨piece, among, inside⟩ := List.mem_flatten.mp inside
    obtain ⟨letter, legal, rfl⟩ := each piece among
    cases List.mem_singleton.mp inside
    exact legal
  · intro legal
    refine ⟨word.map fun c => [c], by rw [← List.flatMap_def, List.flatMap_singleton'], ?_⟩
    intro piece among
    obtain ⟨c, inside, rfl⟩ := List.mem_map.mp among
    exact ⟨c, legal c inside, rfl⟩

private theorem mem_many_oneOf : word ∈ many (oneOf member) ↔ word ≠ [] ∧ ∀ c ∈ word, member c := by
  constructor
  · rintro ⟨_, ⟨c, legal, rfl⟩, rest, others, rfl⟩
    refine ⟨nofun, fun letter inside => ?_⟩
    rcases List.mem_cons.mp inside with rfl | inside
    · exact legal
    · exact mem_kstar_oneOf.mp others letter inside
  · rintro ⟨some, legal⟩
    cases word with
    | nil => exact absurd rfl some
    | cons c rest =>
      have first : [c] ∈ oneOf member := ⟨c, legal c List.mem_cons_self, rfl⟩
      have others : rest ∈ (oneOf member)∗ :=
        mem_kstar_oneOf.mpr fun letter inside => legal letter (List.mem_cons_of_mem c inside)
      exact Language.append_mem_mul first others

theorem isDigit_iff {c : Char} : IsDigit c ↔ c.isDigit := by
  simp [IsDigit, Char.isDigit, Char.le_def]

private theorem isHexDigit_iff {c : Char} : IsHexDigit c ↔ isHexDigit c := by
  simp [IsHexDigit, isHexDigit, isDigit_iff, or_assoc]

theorem mem_kstar_digit : word ∈ digit∗ ↔ Digits word := by
  simp [digit, mem_kstar_oneOf, isDigit_iff, Digits]

theorem mem_many_digit : word ∈ many digit ↔ word ≠ [] ∧ Digits word := by
  simp [digit, mem_many_oneOf, isDigit_iff, Digits]

theorem mem_hexDigits : word ∈ hexDigits ↔ word ≠ [] ∧ ∀ c ∈ word, isHexDigit c := by
  simp [hexDigits, mem_many_oneOf, isHexDigit_iff]

theorem mem_point : ['.'] ∈ point := ⟨'.', rfl, rfl⟩

theorem mem_mantissa_iff : word ∈ mantissa ↔ ∃ value : Mantissa, value.WellFormed ∧ value.text = word := by
  constructor
  · rintro (⟨whole, legal, fraction, present, rfl⟩ | ⟨_, ⟨_, rfl, rfl⟩, fraction, legal, rfl⟩)
    · obtain ⟨nonempty, digits⟩ := mem_many_digit.mp legal
      rcases present with rfl | ⟨_, ⟨_, rfl, rfl⟩, fraction, legal, rfl⟩
      · exact ⟨⟨whole, none⟩, ⟨digits, nofun, by simpa using nonempty⟩, rfl⟩
      · exact ⟨⟨whole, some fraction⟩, ⟨digits, mem_kstar_digit.mp legal, by simp [nonempty]⟩, rfl⟩
    · obtain ⟨nonempty, digits⟩ := mem_many_digit.mp legal
      exact ⟨⟨[], some fraction⟩, ⟨nofun, digits, nonempty⟩, rfl⟩
  · rintro ⟨⟨whole, fraction⟩, ⟨wholeDigits, fractionDigits, nonempty⟩, rfl⟩
    cases fraction with
    | none =>
      have legal : whole ∈ many digit := mem_many_digit.mpr ⟨by simpa using nonempty, wholeDigits⟩
      exact Or.inl (Language.append_mem_mul legal (Or.inl rfl))
    | some fraction =>
      cases whole with
      | nil =>
        have legal : fraction ∈ many digit := mem_many_digit.mpr ⟨nonempty, fractionDigits⟩
        have pointed : '.' :: fraction ∈ point * many digit := Language.append_mem_mul mem_point legal
        exact Or.inr pointed
      | cons c rest =>
        have legal : c :: rest ∈ many digit := mem_many_digit.mpr ⟨nofun, wholeDigits⟩
        have behind : fraction ∈ digit∗ := mem_kstar_digit.mpr fractionDigits
        exact Or.inl (Language.append_mem_mul legal (Or.inr (Language.append_mem_mul mem_point behind)))

theorem mem_exponentValue_iff : word ∈ exponentValue ↔ ∃ value : Exponent, value.WellFormed ∧ value.text = word := by
  constructor
  · rintro ⟨before, present, digits, legal, rfl⟩
    obtain ⟨nonempty, run⟩ := mem_many_digit.mp legal
    rcases mem_optional_sign.mp present with rfl | rfl | rfl
    · exact ⟨⟨none, digits⟩, ⟨run, nonempty⟩, rfl⟩
    · exact ⟨⟨some false, digits⟩, ⟨run, nonempty⟩, rfl⟩
    · exact ⟨⟨some true, digits⟩, ⟨run, nonempty⟩, rfl⟩
  · rintro ⟨⟨before, digits⟩, ⟨run, nonempty⟩, rfl⟩
    have legal : digits ∈ many digit := mem_many_digit.mpr ⟨nonempty, run⟩
    rcases before with _ | _ | _
    · exact Language.append_mem_mul (mem_optional_sign.mpr (Or.inl rfl)) legal
    · exact Language.append_mem_mul (mem_optional_sign.mpr (Or.inr (Or.inl rfl))) legal
    · exact Language.append_mem_mul (mem_optional_sign.mpr (Or.inr (Or.inr rfl))) legal

end Grammar

/-- The text of a body, cut where the grammar cuts it. -/
inductive BodyPieces where
  | hex (marker : Char) (digits : List Char)
  | plain (mantissa : List Char)
  | scaled (mantissa : List Char) (marker : Char) (exponent : List Char)

structure Pieces where
  sign : List Char
  body : BodyPieces
  suffix : List Char

def BodyPieces.text : BodyPieces → List Char
  | hex marker digits => '&' :: marker :: digits
  | plain mantissa => mantissa
  | scaled mantissa marker exponent => mantissa ++ marker :: exponent

def Pieces.text (pieces : Pieces) : List Char := pieces.sign ++ pieces.body.text ++ pieces.suffix

inductive BodyPieces.WellFormed : BodyPieces → Prop where
  | hex {marker digits} (letter : [marker] ∈ Grammar.hexMarker) (run : digits ∈ Grammar.hexDigits) :
      WellFormed (.hex marker digits)
  | plain {mantissa} (front : mantissa ∈ Grammar.mantissa) : WellFormed (.plain mantissa)
  | scaled {mantissa marker exponent} (front : mantissa ∈ Grammar.mantissa)
      (letter : [marker] ∈ Grammar.exponentMarker) (behind : exponent ∈ Grammar.exponentValue) :
      WellFormed (.scaled mantissa marker exponent)

structure Pieces.WellFormed (pieces : Pieces) : Prop where
  sign : pieces.sign ∈ Grammar.optional Grammar.sign
  body : pieces.body.WellFormed
  suffix : pieces.suffix ∈ Grammar.optional Grammar.typeSuffix

variable {text : List Char}

theorem mem_body_iff : text ∈ Grammar.hex + Grammar.decimal ↔ ∃ body : BodyPieces, body.WellFormed ∧ text = body.text := by
  constructor
  · rintro (⟨_, ⟨_, ⟨_, rfl, rfl⟩, _, ⟨marker, letter, rfl⟩, rfl⟩, digits, run, rfl⟩ | ⟨front, legal, _, present, rfl⟩)
    · exact ⟨.hex marker digits, .hex ⟨marker, letter, rfl⟩ run, rfl⟩
    · rcases present with rfl | ⟨_, ⟨marker, letter, rfl⟩, value, behind, rfl⟩
      · exact ⟨.plain front, .plain legal, List.append_nil front⟩
      · exact ⟨.scaled front marker value, .scaled legal ⟨marker, letter, rfl⟩ behind, rfl⟩
  · rintro ⟨body, formed, rfl⟩
    cases formed with
    | @hex marker digits letter run =>
      have ampersand : ['&'] ∈ Grammar.oneOf (· = '&') := ⟨'&', rfl, rfl⟩
      exact Or.inl (Language.append_mem_mul (Language.append_mem_mul ampersand letter) run)
    | @plain front legal =>
      have whole : front ++ [] ∈ Grammar.decimal := Language.append_mem_mul legal (Or.inl rfl)
      rw [List.append_nil] at whole
      exact Or.inr whole
    | scaled legal letter behind =>
      exact Or.inr (Language.append_mem_mul legal (Or.inr (Language.append_mem_mul letter behind)))

theorem mem_literal_iff : text ∈ Grammar.literal ↔ ∃ pieces : Pieces, pieces.WellFormed ∧ text = pieces.text := by
  constructor
  · rintro ⟨_, ⟨sign, before, _, middle, rfl⟩, suffix, behind, rfl⟩
    obtain ⟨body, formed, rfl⟩ := mem_body_iff.mp middle
    exact ⟨⟨sign, body, suffix⟩, ⟨before, formed, behind⟩, rfl⟩
  · rintro ⟨pieces, ⟨before, formed, behind⟩, rfl⟩
    have middle := mem_body_iff.mpr ⟨pieces.body, formed, rfl⟩
    exact Language.append_mem_mul (Language.append_mem_mul before middle) behind

def suffix : Kind → Char
  | .int32 => '%'
  | .int64 => '&'
  | .float => '!'
  | .double => '#'

def suffixText : Option Kind → List Char
  | none => []
  | some kind => [suffix kind]

def Marker.letter : Marker → Char
  | e => 'e'
  | d => 'd'

/-- A mantissa and an exponent are those with the text of their pieces, whatever the case of the letter between. -/
inductive BodyPieces.Denotes : BodyPieces → Body → Prop where
  | hex (marker : Char) (digits : List Char) : Denotes (.hex marker digits) (.hex digits)
  | plain {mantissa : Mantissa} (front : mantissa.WellFormed) :
      Denotes (.plain mantissa.text) (.decimal mantissa none)
  | scaled {mantissa : Mantissa} (front : mantissa.WellFormed) {letter : Char} {marker : Marker}
      (same : letter.toLower = marker.letter) {exponent : Exponent} (behind : exponent.WellFormed) :
      Denotes (.scaled mantissa.text letter exponent.text) (.decimal mantissa (some (marker, exponent)))

/-- A body as the grammar has it. -/
inductive Body.WellFormed : Body → Prop where
  | hex {digits : List Char} (run : digits ∈ Grammar.hexDigits) : WellFormed (.hex digits)
  | decimal {mantissa : Mantissa} {exponent : Option (Marker × Exponent)} (front : mantissa.WellFormed)
      (behind : ∀ power ∈ exponent, power.2.WellFormed) : WellFormed (.decimal mantissa exponent)

theorem BodyPieces.Denotes.wellFormed {pieces : BodyPieces} {body : Body} (denotes : pieces.Denotes body)
    (formed : pieces.WellFormed) : body.WellFormed := by
  cases denotes with
  | hex =>
    cases formed with
    | hex letter run => exact .hex run
  | plain front => exact .decimal front nofun
  | scaled front same behind =>
    refine .decimal front fun power member => ?_
    cases member
    exact behind

structure Pieces.Denotes (pieces : Pieces) (parts : Parts) : Prop where
  negative : parts.negative ↔ pieces.sign = ['-']
  body : pieces.body.Denotes parts.body
  suffix : pieces.suffix = suffixText parts.suffix

end ScriptNumbers.Literal
