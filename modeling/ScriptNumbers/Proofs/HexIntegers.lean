import ScriptNumbers.Proofs.LiteralText

/-! Hexadecimal integers. The digits are the bits of a word, so the value is their two's complement, and a minus negates
the word and not the digits. -/

namespace ScriptNumbers.Literal

open Numeral

/-- The integer that a word of so many bits stands for. -/
def twosComplement (bits word : Nat) : Int := if 2 * word < 2 ^ bits then word else word - 2 ^ bits

/-- A word, or its negative: the word that is missing to the next power of two. -/
def signedWord (bits : Nat) (negative : Bool) (word : Nat) : Nat :=
  if negative then (2 ^ bits - word) % 2 ^ bits else word

private theorem toInt_signedWord {bits word : Nat} (small : word < 2 ^ bits) (negative : Bool) :
    (if negative then -BitVec.ofNat bits word else BitVec.ofNat bits word).toInt =
      twosComplement bits (signedWord bits negative word) := by
  cases negative with
  | false => simp [BitVec.toInt_eq_toNat_cond, twosComplement, signedWord, Nat.mod_eq_of_lt small]
  | true => simp [BitVec.toInt_eq_toNat_cond, twosComplement, signedWord, Nat.mod_eq_of_lt small]

private theorem kind_ofBits {kind : Kind} (integral : kind.isInteger) (negative : Bool) (bits : Nat) :
    (ofBits kind negative bits).kind = kind := by
  cases kind with
  | float | double => cases integral
  | int32 | int64 => rfl

private theorem toInt?_ofBits (kind : Kind) (negative : Bool) {word : Nat} (small : word < 2 ^ wordBits kind) :
    (ofBits kind negative word).toInt? =
      some (twosComplement (wordBits kind) (signedWord (wordBits kind) negative word)) := by
  rw [← toInt_signedWord small]
  cases kind <;> cases negative <;> rfl

namespace Grammar

/-- The suffixes of the integer kinds. -/
def integerSuffix : Language Char := oneOf (· ∈ ['%', '&'])

private theorem mem_optional_integerSuffix {word : List Char} :
    word ∈ optional integerSuffix ↔ ∃ suffix, word = suffixText suffix ∧ ∀ kind ∈ suffix, kind.isInteger := by
  constructor
  · rintro (rfl | ⟨c, letter, rfl⟩)
    · exact ⟨none, rfl, nofun⟩
    · simp only [List.mem_cons, List.not_mem_nil, or_false] at letter
      rcases letter with rfl | rfl
      · exact ⟨some .int32, rfl, by decide⟩
      · exact ⟨some .int64, rfl, by decide⟩
  · rintro ⟨suffix, rfl, integral⟩
    cases suffix with
    | none => exact Or.inl rfl
    | some kind =>
      have integer := integral kind rfl
      cases kind with
      | float | double => cases integer
      | int32 | int64 => exact Or.inr ⟨_, by decide, rfl⟩

end Grammar

structure HexInteger where
  negative : Bool
  digits : List Char
  suffix : Option Kind
  run : digits ∈ Grammar.hexDigits
  integral : ∀ kind ∈ suffix, kind.isInteger

namespace HexInteger

def parts (integer : HexInteger) : Parts := ⟨integer.negative, .hex integer.digits, integer.suffix⟩

def kind (integer : HexInteger) : Kind := if integer.suffix = some .int64 then .int64 else .int32

def bits (integer : HexInteger) : Nat := wordBits integer.kind

def unsigned (integer : HexInteger) : Nat := placeValue integer.digits

/-- What the word of the digits stands for, once a minus has negated that word. -/
def value (integer : HexInteger) : Int :=
  twosComplement integer.bits (signedWord integer.bits integer.negative integer.unsigned)

open scoped Computability in
/-- The texts of hexadecimal integers are the words of `[+-]? &[hH][0-9A-Fa-f]+ [%&]?`. -/
theorem exists_spells_iff {text : String} :
    text.toList ∈ Grammar.optional Grammar.sign * Grammar.hex * Grammar.optional Grammar.integerSuffix ↔
      ∃ integer : HexInteger, integer.parts.Spells text := by
  constructor
  · rintro ⟨_, ⟨sign, before, _, ⟨_, ⟨_, ⟨_, rfl, rfl⟩, _, ⟨marker, letter, rfl⟩, rfl⟩, digits, run, rfl⟩, rfl⟩, _,
      behind, whole⟩
    obtain ⟨suffix, rfl, integral⟩ := Grammar.mem_optional_integerSuffix.mp behind
    have formed : Pieces.WellFormed ⟨sign, .hex marker digits, suffixText suffix⟩ :=
      ⟨before, .hex ⟨marker, letter, rfl⟩ run, mem_optional_typeSuffix.mpr ⟨suffix, rfl⟩⟩
    exact ⟨⟨decide (sign = ['-']), digits, suffix, run, integral⟩, _, formed, ⟨decide_eq_true_iff, .hex _ _, rfl⟩,
      whole.symm⟩
  · rintro ⟨⟨negative, digits, suffix, run, integral⟩, ⟨sign, body, behind⟩, formed, denotes, whole⟩
    have middle := formed.body
    have same := denotes.body
    cases same with
    | hex marker =>
      cases middle with
      | hex letter run =>
        have ampersand : ['&'] ∈ Grammar.oneOf (· = '&') := ⟨'&', rfl, rfl⟩
        have hex := Language.append_mem_mul (Language.append_mem_mul ampersand letter) run
        have behind := Grammar.mem_optional_integerSuffix.mpr ⟨suffix, denotes.suffix, integral⟩
        rw [whole]
        exact Language.append_mem_mul (Language.append_mem_mul formed.sign hex) behind

variable (integer : HexInteger)

private theorem kind_eq : integer.suffix.getD .int32 = integer.kind := by
  obtain ⟨negative, digits, suffix, run, integral⟩ := integer
  cases suffix with
  | none => rfl
  | some kind =>
    have integer := integral kind rfl
    cases kind with
    | float | double => cases integer
    | int32 | int64 => rfl

private theorem kind_isInteger : integer.kind.isInteger := by
  rw [kind]
  split <;> rfl

section Parse

variable {integer} {text : String} (spells : integer.parts.Spells text) {settings : Settings} (allowed : settings.hex)
  (enabled : integer.suffix ≠ none → settings.typeSuffixes)
include spells allowed enabled

private theorem parse_eq : parse settings text =
    if integer.unsigned < 2 ^ integer.bits then .ok (ofBits integer.kind integer.negative integer.unsigned)
    else .error ⟨some integer.kind, text, .tooLarge⟩ := by
  have read := readHex_integer integer.kind_isInteger integer.negative integer.run
  have word : readHex integer.negative integer.digits integer.suffix =
      readHex integer.negative integer.digits (some integer.kind) := by
    rw [readHex, kind_eq, readHex, Option.getD_some]
  rw [parse_of_scan (spells_iff.mp spells), parts, ofParts_hexadecimal enabled allowed, word, read]
  change _ = if placeValue integer.digits < 2 ^ wordBits integer.kind then _ else _
  by_cases small : placeValue integer.digits < 2 ^ wordBits integer.kind
  · rw [if_pos small, if_pos small]
    rfl
  · rw [if_neg small, if_neg small]
    rfl

private theorem parse_of_lt (small : integer.unsigned < 2 ^ integer.bits) :
    ∃ number, parse settings text = .ok number ∧ number.kind = integer.kind ∧ number.toInt? = some integer.value :=
  ⟨_, (parse_eq spells allowed enabled).trans (if_pos small), kind_ofBits integer.kind_isInteger _ _,
    toInt?_ofBits integer.kind integer.negative small⟩

private theorem parse_of_le (large : 2 ^ integer.bits ≤ integer.unsigned) :
    parse settings text = .error ⟨some integer.kind, text, .tooLarge⟩ :=
  (parse_eq spells allowed enabled).trans (if_neg (Nat.not_lt.mpr large))

/-- A hexadecimal integer is a number exactly if its digits fit the word of its kind. The number is the one that the word
stands for, and a minus negates the word. -/
theorem parse_hexInteger :
    ((∃ number, parse settings text = .ok number) ↔ integer.unsigned < 2 ^ integer.bits) ∧
      (∀ number, parse settings text = .ok number →
        number.kind = integer.kind ∧ number.toInt? = some integer.value) ∧
      (2 ^ integer.bits ≤ integer.unsigned → ∃ reason,
        parse settings text = .error ⟨some integer.kind, text, reason⟩ ∧
          reason.message = "number too large to fit in target type") := by
  have fits {number : Number} (found : parse settings text = .ok number) : integer.unsigned < 2 ^ integer.bits := by
    by_contra large
    rw [parse_of_le spells allowed enabled (Nat.not_lt.mp large)] at found
    cases found
  refine ⟨⟨fun ⟨_, found⟩ => fits found, fun small => ?_⟩, fun number found => ?_, fun large => ?_⟩
  · obtain ⟨number, read, -⟩ := parse_of_lt spells allowed enabled small
    exact ⟨number, read⟩
  · obtain ⟨other, read, meaning⟩ := parse_of_lt spells allowed enabled (fits found)
    rw [found] at read
    cases read
    exact meaning
  · exact ⟨_, parse_of_le spells allowed enabled large, rfl⟩

end Parse

/-- The least word is its own negative, leading zeros do not count, and one digit more is too much for a word of 32
bits but not for one of 64. -/
theorem parse_hexInteger_extremes :
    (∃ number, parse .standard "-&H0080000000" = .ok number ∧ number.toInt? = some (-2147483648)) ∧
    (∃ number, parse .standard "-&h1ffffFFFF&" = .ok number ∧ number.kind = .int64 ∧
      number.toInt? = some (-8589934591)) ∧
    ∃ reason, parse .standard "&h100000000%" = .error ⟨some .int32, "&h100000000%", reason⟩ ∧
      reason.message = "number too large to fit in target type" := by
  let least : HexInteger :=
    { negative := true
      digits := "0080000000".toList
      suffix := none
      run := Grammar.mem_hexDigits.mpr ⟨by decide, List.all_eq_true.mp (by decide)⟩
      integral := nofun }
  let long : HexInteger :=
    { negative := true
      digits := "1ffffFFFF".toList
      suffix := some .int64
      run := Grammar.mem_hexDigits.mpr ⟨by decide, List.all_eq_true.mp (by decide)⟩
      integral := by decide }
  let large : HexInteger :=
    { negative := false
      digits := "100000000".toList
      suffix := some .int32
      run := Grammar.mem_hexDigits.mpr ⟨by decide, List.all_eq_true.mp (by decide)⟩
      integral := by decide }
  have leastValue : least.value = -2147483648 := by decide +kernel
  have longValue : long.value = -8589934591 := by decide +kernel
  have leastSpells : least.parts.Spells "-&H0080000000" := spells_iff.mpr (by decide)
  have longSpells : long.parts.Spells "-&h1ffffFFFF&" := spells_iff.mpr (by decide)
  have largeSpells : large.parts.Spells "&h100000000%" := spells_iff.mpr (by decide)
  have enabled (suffix : Option Kind) : suffix ≠ none → Settings.standard.typeSuffixes := fun _ => rfl
  refine ⟨?_, ?_, ?_⟩
  · obtain ⟨accepted, value, -⟩ := parse_hexInteger leastSpells rfl (enabled _)
    obtain ⟨number, read⟩ := accepted.mpr (by decide)
    rw [leastValue] at value
    exact ⟨number, read, (value number read).2⟩
  · obtain ⟨accepted, value, -⟩ := parse_hexInteger longSpells rfl (enabled _)
    obtain ⟨number, read⟩ := accepted.mpr (by decide)
    rw [longValue] at value
    exact ⟨number, read, value number read⟩
  · exact (parse_hexInteger largeSpells rfl (enabled _)).2.2 (by decide)

end HexInteger

end ScriptNumbers.Literal
