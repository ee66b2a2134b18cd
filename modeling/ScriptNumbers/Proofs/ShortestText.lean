import Mathlib.Data.List.DropRight
import ScriptNumbers.Proofs.FloatingNumerals
import ScriptNumbers.Proofs.JsonDecimals
import ScriptNumbers.Proofs.ShortestDigits

/-! The text of a finite floating number. It is positional, it ends in no zero behind the point, and among all numerals
that read back as the number none has fewer significant digits, and none with as many is nearer. -/

namespace ScriptNumbers

namespace Decimal

private theorem getLast?_toDigits (value : Nat) : (toDigits value).getLast? = some (value % 10).digitChar := by
  rcases Nat.lt_or_ge value 10 with small | large
  · rw [toDigits, Nat.toDigits_of_lt_base small, Nat.mod_eq_of_lt small]
    rfl
  · rw [toDigits_of_base_le large, List.getLast?_concat]

/-- The digits of a decimal stand in its positional text between zeros. -/
theorem positionalParts_digits (decimal : Decimal) :
    ∃ front behind, decimal.positionalParts.whole ++ decimal.positionalParts.fraction.getD [] =
      zeros front ++ toDigits decimal.digits ++ zeros behind := by
  unfold positionalParts
  dsimp only
  split
  · exact ⟨0, decimal.exponent.toNat, by simp [zeros]⟩
  · split
    · exact ⟨0, 0, by simp [zeros]⟩
    · exact ⟨(-((toDigits decimal.digits).length + decimal.exponent)).toNat + 1, 0,
        by simp [zeros, List.replicate_succ]⟩

private theorem positionalParts_fraction_last {decimal : Decimal} (last : ¬decimal.digits % 10 = 0)
    {fraction : List Char} (some : decimal.positionalParts.fraction = .some fraction) :
    fraction.getLast? ≠ .some '0' := by
  have digit : (toDigits decimal.digits).getLast? ≠ .some '0' := by
    rw [getLast?_toDigits, Ne, Option.some.injEq, Nat.digitChar_eq_zero]
    exact last
  unfold positionalParts at some
  dsimp only at some
  split at some
  · cases some
  split at some
  next inside =>
    cases some
    rw [List.getLast?_drop, if_neg (by omega)]
    exact digit
  next =>
    cases some
    rw [List.getLast?_append_of_ne_nil _ (toDigits_ne_nil _)]
    exact digit

end Decimal

namespace Binary

/-- What a decimal is that rounds to a finite value. -/
theorem of_ofDecimal_eq {format : Format} {sign negative : Bool} {decimal : Decimal} {rank : Fin format.limit}
    (rounded : (ofDecimal sign decimal : Binary format) = .finite negative rank) :
    sign = negative ∧ format.rankOfRat decimal.toRat = rank := by
  have signs : (ofDecimal sign decimal : Binary format).isNegative = sign := isNegative_ofDecimal sign decimal
  rw [rounded] at signs
  cases signs
  have same := rank_eq_of_ofRank_eq rounded
  exact ⟨rfl, (Decimal.rankOfDecimal_eq_iff format decimal rank.isLt).mp same⟩

end Binary

namespace Numeral

open Decimal

def isZeroDigit (c : Char) : Bool := c == '0'

/-- The digits between the zeros in front and behind. -/
def significant (digits : List Char) : List Char := (digits.dropWhile isZeroDigit).rdropWhile isZeroDigit

private theorem exists_eq_zeros {run : List Char} (zero : ∀ c ∈ run, isZeroDigit c) : ∃ count, run = zeros count :=
  ⟨run.length, List.eq_replicate_of_mem fun c member => beq_iff_eq.mp (zero c member)⟩

private theorem isZeroDigit_of_mem_zeros {count : Nat} : ∀ c ∈ zeros count, isZeroDigit c := by
  intro c member
  rw [List.eq_of_mem_replicate member]
  rfl

private theorem exists_padding (digits : List Char) :
    ∃ front behind, digits = zeros front ++ significant digits ++ zeros behind := by
  obtain ⟨front, before⟩ : ∃ count, digits.takeWhile isZeroDigit = zeros count :=
    exists_eq_zeros fun c => List.mem_takeWhile_imp
  obtain ⟨behind, after⟩ : ∃ count, (digits.dropWhile isZeroDigit).rtakeWhile isZeroDigit = zeros count :=
    exists_eq_zeros fun c => List.mem_rtakeWhile_imp
  refine ⟨front, behind, ?_⟩
  rw [← before, ← after, List.append_assoc, significant, List.rdropWhile_append_rtakeWhile,
    List.takeWhile_append_dropWhile]

private theorem significant_padded {digits : List Char} (some : digits ≠ []) (first : ∀ c ∈ digits.head?, c ≠ '0')
    (last : ∀ c ∈ digits.getLast?, c ≠ '0') (front behind : Nat) :
    significant (zeros front ++ digits ++ zeros behind) = digits := by
  have leading : ∀ c ∈ (digits ++ zeros behind).head?, ¬isZeroDigit c := by
    intro c member
    rw [List.head?_append_of_ne_nil _ some] at member
    exact fun zero => first c member (beq_iff_eq.mp zero)
  have trailing : ∀ c ∈ digits.reverse.head?, ¬isZeroDigit c := by
    intro c member
    rw [List.head?_reverse] at member
    exact fun zero => last c member (beq_iff_eq.mp zero)
  rw [significant, List.append_assoc, dropWhile_run isZeroDigit_of_mem_zeros leading, List.rdropWhile,
    List.reverse_append, zeros, List.reverse_replicate, ← zeros, dropWhile_run isZeroDigit_of_mem_zeros trailing,
    List.reverse_reverse]

/-- A run of digits has the value of its significant digits, apart from a power of ten. -/
theorem exists_ofDigits_eq (digits : List Char) :
    ∃ tens, ofDigits digits = ofDigits (significant digits) * 10 ^ tens := by
  obtain ⟨front, behind, padded⟩ := exists_padding digits
  refine ⟨behind, ?_⟩
  conv_lhs => rw [padded, ofDigits_append_zeros, ofDigits_zeros_append]

private theorem digits_significant {digits : List Char} (run : Digits digits) : Digits (significant digits) := by
  intro c member
  apply run
  exact (List.dropWhile_suffix _).subset ((List.rdropWhile_prefix _ _).subset member)

def FloatingNumeral.significant (numeral : FloatingNumeral) : List Char :=
  Numeral.significant (numeral.mantissa.whole ++ numeral.mantissa.fraction.getD [])

/-- The numeral that a finite value is written as. -/
def FloatingNumeral.shortest (format : Format) (negative : Bool) (rank : Nat) : FloatingNumeral where
  sign := if negative then some true else none
  mantissa := (Decimal.shortest format .up rank).positionalParts
  power := none
  formed := positionalParts_wellFormed _

section Shortest

variable {format : Format} {negative : Bool} {rank : Nat}

private theorem FloatingNumeral.isNegative_shortest :
    (FloatingNumeral.shortest format negative rank).isNegative = negative := by
  cases negative <;> rfl

private theorem FloatingNumeral.text_shortest :
    (FloatingNumeral.shortest format negative rank).text =
      signed negative (Decimal.shortest format .up rank).positional := by
  rw [text, positional_eq_text, FloatingNumeral.shortest, powerText, List.append_nil]
  cases negative <;> rfl

/-- The value of a numeral under its sign. -/
theorem FloatingNumeral.toRat_eq (numeral : FloatingNumeral) :
    numeral.toRat = if numeral.isNegative then -(numeral.mantissa.scaled numeral.exponent).toRat
      else (numeral.mantissa.scaled numeral.exponent).toRat :=
  scientific_eq _ _ _

private theorem FloatingNumeral.toRat_shortest :
    (FloatingNumeral.shortest format negative rank).toRat =
      if negative then -(Decimal.shortest format .up rank).toRat else (Decimal.shortest format .up rank).toRat := by
  rw [toRat_eq, isNegative_shortest, FloatingNumeral.shortest]
  exact congrArg (fun value : ℚ => if negative then -value else value) (toRat_scaled_positionalParts _)

private theorem FloatingNumeral.significant_shortest (positive : 0 < rank) (finite : rank < format.limit) :
    (FloatingNumeral.shortest format negative rank).significant =
      toDigits (Decimal.shortest format .up rank).digits := by
  have some := digits_shortest_pos .up positive finite
  have last := shortest_digits_mod_ten .up positive finite
  obtain ⟨front, behind, padded⟩ := positionalParts_digits (Decimal.shortest format .up rank)
  rw [FloatingNumeral.significant, FloatingNumeral.shortest, padded]
  apply significant_padded (toDigits_ne_nil _)
  · intro c member zero
    obtain ⟨rest, leading⟩ := List.head?_eq_some_iff.mp (zero ▸ member)
    exact some.ne' (toDigits_leading_zero leading).1
  · intro c member zero
    rw [getLast?_toDigits, Option.mem_some_iff] at member
    exact last (Nat.digitChar_eq_zero.mp (member.trans zero))

/-- A numeral that is read as the same finite value. -/
theorem FloatingNumeral.shortest_minimal (positive : 0 < rank) (finite : rank < format.limit) {other : FloatingNumeral}
    (sign : other.isNegative = negative)
    (reads : format.rankOfRat (other.mantissa.scaled other.exponent).toRat = rank) :
    (FloatingNumeral.shortest format negative rank).significant.length ≤ other.significant.length ∧
      (other.significant.length = (FloatingNumeral.shortest format negative rank).significant.length →
        |(FloatingNumeral.shortest format negative rank).toRat - Binary.signedMagnitude format negative rank| ≤
          |other.toRat - Binary.signedMagnitude format negative rank|) := by
  have run : Digits (other.mantissa.whole ++ other.mantissa.fraction.getD []) :=
    other.formed.whole.append other.formed.fraction
  obtain ⟨tens, digits⟩ := exists_ofDigits_eq (other.mantissa.whole ++ other.mantissa.fraction.getD [])
  -- the competitor without the zeros around its digits
  have same : (⟨ofDigits other.significant, (other.mantissa.scaled other.exponent).exponent + tens⟩ : Decimal).toRat =
      (other.mantissa.scaled other.exponent).toRat := by
    rw [Decimal.toRat, Decimal.toRat, zpow_add₀ (by norm_num), zpow_natCast, Mantissa.scaled, digits]
    push_cast
    rw [FloatingNumeral.significant]
    ring
  have few : ofDigits other.significant < 10 ^ other.significant.length := ofDigits_lt (digits_significant run)
  have minimal := Decimal.shortest_minimal .up positive finite few (same.symm ▸ reads)
  rw [same] at minimal
  have distance (left right : ℚ) : |(if negative then -left else left) - (if negative then -right else right)| =
      |left - right| := by
    cases negative with
    | false => rfl
    | true => rw [if_pos rfl, if_pos rfl, neg_sub_neg, abs_sub_comm]
  rw [significant_shortest positive finite, toRat_shortest, toRat_eq, sign, Binary.signedMagnitude, distance, distance]
  exact minimal

end Shortest

section Words

open Literal
open scoped Computability

/-- `-? [0-9]+ (\. [0-9]* [1-9])?` -/
def positionalWords : Language Char :=
  Grammar.optional (Grammar.oneOf (· = '-')) * Grammar.many Grammar.digit *
    Grammar.optional (Grammar.point * (Grammar.digit∗ * Grammar.oneOf fun c => Grammar.IsDigit c ∧ c ≠ '0'))

private theorem mem_positionalWords (negative : Bool) {decimal : Decimal} (last : ¬decimal.digits % 10 = 0) :
    signed negative decimal.positional ∈ positionalWords := by
  have formed := decimal.positionalParts_wellFormed
  have sign : (if negative then ['-'] else []) ∈ Grammar.optional (Grammar.oneOf (· = '-')) := by
    cases negative with
    | false => exact Or.inl rfl
    | true => exact Or.inr ⟨'-', rfl, rfl⟩
  have whole : decimal.positionalParts.whole ∈ Grammar.many Grammar.digit :=
    Grammar.mem_many_digit.mpr ⟨decimal.positionalParts_whole_ne_nil, formed.whole⟩
  have text : signed negative decimal.positional =
      (if negative then ['-'] else []) ++ decimal.positionalParts.text := by
    rw [positional_eq_text, signed]
    cases negative <;> rfl
  rw [text, Mantissa.text, ← List.append_assoc]
  apply Language.append_mem_mul (Language.append_mem_mul sign whole)
  cases present : decimal.positionalParts.fraction with
  | none => exact Or.inl rfl
  | some fraction =>
    have run : Digits fraction := by
      have digits := formed.fraction
      rwa [present] at digits
    obtain ⟨front, c, rfl⟩ : ∃ front c, fraction = front ++ [c] :=
      ⟨_, _, (List.dropLast_append_getLast (decimal.positionalParts_fraction_ne_nil present)).symm⟩
    have behind := positionalParts_fraction_last last present
    rw [List.getLast?_concat, Ne, Option.some.injEq] at behind
    have digits : front ∈ Grammar.digit∗ :=
      Grammar.mem_kstar_digit.mpr fun other member => run other (List.mem_append_left _ member)
    have digit : [c] ∈ Grammar.oneOf fun c => Grammar.IsDigit c ∧ c ≠ '0' :=
      ⟨c, ⟨Grammar.isDigit_iff.mpr (run c (List.mem_append_right _ List.mem_cons_self)), behind⟩, rfl⟩
    exact Or.inr (Language.append_mem_mul Grammar.mem_point (Language.append_mem_mul digits digit))

end Words

end Numeral

namespace Number

open Numeral

/-- Among the numerals that are read as a number, one with the fewest significant digits, and of those one that is
nearest. -/
structure IsShortest (number : Number) (value : ℚ) (printed : FloatingNumeral) : Prop where
  reads : ofText number.kind (String.ofList printed.text) = .ok number
  fewest : ∀ other : FloatingNumeral, ofText number.kind (String.ofList other.text) = .ok number →
    printed.significant.length ≤ other.significant.length
  nearest : ∀ other : FloatingNumeral, ofText number.kind (String.ofList other.text) = .ok number →
    other.significant.length = printed.significant.length → |printed.toRat - value| ≤ |other.toRat - value|

private theorem isShortest_of_finite {format : Format} {negative : Bool} {rank : Fin format.limit}
    (positive : 0 < rank.val) {number : Number}
    (text : number.chars = (Binary.finite negative rank : Binary format).text)
    (reads : ∀ other : FloatingNumeral, ofText number.kind (String.ofList other.text) = .ok number →
      (Binary.ofDecimal other.isNegative (other.mantissa.scaled other.exponent) : Binary format) = .finite negative rank) :
    number.text.toList ∈ positionalWords ∧
      ∃ printed : FloatingNumeral, printed.text = number.text.toList ∧
        number.IsShortest (Binary.signedMagnitude format negative rank) printed := by
  have minimal {other : FloatingNumeral} (read : ofText number.kind (String.ofList other.text) = .ok number) :=
    FloatingNumeral.shortest_minimal positive rank.isLt (Binary.of_ofDecimal_eq (reads other read)).1
      (Binary.of_ofDecimal_eq (reads other read)).2
  have whole : number.text.toList = (FloatingNumeral.shortest format negative rank).text := by
    rw [Number.text, String.toList_ofList, text, FloatingNumeral.text_shortest]
    rfl
  constructor
  · rw [whole, FloatingNumeral.text_shortest]
    exact mem_positionalWords negative (Decimal.shortest_digits_mod_ten .up positive rank.isLt)
  · refine ⟨_, whole.symm, ?_, fun other read => (minimal read).1, fun other read => (minimal read).2⟩
    rw [← whole, String.ofList_toList, Number.text, ofText_ofList_chars]

/-- A finite floating number other than a zero is written positionally, and no other numeral of it has fewer significant
digits, or as many and is nearer. -/
theorem text_fewestDigits (number : Number) (floating : number.kind.isFloating) (finite : number.isFinite)
    (some : ¬number.isZero) :
    number.text.toList ∈ positionalWords ∧
      ∃ value printed, number.toRat? = .some value ∧ printed.text = number.text.toList ∧
        number.IsShortest value printed := by
  have rounded (other : FloatingNumeral) (read : ofText number.kind (String.ofList other.text) = .ok number) :
      Number.ofDecimal number.kind other.isNegative (other.mantissa.scaled other.exponent) = number :=
    Except.ok.inj ((ofText_numeral other floating).symm.trans read)
  cases number with
  | int32 | int64 => cases floating
  | float value =>
    cases value with
    | nan | infinity => cases finite
    | finite negative rank =>
      have positive : 0 < rank.val := Nat.pos_of_ne_zero fun zero => some (beq_iff_eq.mpr zero)
      obtain ⟨words, printed, text, shortest⟩ :=
        isShortest_of_finite positive rfl fun other read => Number.float.inj (rounded other read)
      exact ⟨words, _, printed, rfl, text, shortest⟩
  | double value =>
    cases value with
    | nan | infinity => cases finite
    | finite negative rank =>
      have positive : 0 < rank.val := Nat.pos_of_ne_zero fun zero => some (beq_iff_eq.mpr zero)
      obtain ⟨words, printed, text, shortest⟩ :=
        isShortest_of_finite positive rfl fun other read => Number.double.inj (rounded other read)
      exact ⟨words, _, printed, rfl, text, shortest⟩

/-- The double next to three tenths takes all of seventeen digits. -/
theorem text_fewestDigits_nearTenths :
    ((Number.double (.ofBits 0x3fd3333333333334)).kind.isFloating ∧
      (Number.double (.ofBits 0x3fd3333333333334)).isFinite ∧ ¬(Number.double (.ofBits 0x3fd3333333333334)).isZero) ∧
    (Number.double (.ofBits 0x3fd3333333333334)).text = "0.30000000000000004" ∧
    ∃ value printed, (Number.double (.ofBits 0x3fd3333333333334)).toRat? = some value ∧
      printed.text = "0.30000000000000004".toList ∧
      (Number.double (.ofBits 0x3fd3333333333334)).IsShortest value printed := by
  have finite : (Number.double (.ofBits 0x3fd3333333333334)).isFinite := by decide +kernel
  have nonzero : ¬(Number.double (.ofBits 0x3fd3333333333334)).isZero := by decide +kernel
  have text : (Number.double (.ofBits 0x3fd3333333333334)).text = "0.30000000000000004" := by decide +kernel
  have shortest := (text_fewestDigits (.double (.ofBits 0x3fd3333333333334)) rfl finite nonzero).2
  rw [text] at shortest
  exact ⟨⟨rfl, finite, nonzero⟩, text, shortest⟩

end Number

end ScriptNumbers
