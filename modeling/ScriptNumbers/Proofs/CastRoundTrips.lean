import Mathlib.Data.Nat.Factorization.Basic
import Mathlib.Data.Nat.Prime.Basic
import ScriptNumbers.Proofs.FloatingCasts
import ScriptNumbers.Proofs.IntegerQuotients

/-! Casts there and back. An integer survives a floating kind if that kind has it. One that it does not have is rounded to
another integer, and only the last of its own kind comes back all the same, since a cast beyond the range ends there. -/

namespace ScriptNumbers

open Literal

/-- Zero, or an odd number of few bits times a power of two. -/
def HasShortOddPart (bits : Nat) (value : Int) : Prop :=
  value = 0 ∨ ∃ odd doublings : Nat, Odd odd ∧ odd < 2 ^ bits ∧ value.natAbs = odd * 2 ^ doublings

namespace Format

variable {format : Format}

private theorem two_mul_binadeSize_eq (format : Format) : 2 * format.binadeSize = 2 ^ format.precision := by
  simpa [twoPow] using (format.twoPow_precision_add 0).symm

/-- The odd part of a magnitude divides its significand. -/
theorem odd_lt_of_magnitude {rank odd doublings : Nat} (parity : Odd odd) (positive : 0 < rank)
    (same : format.magnitude rank = (odd * 2 ^ doublings : Nat)) : odd < 2 ^ format.precision := by
  have counted : format.units rank = odd * 2 ^ doublings * format.one := by
    rw [magnitude_eq, div_eq_iff format.one_pos'.ne'] at same
    exact_mod_cast same
  have divides : odd ∣ format.significand rank * 2 ^ format.doublings rank := by
    change odd ∣ format.units rank
    rw [counted, Nat.mul_assoc]
    exact Nat.dvd_mul_right _ _
  have coprime : odd.Coprime (2 ^ format.doublings rank) := parity.coprime_two_right.pow_right _
  have bound := Nat.le_of_dvd (format.significand_pos positive) (coprime.dvd_of_dvd_mul_right divides)
  rw [← two_mul_binadeSize_eq]
  exact bound.trans_lt (format.significand_lt rank)

end Format

namespace Binary

variable {format : Format} {value : Int}

/-- An integer that the format has keeps its value. -/
theorem toRat?_ofInt_of_held {held : Binary format} (exact : held.toRat? = some (value : ℚ)) :
    (ofInt value : Binary format).toRat? = some (value : ℚ) := by
  cases held with
  | nan | infinity => cases exact
  | finite negative rank =>
    obtain ⟨key, -, inside, same⟩ := exists_key_of_finite negative rank
    exact toRat?_ofInt_of_key inside (same.trans (Option.some.inj exact))

private theorem hasShortOddPart_of_held {held : Binary format} (exact : held.toRat? = some (value : ℚ)) :
    HasShortOddPart format.precision value := by
  cases held with
  | nan | infinity => cases exact
  | finite negative rank =>
    have size : format.magnitude rank = value.natAbs := by
      rw [← Format.abs_signedMagnitude format negative, Option.some.inj exact, Nat.cast_natAbs, Int.cast_abs]
    by_cases zero : value = 0
    · exact Or.inl zero
    obtain ⟨doublings, odd, parity, split⟩ := Nat.exists_eq_two_pow_mul_odd (Int.natAbs_ne_zero.mpr zero)
    rw [Nat.mul_comm] at split
    have positive : 0 < rank.val := by
      apply Nat.pos_of_ne_zero
      apply format.ne_zero_of_magnitude_pos
      rw [size]
      exact_mod_cast Int.natAbs_pos.mpr zero
    exact Or.inr ⟨odd, doublings, parity, Format.odd_lt_of_magnitude parity positive (by rw [size, split]), split⟩

section Words

variable (wide : 63 < twoPow (format.exponentBits - 1)) (small : value.natAbs ≤ 2 ^ 63)
include wide small

private theorem exists_held_of_hasShortOddPart (short : HasShortOddPart format.precision value) :
    ∃ held : Binary format, held.toRat? = some (value : ℚ) := by
  have size : |(value : ℚ)| = value.natAbs := by rw [Nat.cast_natAbs, Int.cast_abs]
  obtain ⟨rank, magnitude⟩ : ∃ rank, format.magnitude rank = |(value : ℚ)| := by
    rcases short with rfl | ⟨odd, doublings, -, short, split⟩
    · exact ⟨0, by rw [Format.magnitude_zero, Int.cast_zero, abs_zero]⟩
    · rw [← Format.two_mul_binadeSize_eq] at short
      obtain ⟨rank, exact⟩ := format.exists_magnitude_eq short (show -(format.unitBits : Int) ≤ doublings by omega)
      refine ⟨rank, ?_⟩
      rw [exact, size, split, zpow_natCast]
      norm_cast
  have inside : rank < format.limit := by
    have bound := format.rankOfRat_intCast_lt_limit wide small
    rwa [← Format.rankOfRat_abs, ← magnitude, Format.rankOfRat_magnitude] at bound
  refine ⟨ofRank (decide (value < 0)) rank, ?_⟩
  rw [toRat?_ofRank _ inside, signedMagnitude, magnitude]
  rcases lt_or_ge value 0 with negative | nonneg
  · rw [if_pos (by simpa using negative), abs_of_neg (by exact_mod_cast negative), neg_neg]
  · rw [if_neg (by simpa using nonneg), abs_of_nonneg (by exact_mod_cast nonneg)]

private theorem exists_toRat?_ofInt_of_word : ∃ exact, (ofInt value : Binary format).toRat? = some exact := by
  have inside := format.rankOfRat_intCast_lt_limit wide small
  refine ⟨_, toRat?_of_key? (key?_round false _) ?_⟩
  rwa [format.natAbs_keyOfRat, min_eq_left inside.le]

end Words

/-- A word that comes back is one that the format has, unless it is where the cast back ends. The least word is no such
exception: it is a power of two. -/
theorem truncateInto_ofInt_eq_iff (wide : 63 < twoPow (format.exponentBits - 1)) {bits : Nat} (long : bits ≤ 64)
    (fits : Fits bits value)
    (last : (ofInt (2 ^ (bits - 1) - 1) : Binary format).truncateInto (-2 ^ (bits - 1)) (2 ^ (bits - 1) - 1) =
      2 ^ (bits - 1) - 1) :
    (ofInt value : Binary format).truncateInto (-2 ^ (bits - 1)) (2 ^ (bits - 1) - 1) = value ↔
      (∃ held : Binary format, held.toRat? = some (value : ℚ)) ∨ value = 2 ^ (bits - 1) - 1 := by
  have bound : (2 : Int) ^ (bits - 1) ≤ 2 ^ 63 := pow_le_pow_right₀ (by decide) (by omega)
  obtain ⟨low, high⟩ := fits
  have small : value.natAbs ≤ 2 ^ 63 := by omega
  constructor
  · intro back
    by_cases atLast : value = 2 ^ (bits - 1) - 1
    · exact Or.inr atLast
    left
    rcases low.eq_or_lt with rfl | inside
    · have size : (-2 ^ (bits - 1) : Int).natAbs = 1 * 2 ^ (bits - 1) := by simp [Int.natAbs_pow]
      have short : 1 < 2 ^ format.precision := Nat.one_lt_two_pow (by have two := format.two_le_precision; omega)
      exact exists_held_of_hasShortOddPart wide small (Or.inr ⟨1, _, odd_one, short, size⟩)
    · obtain ⟨exact, finite⟩ := exists_toRat?_ofInt_of_word wide small
      rw [truncateInto_of_toRat? finite] at back
      have same : truncated exact = value := by omega
      exact ⟨_, same ▸ toRat?_truncate finite⟩
  · rintro (⟨held, exact⟩ | rfl)
    · rw [truncateInto_of_toRat? (toRat?_ofInt_of_held exact), truncated_intCast, min_eq_right (by omega),
        max_eq_right low]
    · exact last

end Binary

namespace Kind

/-- Bits of the significand of a floating kind. -/
def precision : Kind → Nat
  | double => 53
  | int32 | int64 | float => 24

private theorem precision_format (kind : Kind) : kind.format.precision = kind.precision := by
  cases kind <;> rfl

private theorem wide_format (kind : Kind) : 63 < twoPow (kind.format.exponentBits - 1) := by
  cases kind <;> decide

/-- A kind has a number with exactly this value. -/
def Holds (kind : Kind) (value : Int) : Prop := ∃ held : Number, held.kind = kind ∧ held.toRat? = some (value : ℚ)

private theorem holds_iff {kind : Kind} (floating : kind.isFloating) {value : Int} :
    kind.Holds value ↔ ∃ held : Binary kind.format, held.toRat? = some (value : ℚ) := by
  constructor
  · rintro ⟨held, rfl, exact⟩
    cases held with
    | int32 | int64 => cases floating
    | float held | double held => exact ⟨held, exact⟩
  · rintro ⟨held, exact⟩
    cases kind with
    | int32 | int64 => cases floating
    | float => exact ⟨.float held, rfl, exact⟩
    | double => exact ⟨.double held, rfl, exact⟩

/-- The greatest value of the words of a kind. -/
def lastWord (kind : Kind) : Int := 2 ^ (wordBits kind - 1) - 1

/-- What a value becomes on the way through a floating kind and back to a word. -/
def returned (kind word : Kind) (value : Int) : Int :=
  (Binary.ofInt value : Binary kind.format).truncateInto (-2 ^ (wordBits word - 1)) word.lastWord

theorem fits_truncateInto {format : Format} (word : Kind) (value : Binary format) :
    Fits (wordBits word) (value.truncateInto (-2 ^ (wordBits word - 1)) word.lastWord) := by
  have positive : (0 : Int) < 2 ^ (wordBits word - 1) := pow_pos (by decide) _
  obtain ⟨low, high⟩ := value.truncateInto_mem (show -2 ^ (wordBits word - 1) ≤ (0 : Int) by omega)
    (show (0 : Int) ≤ word.lastWord from Int.le_sub_one_of_lt positive)
  exact ⟨low, Int.lt_of_le_sub_one high⟩

/-- Where a format does not have the greatest word, it rounds it up. -/
theorem returned_lastWord (kind word : Kind) : kind.returned word word.lastWord = word.lastWord := by
  cases kind <;> cases word <;> decide +kernel

private theorem returned_eq_iff {kind word : Kind} (floating : kind.isFloating) {value : Int}
    (fits : Fits (wordBits word) value) :
    kind.returned word value = value ↔ kind.Holds value ∨ value = word.lastWord := by
  have long : wordBits word ≤ 64 := by cases word <;> decide
  rw [holds_iff floating]
  exact Binary.truncateInto_ofInt_eq_iff kind.wide_format long fits (kind.returned_lastWord word)

/-- The kind has the integers whose odd part fits its significand. -/
theorem holds_iff_hasShortOddPart {kind word : Kind} (floating : kind.isFloating) {value : Int}
    (fits : Fits (wordBits word) value) : kind.Holds value ↔ HasShortOddPart kind.precision value := by
  have small : value.natAbs ≤ 2 ^ 63 := by
    have long : (2 : Int) ^ (wordBits word - 1) ≤ 2 ^ 63 := by cases word <;> decide
    obtain ⟨low, high⟩ := fits
    omega
  rw [holds_iff floating, ← precision_format]
  constructor
  · rintro ⟨held, exact⟩
    exact Binary.hasShortOddPart_of_held exact
  · exact Binary.exists_held_of_hasShortOddPart kind.wide_format small

end Kind

namespace Number

variable {number : Number} {value : Int} {kind : Kind}

private theorem eq_ofWord_of_toInt? (exact : number.toInt? = some value) : number = ofWord number.kind value := by
  cases number with
  | int32 word =>
    cases exact
    exact congrArg int32 (Int32.ofInt_toInt word).symm
  | int64 word =>
    cases exact
    exact congrArg int64 (Int64.ofInt_toInt word).symm
  | float | double => cases exact

section Integers

variable (exact : number.toInt? = some value) (floating : kind.isFloating)
include exact floating

private theorem cast_cast_integer :
    (number.cast kind).cast number.kind = ofWord number.kind (kind.returned number.kind value) := by
  cases number with
  | int32 word | int64 word =>
    cases exact
    cases kind with
    | int32 | int64 => cases floating
    | float | double => rfl
  | float | double => cases exact

private theorem toInt?_cast_cast :
    ((number.cast kind).cast number.kind).toInt? = some (kind.returned number.kind value) := by
  rw [cast_cast_integer exact floating, toInt?_ofWord]
  exact congrArg some (Kind.fits_truncateInto number.kind _).bmod_eq

private theorem cast_cast_eq_iff :
    (number.cast kind).cast number.kind = number ↔ kind.returned number.kind value = value := by
  constructor
  · intro same
    have back := toInt?_cast_cast exact floating
    rw [same, exact] at back
    exact (Option.some.inj back).symm
  · intro same
    rw [cast_cast_integer exact floating, same, ← eq_ofWord_of_toInt? exact]

private theorem equalTo_cast_cast_iff :
    ((number.cast kind).cast number.kind).equalTo number ↔ kind.returned number.kind value = value := by
  rw [equalTo, compare_of_integers (toInt?_cast_cast exact floating) exact, beq_iff_eq, Option.some_inj, compare_eq_iff_eq]

end Integers

/-- An integer comes back from a floating kind, as the same word and as an equal number, exactly if that kind has its
value or it is the greatest of its own kind. Doubles bring every float back. -/
theorem cast_cast_eq :
    (∀ {number : Number} {value : Int} {kind : Kind}, number.toInt? = some value → kind.isFloating →
      ((number.cast kind).cast number.kind = number ↔ kind.Holds value ∨ value = number.kind.lastWord) ∧
      (((number.cast kind).cast number.kind).equalTo number ↔ kind.Holds value ∨ value = number.kind.lastWord) ∧
      (kind.Holds value ↔ HasShortOddPart kind.precision value)) ∧
    ∀ value : Single, ((float value).cast .double).cast .float = float value := by
  constructor
  · intro number value kind exact floating
    have fits := fits_of_toInt? exact
    have same := Kind.returned_eq_iff floating fits
    exact ⟨(cast_cast_eq_iff exact floating).trans same, (equalTo_cast_cast_iff exact floating).trans same,
      Kind.holds_iff_hasShortOddPart floating fits⟩
  · intro value
    exact congrArg float (Binary.widens_convert value).convert

/-- The two greatest long integers both become `2 ^ 63` as doubles. -/
theorem cast_cast_eq_greatest :
    (int64 9223372036854775807).toInt? = some 9223372036854775807 ∧ Kind.double.isFloating ∧
    ((int64 9223372036854775807).cast .double).cast .int64 = int64 9223372036854775807 ∧
    ((int64 9223372036854775806).cast .double).cast .int64 = int64 9223372036854775807 ∧
    ¬Kind.double.Holds 9223372036854775806 := by
  have greatest := (cast_cast_eq.1 (show (int64 9223372036854775807).toInt? = some 9223372036854775807 from rfl)
    (show Kind.double.isFloating from rfl)).1
  have before := (cast_cast_eq.1 (show (int64 9223372036854775806).toInt? = some 9223372036854775806 from rfl)
    (show Kind.double.isFloating from rfl)).1
  have up : ((int64 9223372036854775806).cast .double).cast .int64 = int64 9223372036854775807 := by decide +kernel
  refine ⟨rfl, rfl, greatest.mpr (Or.inr rfl), up, ?_⟩
  intro held
  have same := before.mpr (Or.inl held)
  exact absurd (same.symm.trans up) (by decide)

end Number

end ScriptNumbers
