import Mathlib.Data.Nat.Digits.Defs
import ScriptNumbers.Numeral.Hexadecimal
import ScriptNumbers.Proofs.LiteralGrammar

/-! Hexadecimal numerals made of digits alone. They are read from left to right below a bound, and a value that has left
the bound only grows, so all that matters is the value of the whole. -/

namespace ScriptNumbers.Numeral

open Literal

/-- The value of a digit is its place among all digits. -/
def digitPlace (c : Char) : Nat := "0123456789abcdef".toList.idxOf c.toLower

/-- The value of digits, the last of which counts ones. -/
def placeValue (digits : List Char) : Nat := Nat.ofDigits 16 (digits.reverse.map digitPlace)

private theorem placeValue_cons (c : Char) (digits : List Char) :
    placeValue (c :: digits) = placeValue digits + 16 ^ digits.length * digitPlace c := by
  rw [placeValue, List.reverse_cons, List.map_append, Nat.ofDigits_append, List.map_singleton, Nat.ofDigits_singleton,
    List.length_map, List.length_reverse, ← placeValue]

private theorem hexDigit?_eq {c : Char} (digit : isHexDigit c) : hexDigit? c = some (digitPlace c) := by
  have rows : ∀ code < 128, isHexDigit (Char.ofNat code) →
      hexDigit? (Char.ofNat code) = some (digitPlace (Char.ofNat code)) := by decide +kernel
  have ascii : c.toNat < 128 := by
    simp only [isHexDigit, Bool.or_eq_true, Bool.and_eq_true, decide_eq_true_eq] at digit
    rcases digit with (digit | ⟨-, below⟩) | ⟨-, below⟩
    · exact Nat.lt_of_le_of_lt (Char.isDigit_iff_toNat.mp digit).2 (by decide)
    · exact Nat.lt_of_le_of_lt (UInt32.le_iff_toNat_le.mp (Char.le_def.mp below)) (by decide)
    · exact Nat.lt_of_le_of_lt (UInt32.le_iff_toNat_le.mp (Char.le_def.mp below)) (by decide)
  have row := rows c.toNat ascii
  rw [Char.ofNat_toNat] at row
  exact row digit

/-- What has been read is moved ahead of the digits that are left. -/
theorem accumulateHex_eq {size : Nat} {digits : List Char} (run : ∀ c ∈ digits, isHexDigit c) {value : Nat}
    (inside : value < size) :
    accumulateHex size value digits =
      let whole := placeValue digits + 16 ^ digits.length * value
      if whole < size then .ok whole else .error .tooLarge := by
  induction digits generalizing value with
  | nil => simp [accumulateHex, placeValue, inside]
  | cons c rest ih =>
    have digit := hexDigit?_eq (run c List.mem_cons_self)
    have behind := fun other member => run other (List.mem_cons_of_mem c member)
    have whole : placeValue (c :: rest) + 16 ^ (c :: rest).length * value =
        placeValue rest + 16 ^ rest.length * (16 * value + digitPlace c) := by
      rw [placeValue_cons, List.length_cons, Nat.pow_succ]
      ring
    simp only [accumulateHex, digit, whole]
    split
    next fits => exact ih behind fits
    next outside =>
      have grown : 16 * value + digitPlace c ≤ 16 ^ rest.length * (16 * value + digitPlace c) :=
        Nat.le_mul_of_pos_left _ (by positivity)
      rw [if_neg (by omega)]

theorem hexadecimal_digits {size : Nat} (positive : 0 < size) {digits : List Char}
    (legal : digits ∈ Grammar.hexDigits) :
    hexadecimal size digits = if placeValue digits < size then .ok (placeValue digits) else .error .tooLarge := by
  obtain ⟨some, run⟩ := Grammar.mem_hexDigits.mp legal
  have whole := accumulateHex_eq run positive
  rw [Nat.mul_zero, Nat.add_zero] at whole
  rw [← whole]
  cases digits with
  | nil => exact absurd rfl some
  | cons c rest =>
    have digit : isHexDigit c := run c List.mem_cons_self
    have unsigned : c ≠ '+' := by
      rintro rfl
      exact absurd digit (by decide)
    rw [hexadecimal, unsignedHex]
    · exact List.cons_ne_nil c rest
    · exact List.cons_ne_nil c rest
    · exact fun tail same => unsigned (List.cons.inj same).1

end ScriptNumbers.Numeral
