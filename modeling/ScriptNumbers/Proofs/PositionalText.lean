import ScriptNumbers.Decimal.Layout
import ScriptNumbers.Proofs.DecimalRounding
import ScriptNumbers.Proofs.Numerals

/-! The positional text of a decimal is a mantissa with a digit in front, and the mantissa has the value of the
decimal. Only zeros are ever added, behind the digits or between the point and the digits. -/

namespace ScriptNumbers.Decimal

open Numeral

variable (decimal : Decimal)

/-- The digits before and behind the point. -/
def positionalParts : Mantissa :=
  let digits := toDigits decimal.digits
  let point := digits.length + decimal.exponent
  if 0 ≤ decimal.exponent then ⟨digits ++ zeros decimal.exponent.toNat, none⟩
  else if 0 < point then ⟨digits.take point.toNat, some (digits.drop point.toNat)⟩
  else ⟨['0'], some (zeros (-point).toNat ++ digits)⟩

theorem positional_eq_text : decimal.positional = decimal.positionalParts.text := by
  unfold positional positionalParts
  dsimp only
  split
  · exact (List.append_nil _).symm
  · split <;> rfl

theorem positionalParts_whole_ne_nil : decimal.positionalParts.whole ≠ [] := by
  have some := toDigits_ne_nil decimal.digits
  unfold positionalParts
  dsimp only
  split
  · exact List.append_ne_nil_of_left_ne_nil some _
  · split
    next inside =>
      rw [Ne, List.take_eq_nil_iff, not_or]
      exact ⟨by omega, some⟩
    next => exact List.cons_ne_nil _ _

theorem positionalParts_wellFormed : decimal.positionalParts.WellFormed where
  whole := by
    have digits := digits_toDigits decimal.digits
    unfold positionalParts
    dsimp only
    split
    · exact digits.append (digits_zeros _)
    · split
      · exact fun c member => digits c (List.mem_of_mem_take member)
      · exact digits_zeros 1
  fraction := by
    have digits := digits_toDigits decimal.digits
    unfold positionalParts
    dsimp only
    split
    · exact nofun
    · split
      · exact fun c member => digits c (List.mem_of_mem_drop member)
      · exact (digits_zeros _).append digits
  some := List.append_ne_nil_of_left_ne_nil decimal.positionalParts_whole_ne_nil _

theorem ofDigits_append (left right : List Char) :
    ofDigits (left ++ right) = ofDigits left * 10 ^ right.length + ofDigits right := by
  rw [ofDigits, Nat.ofDigitChars_append, Nat.ofDigitChars_eq_ofDigitChars_zero, Nat.mul_comm, ofDigits, ofDigits]

theorem ofDigits_lt {digits : List Char} (run : Digits digits) : ofDigits digits < 10 ^ digits.length := by
  induction digits with
  | nil => exact Nat.one_pos
  | cons c rest ih =>
    have digit := Char.isDigit_iff_toNat.mp (run c List.mem_cons_self)
    have behind := ih fun other member => run other (List.mem_cons_of_mem c member)
    have first : ofDigits [c] ≤ 9 := by
      have bounds : '0'.toNat = 48 ∧ '9'.toNat = 57 := ⟨rfl, rfl⟩
      simp only [ofDigits, Nat.ofDigitChars_cons, Nat.ofDigitChars_nil]
      omega
    have front := Nat.mul_le_mul_right (10 ^ rest.length) first
    rw [show c :: rest = [c] ++ rest from rfl, ofDigits_append, List.length_append, pow_add, List.length_singleton]
    omega

private theorem ofDigits_zeros (count : Nat) : ofDigits (zeros count) = 0 := by
  rw [ofDigits, zeros, Nat.ofDigitChars_replicate_zero, Nat.mul_zero]

theorem ofDigits_append_zeros (digits : List Char) (count : Nat) :
    ofDigits (digits ++ zeros count) = ofDigits digits * 10 ^ count := by
  rw [ofDigits_append, ofDigits_zeros, Nat.add_zero, zeros, List.length_replicate]

theorem ofDigits_zeros_append (count : Nat) (digits : List Char) :
    ofDigits (zeros count ++ digits) = ofDigits digits := by
  rw [ofDigits_append, ofDigits_zeros, Nat.zero_mul, Nat.zero_add]

theorem positionalParts_of_nonneg (nonneg : 0 ≤ decimal.exponent) :
    decimal.positionalParts = ⟨toDigits decimal.digits ++ zeros decimal.exponent.toNat, none⟩ := by
  rw [positionalParts, if_pos nonneg]

/-- With a point the mantissa has the very digits and exponent of the decimal. -/
theorem scaled_positionalParts_of_neg (negative : decimal.exponent < 0) :
    decimal.positionalParts.fraction ≠ none ∧ decimal.positionalParts.scaled 0 = decimal := by
  unfold positionalParts
  dsimp only
  rw [if_neg (by omega)]
  split
  next inside =>
    refine ⟨nofun, ?_⟩
    simp only [Mantissa.scaled, Option.getD_some, List.take_append_drop, ofDigits_toDigits, List.length_drop]
    congr 1
    omega
  next outside =>
    refine ⟨nofun, ?_⟩
    have padded := ofDigits_zeros_append ((-(↑(toDigits decimal.digits).length + decimal.exponent)).toNat + 1)
      (toDigits decimal.digits)
    rw [zeros, List.replicate_succ] at padded
    simp only [Mantissa.scaled, Option.getD_some, List.cons_append, List.nil_append]
    rw [zeros, ← List.cons_append, padded, ofDigits_toDigits, List.length_append, List.length_replicate]
    congr 1
    omega

theorem toRat_scaled_positionalParts : (decimal.positionalParts.scaled 0).toRat = decimal.toRat := by
  rcases lt_or_ge decimal.exponent 0 with negative | nonneg
  · rw [(decimal.scaled_positionalParts_of_neg negative).2]
  · have power : (10 : ℚ) ^ decimal.exponent = 10 ^ decimal.exponent.toNat := by
      rw [← zpow_natCast, Int.toNat_of_nonneg nonneg]
    simp [decimal.positionalParts_of_nonneg nonneg, Mantissa.scaled, ofDigits_append_zeros, ofDigits_toDigits, toRat,
      power]

end ScriptNumbers.Decimal
