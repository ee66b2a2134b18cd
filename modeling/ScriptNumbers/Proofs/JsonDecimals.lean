import ScriptNumbers.Proofs.JsonTokens
import ScriptNumbers.Proofs.PositionalText
import ScriptNumbers.Proofs.ShortestDecimal

/-! The JSON text of a decimal as a number token. In each of its three forms the token has a point or an exponent,
no superfluous zero in front, and digits and a power of ten of the same value. -/

namespace ScriptNumbers

namespace Decimal

theorem toDigits_of_base_le {value : Nat} (large : 10 ≤ value) :
    toDigits value = toDigits (value / 10) ++ [(value % 10).digitChar] :=
  Nat.toDigits_of_base_le (by decide) large

theorem toDigits_leading_zero {value : Nat} {rest : List Char} (zero : toDigits value = '0' :: rest) :
    value = 0 ∧ rest = [] := by
  induction value using Nat.strongRecOn generalizing rest with
  | _ value ih =>
    rcases Nat.lt_or_ge value 10 with small | large
    · have single : toDigits value = [value.digitChar] := Nat.toDigits_of_lt_base small
      rw [single] at zero
      obtain ⟨first, rfl⟩ := List.cons.inj zero
      have digits := ofDigits_toDigits value
      rw [single, first] at digits
      exact ⟨digits.symm, rfl⟩
    · rw [toDigits_of_base_le large] at zero
      obtain ⟨c, more, head⟩ := List.exists_cons_of_ne_nil (toDigits_ne_nil (value / 10))
      rw [head, List.cons_append] at zero
      obtain ⟨rfl, -⟩ := List.cons.inj zero
      have := (ih (value / 10) (by omega) head).1
      omega

variable (decimal : Decimal)

/-- A decimal with a single form for zero has no zero in front of another digit. -/
theorem positionalParts_leading_zero (unique : decimal.digits = 0 → decimal.exponent = 0) {rest : List Char}
    (zero : decimal.positionalParts.whole = '0' :: rest) : rest = [] := by
  obtain ⟨c, more, head⟩ := List.exists_cons_of_ne_nil (toDigits_ne_nil decimal.digits)
  unfold positionalParts at zero
  dsimp only at zero
  rw [head] at zero
  split at zero
  next =>
    obtain ⟨rfl, behind⟩ := List.cons.inj zero
    obtain ⟨none, rfl⟩ := toDigits_leading_zero head
    rw [← behind, unique none]
    rfl
  next =>
    split at zero
    next inside =>
      obtain ⟨count, same⟩ : ∃ count, (((c :: more).length : Int) + decimal.exponent).toNat = count + 1 :=
        ⟨(((c :: more).length : Int) + decimal.exponent).toNat - 1, by omega⟩
      rw [same, List.take_succ_cons] at zero
      obtain ⟨rfl, behind⟩ := List.cons.inj zero
      obtain ⟨-, rfl⟩ := toDigits_leading_zero head
      rw [← behind, List.take_nil]
    next => exact (List.cons.inj zero).2.symm

theorem positionalParts_fraction_ne_nil {fraction : List Char}
    (some : decimal.positionalParts.fraction = .some fraction) : fraction ≠ [] := by
  unfold positionalParts at some
  dsimp only at some
  split at some
  next => cases some
  next negative =>
    split at some
    next inside =>
      obtain rfl := Option.some.inj some
      rw [Ne, List.drop_eq_nil_iff]
      omega
    next =>
      obtain rfl := Option.some.inj some
      exact List.append_ne_nil_of_right_ne_nil _ (toDigits_ne_nil _)

end Decimal

namespace Json

open Numeral Decimal

private theorem appendDigits_all {digits : List Char} {start : Nat}
    (fits : Nat.ofDigitChars 10 digits start < UInt64.size) :
    appendDigits start digits = (Nat.ofDigitChars 10 digits start, []) := by
  induction digits generalizing start with
  | nil => rw [appendDigits, Nat.ofDigitChars_nil]
  | cons c rest ih =>
    rw [Nat.ofDigitChars_cons] at fits ⊢
    have early := (le_ofDigitChars rest _).trans_lt fits
    rw [appendDigits]
    exact (if_pos early).trans (ih fits)

private theorem leading_eq_scaled {token : NumberToken}
    (fits : ofDigits (token.mantissa.whole ++ token.mantissa.fraction.getD []) < UInt64.size) :
    token.leading = token.mantissa.scaled ((token.exponent.map (·.toInt)).getD 0) := by
  rw [ofDigits, Nat.ofDigitChars_append] at fits
  have whole := appendDigits_all ((le_ofDigitChars _ _).trans_lt fits)
  have fraction := appendDigits_all fits
  rw [NumberToken.leading, whole]
  dsimp only
  rw [fraction, Mantissa.scaled, ofDigits, Nat.ofDigitChars_append]
  simp

/-- Digits with the point behind the first. -/
def pointedMantissa : List Char → Mantissa
  | first :: second :: rest => ⟨[first], some (second :: rest)⟩
  | digits => ⟨digits, none⟩

def decimalToken (range : PointRange) (negative : Bool) (decimal : Decimal) : NumberToken :=
  if range.lowest ≤ decimal.scale ∧ decimal.scale ≤ range.highest then
    if 0 ≤ decimal.exponent then ⟨negative, ⟨decimal.positionalParts.whole, some ['0']⟩, none⟩
    else ⟨negative, decimal.positionalParts, none⟩
  else ⟨negative, pointedMantissa (toDigits decimal.digits),
    some ⟨some (decimal.scale < 0), toDigits decimal.scale.natAbs⟩⟩

private theorem pointedMantissa_text (digits : List Char) :
    Decimal.mantissa digits = (pointedMantissa digits).text := by
  rcases digits with _ | ⟨first, _ | ⟨second, rest⟩⟩
  · rfl
  · rfl
  · rfl

private theorem pointedMantissa_digits (digits : List Char) :
    (pointedMantissa digits).whole ++ (pointedMantissa digits).fraction.getD [] = digits ∧
      ((pointedMantissa digits).fraction.getD []).length = digits.length - 1 := by
  rcases digits with _ | ⟨first, _ | ⟨second, rest⟩⟩
  · exact ⟨rfl, rfl⟩
  · exact ⟨rfl, rfl⟩
  · exact ⟨rfl, rfl⟩

private theorem pointedMantissa_wellFormed (negative : Bool) {digits : List Char} (digit : Digits digits)
    (some : digits ≠ []) {exponent : Option Exponent}
    (present : ∀ value, exponent = .some value → Digits value.digits ∧ value.digits ≠ []) :
    NumberToken.WellFormed ⟨negative, pointedMantissa digits, exponent⟩ := by
  rcases digits with _ | ⟨first, _ | ⟨second, rest⟩⟩
  · exact absurd rfl some
  · refine ⟨digit, some, fun rest same => (List.cons.inj same).2.symm, nofun, present⟩
  · refine ⟨?_, nofun, fun rest same => (List.cons.inj same).2.symm, fun fraction same => ?_, present⟩
    · intro c member
      cases List.mem_singleton.mp member
      exact digit first List.mem_cons_self
    · cases same
      exact ⟨fun c member => digit c (List.mem_cons_of_mem first member), nofun⟩

variable (range : PointRange) (negative : Bool) (decimal : Decimal)

theorem decimalToken_text :
    (decimalToken range negative decimal).text = signed negative (decimalText range decimal) := by
  unfold decimalToken decimalText
  split
  · split
    next whole =>
      rw [positional_eq_text, positionalParts_of_nonneg decimal whole]
      simp [NumberToken.text, NumberToken.textWith, Mantissa.text, exponentText]
    next => rw [NumberToken.text, NumberToken.textWith, exponentText, List.append_nil, positional_eq_text]
  · rw [NumberToken.text, NumberToken.textWith, scientific, pointedMantissa_text]
    congr 2
    rw [exponentText, Exponent.text]
    by_cases below : decimal.scale < 0
    · simp [below]
    · simp [below]

theorem decimalToken_wellFormed (unique : decimal.digits = 0 → decimal.exponent = 0) :
    (decimalToken range negative decimal).WellFormed := by
  have parts := decimal.positionalParts_wellFormed
  have whole := decimal.positionalParts_whole_ne_nil
  have digits := digits_toDigits decimal.digits
  unfold decimalToken
  split
  · split
    · refine ⟨parts.whole, whole, fun _ => positionalParts_leading_zero decimal unique, fun fraction same => ?_, nofun⟩
      cases same
      exact ⟨digits_zeros 1, nofun⟩
    · refine ⟨parts.whole, whole, fun _ => positionalParts_leading_zero decimal unique, fun fraction same => ?_, nofun⟩
      have digit := parts.fraction
      rw [same] at digit
      exact ⟨digit, positionalParts_fraction_ne_nil decimal same⟩
  · refine pointedMantissa_wellFormed negative digits (toDigits_ne_nil _) ?_
    intro exponent same
    cases same
    exact ⟨digits_toDigits _, toDigits_ne_nil _⟩

theorem decimalToken_negative : (decimalToken range negative decimal).negative = negative := by
  unfold decimalToken
  split
  · split <;> rfl
  · rfl

theorem decimalToken_isInteger : (decimalToken range negative decimal).isInteger = false := by
  unfold decimalToken
  split
  · split
    · rfl
    next finer =>
      have point := (decimal.scaled_positionalParts_of_neg (lt_of_not_ge finer)).1
      simp [NumberToken.isInteger, Option.isSome_iff_ne_none, point]
  · exact Bool.and_false _

private theorem exponent_toInt (value : Int) :
    (⟨some (value < 0), toDigits value.natAbs⟩ : Exponent).toInt = value := by
  rw [Exponent.toInt, ofDigits_toDigits]
  simp only [Option.some.injEq, decide_eq_true_eq]
  split
  · omega
  · omega

private theorem digits_mul_lt (coarse : 0 ≤ decimal.exponent) (inside : decimal.scale ≤ range.highest) :
    decimal.digits * 10 ^ (decimal.exponent.toNat + 1) < 10 ^ (range.highest + 2).toNat := by
  have count : length decimal.digits + (decimal.exponent.toNat + 1) ≤ (range.highest + 2).toNat := by
    unfold Decimal.scale at inside
    unfold length
    omega
  calc decimal.digits * 10 ^ (decimal.exponent.toNat + 1)
      < 10 ^ length decimal.digits * 10 ^ (decimal.exponent.toNat + 1) :=
        Nat.mul_lt_mul_of_pos_right (lt_ten_pow_length _) (Nat.pow_pos (by decide))
    _ = 10 ^ (length decimal.digits + (decimal.exponent.toNat + 1)) := (pow_add _ _ _).symm
    _ ≤ 10 ^ (range.highest + 2).toNat := Nat.pow_le_pow_right (by decide) count

private theorem leading_whole (coarse : 0 ≤ decimal.exponent)
    (short : decimal.digits * 10 ^ (decimal.exponent.toNat + 1) < UInt64.size) :
    NumberToken.leading ⟨negative, ⟨decimal.positionalParts.whole, some ['0']⟩, none⟩ =
      ⟨decimal.digits * 10 ^ (decimal.exponent.toNat + 1), -1⟩ := by
  have digits : ofDigits (decimal.positionalParts.whole ++ ['0']) =
      decimal.digits * 10 ^ (decimal.exponent.toNat + 1) := by
    rw [positionalParts_of_nonneg decimal coarse, List.append_assoc, zeros, ← List.replicate_succ',
      ← ofDigits_toDigits decimal.digits, ← ofDigits_append_zeros, ofDigits_toDigits, zeros]
  rw [← digits] at short ⊢
  exact leading_eq_scaled short

private theorem leading_positional (finer : decimal.exponent < 0) (fits : decimal.digits < UInt64.size) :
    NumberToken.leading ⟨negative, decimal.positionalParts, none⟩ = decimal := by
  have scaled := (decimal.scaled_positionalParts_of_neg finer).2
  have digits : ofDigits (decimal.positionalParts.whole ++ decimal.positionalParts.fraction.getD []) =
      decimal.digits := congrArg Decimal.digits scaled
  rw [leading_eq_scaled (digits ▸ fits)]
  exact scaled

private theorem leading_scientific (fits : decimal.digits < UInt64.size) :
    NumberToken.leading ⟨negative, pointedMantissa (toDigits decimal.digits),
      some ⟨some (decimal.scale < 0), toDigits decimal.scale.natAbs⟩⟩ = decimal := by
  obtain ⟨digits, length⟩ := pointedMantissa_digits (toDigits decimal.digits)
  have same : ofDigits ((pointedMantissa (toDigits decimal.digits)).whole ++
      (pointedMantissa (toDigits decimal.digits)).fraction.getD []) = decimal.digits := by
    rw [digits, ofDigits_toDigits]
  have some := List.length_pos_of_ne_nil (toDigits_ne_nil decimal.digits)
  rw [leading_eq_scaled (same.trans_lt fits)]
  simp only [Mantissa.scaled, same, length, Option.map_some, Option.getD_some, exponent_toInt]
  congr 1
  unfold Decimal.scale
  omega

private theorem toRat_whole (coarse : 0 ≤ decimal.exponent) :
    (⟨decimal.digits * 10 ^ (decimal.exponent.toNat + 1), -1⟩ : Decimal).toRat = decimal.toRat := by
  have power : (10 : ℚ) ^ decimal.exponent = 10 ^ decimal.exponent.toNat := by
    rw [← zpow_natCast, Int.toNat_of_nonneg coarse]
  rw [toRat, toRat, power]
  push_cast
  rw [pow_succ, zpow_neg_one]
  field_simp

/-- The token has the digits and the power of ten of the decimal. Only where the text goes on with zeros up to the
point, those and the one behind the point count as digits. -/
theorem decimalToken_leading (fits : decimal.digits < UInt64.size) (narrow : range.highest ≤ 17) :
    (decimalToken range negative decimal).leading = decimal ∨
      0 ≤ decimal.exponent ∧ (decimalToken range negative decimal).leading.exponent = -1 ∧
        (decimalToken range negative decimal).leading.digits < 10 ^ (range.highest + 2).toNat ∧
        (decimalToken range negative decimal).leading.toRat = decimal.toRat := by
  unfold decimalToken
  split
  next inside =>
    split
    next coarse =>
      have short := digits_mul_lt range decimal coarse inside.2
      have word : 10 ^ (range.highest + 2).toNat < UInt64.size :=
        (Nat.pow_le_pow_right (by decide) (show (range.highest + 2).toNat ≤ 19 by omega)).trans_lt (by decide)
      rw [leading_whole negative decimal coarse (short.trans word)]
      exact Or.inr ⟨coarse, rfl, short, toRat_whole decimal coarse⟩
    next finer => exact Or.inl (leading_positional negative decimal (lt_of_not_ge finer) fits)
  next => exact Or.inl (leading_scientific negative decimal fits)

end Json

end ScriptNumbers
