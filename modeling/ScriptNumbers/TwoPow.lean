/-! Powers of two, the sizes of words and binades. -/

namespace ScriptNumbers

def twoPow (exponent : Nat) : Nat := Nat.pow 2 exponent

@[simp] theorem twoPow_zero : twoPow 0 = 1 := rfl

theorem twoPow_succ (exponent : Nat) : twoPow (exponent + 1) = 2 * twoPow exponent := Nat.pow_succ'

theorem twoPow_pos (exponent : Nat) : 0 < twoPow exponent := Nat.two_pow_pos exponent

theorem twoPow_add (left right : Nat) : twoPow (left + right) = twoPow left * twoPow right :=
  Nat.pow_add 2 left right

theorem twoPow_le {left right : Nat} (order : left ≤ right) : twoPow left ≤ twoPow right :=
  Nat.pow_le_pow_right (by decide) order

end ScriptNumbers
