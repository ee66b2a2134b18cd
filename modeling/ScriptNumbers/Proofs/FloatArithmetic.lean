import ScriptNumbers.Proofs.DoubleRounding

/-! Arithmetic on floats by way of doubles is single-precision arithmetic: each result is the float nearest to the
exact one, although it was a double in between. -/

namespace ScriptNumbers

namespace Binary

open Format

variable {format : Format}

theorem isNearest_round (negativeZero : Bool) (value : ℚ) : (round negativeZero value : Binary format).IsNearest value :=
  ⟨_, key?_round negativeZero value, Format.isNearest_iff.mpr rfl⟩

/-- What is infinite as a double is infinite as a float. -/
theorem limit_single_le {value : ℚ} (infinite : double.limit ≤ double.rankOfRat value) :
    single.limit ≤ single.rankOfRat value := by
  have large := Format.limit_le_rankOfRat_iff.mp infinite
  have last : single.magnitude single.limit = 2 ^ 128 := single.magnitude_limit
  rw [double_midpoint_limit] at large
  apply single.le_rankOfRat_of_magnitude_le
  rw [last]
  exact le_trans (by decide +kernel) large

private theorem convert_round {value : ℚ} (off : KeepsOff value) (negativeZero : Bool) :
    ((round negativeZero value : Double).convert : Single) = round negativeZero value := by
  rw [round, round]
  rcases Nat.lt_or_ge (double.rankOfRat value) double.limit with finite | infinite
  · rw [ofRank_of_lt _ finite, convert_finite, off.rankOfRat_eq]
  · rw [ofRank_of_limit_le _ infinite, ofRank_of_limit_le _ (limit_single_le infinite)]
    rfl

/-- A float and the double with the same value. -/
inductive Widens : Single → Double → Prop where
  | nan : Widens .nan .nan
  | infinity (negative : Bool) : Widens (.infinity negative) (.infinity negative)
  | finite (negative : Bool) {narrow : Fin single.limit} {wide : Fin double.limit}
      (same : double.magnitude wide = single.magnitude narrow) :
      Widens (.finite negative narrow) (.finite negative wide)

theorem widens_convert (value : Single) : Widens value value.convert := by
  cases value with
  | nan => exact .nan
  | infinity negative => exact .infinity negative
  | finite negative rank =>
    obtain ⟨wide, inside, same⟩ := exists_magnitude_eq_single rank.isLt
    rw [convert_finite, ← same, rankOfRat_magnitude, ofRank_of_lt negative inside]
    exact .finite negative same

private theorem signedMagnitude_eq_of_widens (negative : Bool) {narrow wide : Nat}
    (same : double.magnitude wide = single.magnitude narrow) :
    signedMagnitude double negative wide = signedMagnitude single negative narrow := by
  rw [signedMagnitude, signedMagnitude, same]

/-- Only zero has the magnitude zero. -/
theorem eq_zero_iff_of_widens {narrow wide : Nat} (same : double.magnitude wide = single.magnitude narrow) :
    wide = 0 ↔ narrow = 0 := by
  rw [← double.magnitude_strictMono.injective.eq_iff, ← single.magnitude_strictMono.injective.eq_iff, same,
    magnitude_zero, magnitude_zero]

private theorem Widens.negate {narrow : Single} {wide : Double} (widens : Widens narrow wide) :
    Widens narrow.negate wide.negate := by
  cases widens with
  | nan => exact .nan
  | infinity negative => exact .infinity !negative
  | finite negative same => exact .finite (!negative) same

theorem Widens.toRat? {narrow : Single} {wide : Double} (widens : Widens narrow wide) :
    wide.toRat? = narrow.toRat? := by
  cases widens with
  | nan | infinity => rfl
  | finite negative same => exact congrArg some (signedMagnitude_eq_of_widens negative same)

theorem Widens.isNegative {narrow : Single} {wide : Double} (widens : Widens narrow wide) :
    wide.isNegative = narrow.isNegative := by
  cases widens <;> rfl

theorem Widens.convert {narrow : Single} {wide : Double} (widens : Widens narrow wide) : wide.convert = narrow := by
  cases widens with
  | nan | infinity => rfl
  | @finite negative rank _ same => rw [convert_finite, same, rankOfRat_magnitude, ofRank_of_lt negative rank.isLt]

theorem convert_zero (negative : Bool) : ((zero negative : Double).convert : Single) = zero negative := by
  rw [zero, ofRank_of_lt negative double.limit_pos, convert_finite, magnitude_zero, rankOfRat_zero]
  rfl

section Operations

variable {left right : Single} {wideLeft wideRight : Double} (leftWidens : Widens left wideLeft)
  (rightWidens : Widens right wideRight)
include leftWidens rightWidens

private theorem convert_add : (wideLeft.add wideRight).convert = left.add right := by
  cases leftWidens with
  | nan => rfl
  | infinity l =>
    cases rightWidens with
    | nan | finite => rfl
    | infinity r =>
      simp only [add]
      split <;> rfl
  | finite l leftSame =>
    cases rightWidens with
    | nan | infinity => rfl
    | finite r rightSame =>
      rw [add, add, signedMagnitude_eq_of_widens l leftSame, signedMagnitude_eq_of_widens r rightSame]
      exact convert_round (keepsOff_add l r) _

private theorem convert_subtract : (wideLeft.subtract wideRight).convert = left.subtract right :=
  convert_add leftWidens rightWidens.negate

private theorem convert_multiply : (wideLeft.multiply wideRight).convert = left.multiply right := by
  cases leftWidens with
  | nan => rfl
  | infinity l =>
    cases rightWidens with
    | nan | infinity => rfl
    | finite r rightSame =>
      simp only [multiply, eq_zero_iff_of_widens rightSame]
      split <;> rfl
  | finite l leftSame =>
    cases rightWidens with
    | nan => rfl
    | infinity r =>
      simp only [multiply, eq_zero_iff_of_widens leftSame]
      split <;> rfl
    | finite r rightSame =>
      rw [multiply, multiply, signedMagnitude_eq_of_widens l leftSame, signedMagnitude_eq_of_widens r rightSame]
      exact convert_round (keepsOff_mul l r) _

private theorem convert_divide : (wideLeft.divide wideRight).convert = left.divide right := by
  cases leftWidens with
  | nan => rfl
  | infinity l =>
    cases rightWidens with
    | nan | infinity | finite => rfl
  | finite l leftSame =>
    cases rightWidens with
    | nan => rfl
    | infinity r => exact convert_zero (l ^^ r)
    | @finite r narrow wide rightSame =>
      simp only [divide, eq_zero_iff_of_widens leftSame, eq_zero_iff_of_widens rightSame,
        signedMagnitude_eq_of_widens l leftSame, signedMagnitude_eq_of_widens r rightSame]
      split
      · split <;> rfl
      next some => exact convert_round (keepsOff_div l r narrow.isLt (Nat.pos_of_ne_zero some)) _

end Operations

theorem ne_zero_of_signedMagnitude {negative : Bool} {rank : Nat} (some : signedMagnitude format negative rank ≠ 0) :
    rank ≠ 0 := by
  intro zero
  rw [signedMagnitude, zero, magnitude_zero, neg_zero, ite_self] at some
  exact some rfl

section Exact

variable {left right : Binary format} {l r : ℚ} (leftExact : left.toRat? = some l) (rightExact : right.toRat? = some r)
include leftExact rightExact

private theorem isNearest_add : (left.add right).IsNearest (l + r) := by
  cases left with
  | nan | infinity => cases leftExact
  | finite =>
    cases right with
    | nan | infinity => cases rightExact
    | finite =>
      cases leftExact
      cases rightExact
      exact isNearest_round _ _

private theorem isNearest_subtract : (left.subtract right).IsNearest (l - r) := by
  obtain ⟨negativeZero, difference⟩ := subtract_of_toRat? leftExact rightExact
  rw [difference]
  exact isNearest_round _ _

private theorem isNearest_multiply : (left.multiply right).IsNearest (l * r) := by
  cases left with
  | nan | infinity => cases leftExact
  | finite =>
    cases right with
    | nan | infinity => cases rightExact
    | finite =>
      cases leftExact
      cases rightExact
      exact isNearest_round _ _

theorem isNearest_divide (some : r ≠ 0) : (left.divide right).IsNearest (l / r) := by
  cases left with
  | nan | infinity => cases leftExact
  | finite =>
    cases right with
    | nan | infinity => cases rightExact
    | finite negative rank =>
      cases leftExact
      cases rightExact
      rw [divide, if_neg (ne_zero_of_signedMagnitude some)]
      exact isNearest_round _ _

end Exact

end Binary

namespace Number

/-- The results of the four operations on floats are those of single-precision arithmetic: the floats nearest to the
exact sum, difference, product and quotient, rounded only once. -/
theorem float_singlePrecision {left right : Single} {l r : ℚ} (leftExact : left.toRat? = some l)
    (rightExact : right.toRat? = some r) :
    (float left).add (float right) = float (left.add right) ∧ (left.add right).IsNearest (l + r) ∧
    (float left).subtract (float right) = float (left.subtract right) ∧ (left.subtract right).IsNearest (l - r) ∧
    (float left).multiply (float right) = float (left.multiply right) ∧ (left.multiply right).IsNearest (l * r) ∧
    (r ≠ 0 → (float left).divide (float right) = .ok (float (left.divide right)) ∧
      (left.divide right).IsNearest (l / r)) := by
  have leftWidens := Binary.widens_convert left
  have rightWidens := Binary.widens_convert right
  refine ⟨congrArg float (Binary.convert_add leftWidens rightWidens), Binary.isNearest_add leftExact rightExact,
    congrArg float (Binary.convert_subtract leftWidens rightWidens), Binary.isNearest_subtract leftExact rightExact,
    congrArg float (Binary.convert_multiply leftWidens rightWidens), Binary.isNearest_multiply leftExact rightExact,
    fun some => ⟨?_, Binary.isNearest_divide leftExact rightExact some⟩⟩
  exact congrArg (fun result => Except.ok (float result)) (Binary.convert_divide leftWidens rightWidens)

/-- A product a little above half the least float, and a quotient next to one. -/
theorem float_singlePrecision_leastFloat :
    (Binary.ofBits 0x1a000001 : Single).toRat? = some (8388609 / 2 ^ 98) ∧
    (Binary.ofBits 0x1a000000 : Single).toRat? = some (1 / 2 ^ 75) ∧ (1 / 2 ^ 75 : ℚ) ≠ 0 ∧
    (float (.ofBits 0x1a000001)).multiply (float (.ofBits 0x1a000000)) = float (.ofBits 0x00000001) ∧
    (Binary.ofBits 0x00000001 : Single).IsNearest (8388609 / 2 ^ 98 * (1 / 2 ^ 75)) ∧
    (float (.ofBits 0x1a000001)).divide (float (.ofBits 0x1a000000)) = .ok (float (.ofBits 0x3f800001)) ∧
    (Binary.ofBits 0x3f800001 : Single).IsNearest (8388609 / 2 ^ 98 / (1 / 2 ^ 75)) := by
  have leftExact : (Binary.ofBits 0x1a000001 : Single).toRat? = some (8388609 / 2 ^ 98) := by decide +kernel
  have rightExact : (Binary.ofBits 0x1a000000 : Single).toRat? = some (1 / 2 ^ 75) := by decide +kernel
  have some : (1 / 2 ^ 75 : ℚ) ≠ 0 := by decide +kernel
  have product : (Binary.ofBits 0x1a000001 : Single).multiply (.ofBits 0x1a000000) = .ofBits 0x00000001 := by
    decide +kernel
  have quotient : (Binary.ofBits 0x1a000001 : Single).divide (.ofBits 0x1a000000) = .ofBits 0x3f800001 := by
    decide +kernel
  obtain ⟨-, -, -, -, multiplied, productNearest, divided⟩ := float_singlePrecision leftExact rightExact
  obtain ⟨divided, quotientNearest⟩ := divided some
  rw [product] at multiplied productNearest
  rw [quotient] at divided quotientNearest
  exact ⟨leftExact, rightExact, some, multiplied, productNearest, divided, quotientNearest⟩

end Number

end ScriptNumbers
