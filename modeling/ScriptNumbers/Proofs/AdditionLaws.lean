import ScriptNumbers.Proofs.IntegerCasts
import ScriptNumbers.Proofs.StaticKinds

/-! Sums, products and differences with their operands exchanged or negated. Conversion and rounding treat both signs
alike, so these laws hold as they do for exact values, with two exceptions: zeros may differ in their sign, and the
least word of an integer kind stays negative when it is negated. -/

namespace ScriptNumbers

open Literal

namespace Binary

variable {format : Format}

/-- The same value, but for the sign of a zero. -/
def Agrees (left right : Binary format) : Prop := left = right ∨ left.isZero ∧ right.isZero

private theorem Agrees.symm {left right : Binary format} (agrees : left.Agrees right) : right.Agrees left :=
  agrees.imp Eq.symm And.symm

private theorem isZero_zero (negative : Bool) : (zero negative : Binary format).isZero := by
  simp [zero, ofRank, format.limit_pos, isZero]

private theorem exists_zero {value : Binary format} (isZero : value.isZero) : ∃ negative, value = zero negative := by
  cases value with
  | nan | infinity => cases isZero
  | finite negative rank =>
    have rankZero : rank.val = 0 := by simpa [Binary.isZero] using isZero
    refine ⟨negative, ?_⟩
    rw [zero, ofRank_of_lt negative format.limit_pos]
    exact congrArg (finite negative) (Fin.ext rankZero)

private theorem negate_ofRank (negative : Bool) (rank : Nat) :
    (ofRank negative rank : Binary format).negate = ofRank (!negative) rank := by
  unfold ofRank
  split <;> rfl

private theorem round_neg (negativeZero : Bool) (value : ℚ) :
    (round (!negativeZero) (-value) : Binary format) = (round negativeZero value).negate := by
  simp only [round, negate_ofRank, Format.rankOfRat_neg]
  rcases lt_trichotomy value 0 with negative | rfl | positive
  · simp [negative, negative.ne, negative.not_gt]
  · simp
  · simp [positive, positive.ne', positive.not_gt]

/-- The sign given for an exact zero does not matter for any other value. -/
theorem agrees_round (left right : Bool) (value : ℚ) :
    (round left value : Binary format).Agrees (round right value) := by
  by_cases zero : value = 0
  · right
    simp only [round, zero, Format.rankOfRat_zero]
    exact ⟨isZero_zero _, isZero_zero _⟩
  · left
    simp only [round, zero, ite_false]

private theorem convert_negate {target : Format} (value : Binary format) :
    (value.negate.convert : Binary target) = value.convert.negate := by
  cases value with
  | nan | infinity => rfl
  | finite negative rank => rw [negate, convert_finite, convert_finite, negate_ofRank]

private theorem agrees_ofInt_neg (value : Int) : (ofInt (-value) : Binary format).Agrees (ofInt value).negate := by
  have mirrored : (ofInt value : Binary format).negate = round true (-value) := (round_neg false value).symm
  simp only [ofInt, Int.cast_neg] at mirrored ⊢
  rw [mirrored]
  exact agrees_round false true _

private theorem Agrees.convert {left right : Double} (agrees : left.Agrees right) :
    (left.convert : Single).Agrees right.convert := by
  rcases agrees with rfl | ⟨leftZero, rightZero⟩
  · exact Or.inl rfl
  · obtain ⟨l, rfl⟩ := exists_zero leftZero
    obtain ⟨r, rfl⟩ := exists_zero rightZero
    right
    simp only [convert_zero]
    exact ⟨isZero_zero l, isZero_zero r⟩

private theorem Agrees.add_left (summand : Binary format) {left right : Binary format} (agrees : left.Agrees right) :
    (summand.add left).Agrees (summand.add right) := by
  rcases agrees with rfl | ⟨leftZero, rightZero⟩
  · exact Or.inl rfl
  · obtain ⟨l, rfl⟩ := exists_zero leftZero
    obtain ⟨r, rfl⟩ := exists_zero rightZero
    rw [zero, zero, ofRank_of_lt l format.limit_pos, ofRank_of_lt r format.limit_pos]
    cases summand with
    | nan | infinity => exact Or.inl rfl
    | finite negative rank =>
      have nothing (negative : Bool) : signedMagnitude format negative 0 = 0 := by
        simp [signedMagnitude, Format.magnitude_zero]
      simp only [add, nothing, add_zero]
      exact agrees_round _ _ _

protected theorem add_comm (left right : Binary format) : left.add right = right.add left := by
  cases left with
  | nan => cases right <;> rfl
  | infinity l =>
    cases right with
    | nan | finite => rfl
    | infinity r => cases l <;> cases r <;> rfl
  | finite l x =>
    cases right with
    | nan | infinity => rfl
    | finite r y => simp only [add, Bool.and_comm, add_comm]

protected theorem multiply_comm (left right : Binary format) : left.multiply right = right.multiply left := by
  cases left with
  | nan => cases right <;> rfl
  | infinity l =>
    cases right with
    | nan => rfl
    | infinity r | finite r y => simp only [multiply, Bool.xor_comm]
  | finite l x =>
    cases right with
    | nan => rfl
    | infinity r => simp only [multiply, Bool.xor_comm]
    | finite r y => simp only [multiply, Bool.xor_comm, mul_comm]

private theorem agrees_subtract_swap (left right : Binary format) :
    (left.subtract right).Agrees (right.subtract left).negate := by
  cases left with
  | nan => cases right <;> exact Or.inl rfl
  | infinity l =>
    cases right with
    | nan => exact Or.inl rfl
    | infinity r => cases l <;> cases r <;> exact Or.inl rfl
    | finite r y => exact Or.inl (by simp [subtract, add, negate])
  | finite l x =>
    cases right with
    | nan => exact Or.inl rfl
    | infinity r => exact Or.inl (by simp [subtract, add, negate])
    | finite r y =>
      obtain ⟨there, forward⟩ := subtract_of_toRat? (show (finite l x).toRat? = some _ from rfl)
        (show (finite r y).toRat? = some _ from rfl)
      obtain ⟨back, backward⟩ := subtract_of_toRat? (show (finite r y).toRat? = some _ from rfl)
        (show (finite l x).toRat? = some _ from rfl)
      rw [forward, backward, ← round_neg, neg_sub]
      exact agrees_round _ _ _

end Binary

namespace Promoted

/-- The operands in the other order. -/
def swap : Promoted → Promoted
  | int32 left right => int32 right left
  | int64 left right => int64 right left
  | float left right => float right left
  | double left right => double right left

/-- Which side an operand stands on has no influence on its conversion. -/
theorem of_swap (left right : Number) : of right left = (of left right).swap := by
  unfold of
  rw [Kind.max_comm right.kind left.kind]
  cases max left.kind right.kind <;> rfl

private theorem combine_swap {onInt32 : Int32 → Int32 → Int32} {onInt64 : Int64 → Int64 → Int64}
    {onDouble : Double → Double → Double} (narrow : ∀ left right, onInt32 left right = onInt32 right left)
    (long : ∀ left right, onInt64 left right = onInt64 right left)
    (floating : ∀ left right, onDouble left right = onDouble right left) (operands : Promoted) :
    operands.combine onInt32 onInt64 onDouble = operands.swap.combine onInt32 onInt64 onDouble := by
  cases operands with
  | int32 left right => exact congrArg Number.int32 (narrow left right)
  | int64 left right => exact congrArg Number.int64 (long left right)
  | float left right => exact congrArg (fun value => Number.float value.convert) (floating left right)
  | double left right => exact congrArg Number.double (floating left right)

end Promoted

namespace Number

/-- The same number, but for the sign of a zero. -/
def Agrees (left right : Number) : Prop := left.kind = right.kind ∧ (left = right ∨ left.isZero ∧ right.isZero)

/-- The least word of an integer kind, which is its own negation. -/
def IsLeastWord (number : Number) : Prop := number.toInt? = some (number.kind.extremeWord true)

instance (number : Number) : Decidable number.IsLeastWord := inferInstanceAs (Decidable (_ = _))

variable {left right number : Number}

private theorem equalTo_of_toExtended? {exact : Extended} (leftExact : left.toExtended? = some exact)
    (rightExact : right.toExtended? = some exact) : left.equalTo right := by
  rw [equalTo, beq_iff_eq]
  rcases compare_exact_or_rounded leftExact rightExact with compared | ⟨-, compared⟩
  · simp only [compared, compare_eq_iff_eq.mpr]
  · simp only [compared, compare_eq_iff_eq.mpr]

private theorem toExtended?_of_toRat? {exact : ℚ} (finite : number.toRat? = some exact) :
    number.toExtended? = some (Extended.ofRat exact) := by
  cases number with
  | int32 | int64 =>
    cases finite
    rfl
  | float | double => exact Binary.toExtended?_of_toRat? finite

private theorem Agrees.equalTo_or (agrees : left.Agrees right) : left.equalTo right ∨ left.isNan ∧ right.isNan := by
  rcases agrees.2 with rfl | ⟨leftZero, rightZero⟩
  · by_cases improper : left.isNan
    · exact Or.inr ⟨improper, improper⟩
    · obtain ⟨exact, found⟩ := exists_toExtended? improper
      exact Or.inl (equalTo_of_toExtended? found found)
  · left
    apply equalTo_of_toExtended?
    · exact toExtended?_of_toRat? (isZero_iff.mp leftZero)
    · exact toExtended?_of_toRat? (isZero_iff.mp rightZero)

private theorem agrees_float {l r : Double} (agrees : l.Agrees r) : (float l.convert).Agrees (float r.convert) := by
  refine ⟨rfl, ?_⟩
  rcases agrees.convert with same | zeros
  · exact Or.inl (congrArg float same)
  · exact Or.inr zeros

private theorem agrees_double {l r : Double} (agrees : l.Agrees r) : (double l).Agrees (double r) := by
  refine ⟨rfl, ?_⟩
  rcases agrees with rfl | zeros
  · exact Or.inl rfl
  · exact Or.inr zeros

private theorem toInt?_negate {value : Int} (exact : number.toInt? = some value) (regular : ¬number.IsLeastWord) :
    number.negate.toInt? = some (-value) := by
  have negated : number.negate.toInt? = some ((-value).bmod (2 ^ wordBits number.kind)) := by
    cases number with
    | int32 word =>
      cases exact
      exact congrArg some word.toInt_neg
    | int64 word =>
      cases exact
      exact congrArg some word.toInt_neg
    | float | double => cases exact
  have fits : Fits (wordBits number.kind) (-value) := by
    obtain ⟨low, high⟩ := fits_of_toInt? exact
    have above : value ≠ -2 ^ (wordBits number.kind - 1) := fun least => regular (exact.trans (congrArg some least))
    constructor <;> omega
  rw [negated, fits.bmod_eq]

private theorem toInt32_negate (narrow : number.kind = .int32) : number.negate.toInt32 = -number.toInt32 := by
  cases number with
  | int32 word => rfl
  | int64 | float | double => cases narrow

private theorem toInt64_negate (integral : number.kind.isInteger)
    (regular : number.IsLeastWord → number.kind = .int64) : number.negate.toInt64 = -number.toInt64 := by
  cases number with
  | int32 word =>
    have exact : (int32 word).toInt? = some word.toInt := rfl
    have negated := toInt?_negate exact fun least => Kind.noConfusion (regular least)
    rw [toInt64_of_toInt? negated, toInt64_of_toInt? exact, Int64.ofInt_neg]
  | int64 word => rfl
  | float | double => cases integral

private theorem toDouble_of_toInt? {value : Int} (exact : number.toInt? = some value) :
    number.toDouble = .ofInt value := by
  cases number with
  | int32 | int64 =>
    cases exact
    rfl
  | float | double => cases exact

/-- Only an integer zero loses its sign, as it has none. -/
theorem agrees_toDouble_negate (regular : ¬number.IsLeastWord) :
    number.negate.toDouble.Agrees number.toDouble.negate := by
  cases integer : number.toInt? with
  | some value =>
    rw [toDouble_of_toInt? (toInt?_negate integer regular), toDouble_of_toInt? integer]
    exact Binary.agrees_ofInt_neg value
  | none =>
    cases number with
    | int32 | int64 => cases integer
    | float value => exact Or.inl value.convert_negate
    | double value => exact Or.inl rfl

private theorem kind_subtract (left right : Number) : (left.subtract right).kind = max left.kind right.kind := by
  rw [subtract, Promoted.kind_combine, Promoted.kind_of]

private theorem kind_add (left right : Number) : (left.add right).kind = max left.kind right.kind := by
  rw [add, Promoted.kind_combine, Promoted.kind_of]

private theorem IsLeastWord.isInteger (least : number.IsLeastWord) : number.kind.isInteger := isInteger_of_toInt? least

private theorem negate_of_isLeastWord (least : number.IsLeastWord) : number.negate = number := by
  cases number with
  | int32 word =>
    have value : word = Int32.minValue := Int32.toInt_inj.mp (Option.some.inj least)
    rw [value]
    rfl
  | int64 word =>
    have value : word = Int64.minValue := Int64.toInt_inj.mp (Option.some.inj least)
    rw [value]
    rfl
  | float | double => cases least

private theorem agrees_subtract_add_negate (regular : right.IsLeastWord → max left.kind right.kind = right.kind) :
    (left.subtract right).Agrees (left.add right.negate) := by
  have floating (high : ¬(max left.kind right.kind).isInteger) : ¬right.IsLeastWord := by
    intro least
    rw [regular least] at high
    exact high least.isInteger
  unfold subtract add Promoted.of
  rw [kind_negate]
  cases wider : max left.kind right.kind with
  | int32 =>
    have narrow := Kind.eq_int32_of_max wider
    refine ⟨rfl, Or.inl ?_⟩
    simp only [Promoted.combine, toInt32_negate narrow, Int32.sub_eq_add_neg]
  | int64 =>
    have integral := (Kind.isInteger_max.mp (show (max left.kind right.kind).isInteger from wider ▸ rfl)).2
    have long (least : right.IsLeastWord) : right.kind = .int64 := (regular least).symm.trans wider
    refine ⟨rfl, Or.inl ?_⟩
    simp only [Promoted.combine, toInt64_negate integral long, Int64.sub_eq_add_neg]
  | float =>
    have negated := agrees_toDouble_negate (floating (by simp [wider, Kind.isInteger]))
    exact agrees_float (negated.symm.add_left left.toDouble)
  | double =>
    have negated := agrees_toDouble_negate (floating (by simp [wider, Kind.isInteger]))
    exact agrees_double (negated.symm.add_left left.toDouble)

/-- A difference is the sum with the negated operand. Only the least word of an integer kind, which stays negative, may
spoil that if it is negated before it is widened. -/
theorem subtract_eq_add_negate (left right : Number) :
    (left.subtract right).kind = (left.add right.negate).kind ∧
    (¬(right.IsLeastWord ∧ max left.kind right.kind ≠ right.kind) →
      (left.subtract right).equalTo (left.add right.negate) ∨
        (left.subtract right).isNan ∧ (left.add right.negate).isNan) ∧
    (right.IsLeastWord → right.negate = right) := by
  refine ⟨?_, ?_, negate_of_isLeastWord⟩
  · rw [kind_subtract, kind_add, kind_negate]
  · intro regular
    apply Agrees.equalTo_or
    apply agrees_subtract_add_negate
    intro least
    by_contra wider
    exact regular ⟨least, wider⟩

/-- The least long integer, subtracted from a narrow one. The difference wraps, and so does the sum. -/
theorem subtract_eq_add_negate_least :
    (int64 (-9223372036854775808)).IsLeastWord ∧
    ¬((int64 (-9223372036854775808)).IsLeastWord ∧
      max (int32 (-1)).kind (int64 (-9223372036854775808)).kind ≠ (int64 (-9223372036854775808)).kind) ∧
    ((int32 (-1)).subtract (int64 (-9223372036854775808))).equalTo
      ((int32 (-1)).add (int64 (-9223372036854775808)).negate) ∧
    (int64 (-9223372036854775808)).negate = int64 (-9223372036854775808) := by
  have least : (int64 (-9223372036854775808)).IsLeastWord := by decide
  have regular : ¬((int64 (-9223372036854775808)).IsLeastWord ∧
      max (int32 (-1)).kind (int64 (-9223372036854775808)).kind ≠ (int64 (-9223372036854775808)).kind) := by
    rintro ⟨-, wider⟩
    exact wider rfl
  obtain ⟨-, same, itself⟩ := subtract_eq_add_negate (int32 (-1)) (int64 (-9223372036854775808))
  rcases same regular with equal | ⟨improper, -⟩
  · exact ⟨least, regular, equal, itself least⟩
  · exact absurd improper (by decide)

/-- The least narrow integer, widened after it was negated. -/
example : (int64 0).subtract (int32 (-2147483648)) = int64 2147483648 ∧
    (int64 0).add (int32 (-2147483648)).negate = int64 (-2147483648) := by
  decide

protected theorem add_comm (left right : Number) : left.add right = right.add left := by
  rw [add, add, Promoted.of_swap left right]
  exact Promoted.combine_swap Int32.add_comm Int64.add_comm Binary.add_comm _

protected theorem multiply_comm (left right : Number) : left.multiply right = right.multiply left := by
  rw [multiply, multiply, Promoted.of_swap left right]
  exact Promoted.combine_swap Int32.mul_comm Int64.mul_comm Binary.multiply_comm _

private theorem agrees_subtract_swap (left right : Number) :
    (left.subtract right).Agrees (right.subtract left).negate := by
  rw [subtract, subtract, Promoted.of_swap left right]
  cases Promoted.of left right with
  | int32 l r => exact ⟨rfl, Or.inl (congrArg int32 Int32.neg_sub.symm)⟩
  | int64 l r => exact ⟨rfl, Or.inl (congrArg int64 Int64.neg_sub.symm)⟩
  | float l r =>
    simp only [Promoted.swap, Promoted.combine, negate, ← Binary.convert_negate]
    exact agrees_float (Binary.agrees_subtract_swap l r)
  | double l r => exact agrees_double (Binary.agrees_subtract_swap l r)

/-- Sums and products do not depend on the order of their operands, to the bit. A difference changes its sign, so that
only a zero can tell the order. -/
theorem exchange_operands (left right : Number) :
    left.add right = right.add left ∧ left.multiply right = right.multiply left ∧
    (left.subtract right).kind = (right.subtract left).negate.kind ∧
    ((left.subtract right).equalTo (right.subtract left).negate ∨
      (left.subtract right).isNan ∧ (right.subtract left).negate.isNan) := by
  have difference := agrees_subtract_swap left right
  exact ⟨Number.add_comm left right, Number.multiply_comm left right, difference.1, difference.equalTo_or⟩

end Number

end ScriptNumbers
