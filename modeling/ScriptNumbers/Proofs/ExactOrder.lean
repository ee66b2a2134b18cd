import ScriptNumbers.Proofs.Differences

/-! The order of numbers against the order of their exact values. Where doubles are compared, each side is first rounded
to a double. That is monotone and leaves all but long integers beyond `2 ^ 53` alone, so different values can become
equal there, but never change places. -/

namespace ScriptNumbers

/-- Exact values with both infinities. -/
abbrev Extended := WithBot (WithTop ℚ)

namespace Extended

def ofRat (value : ℚ) : Extended := ((value : WithTop ℚ) : WithBot (WithTop ℚ))

private theorem trichotomy (value : Extended) : value = ⊥ ∨ (∃ rational, value = ofRat rational) ∨ value = ⊤ := by
  cases value using WithBot.recBotCoe with
  | bot => exact Or.inl rfl
  | coe value =>
    cases value using WithTop.recTopCoe with
    | top => exact Or.inr (Or.inr rfl)
    | coe value => exact Or.inr (Or.inl ⟨value, rfl⟩)

private theorem ofRat_strictMono : StrictMono ofRat := fun _ _ order =>
  WithBot.coe_lt_coe.mpr (WithTop.coe_lt_coe.mpr order)

private theorem bot_lt_ofRat (value : ℚ) : ⊥ < ofRat value := WithBot.bot_lt_coe _

private theorem ofRat_lt_top (value : ℚ) : ofRat value < ⊤ := WithBot.coe_lt_coe.mpr (WithTop.coe_lt_top value)

end Extended

namespace Format

open Extended

variable (format : Format)

/-- The value that belongs to a key, which may be that of an infinity. -/
def extendedOfKey (key : Int) : Extended :=
  if key ≤ -format.limit then ⊥ else if format.limit ≤ key then ⊤ else ofRat (format.valueOfKey key)

/-- The key of a value once it is rounded. -/
def keyOfExtended : Extended → Int
  | ⊥ => -format.limit
  | (⊤ : WithTop ℚ) => format.limit
  | ((value : ℚ) : WithTop ℚ) => format.keyOfRat value

private theorem keyOfExtended_bot : format.keyOfExtended ⊥ = -format.limit := rfl

private theorem keyOfExtended_top : format.keyOfExtended ⊤ = format.limit := rfl

private theorem keyOfExtended_ofRat (value : ℚ) : format.keyOfExtended (ofRat value) = format.keyOfRat value := rfl

theorem extendedOfKey_of_finite {key : Int} (finite : key.natAbs < format.limit) :
    format.extendedOfKey key = ofRat (format.valueOfKey key) := by
  rw [extendedOfKey, if_neg (by omega), if_neg (by omega)]

theorem extendedOfKey_strictMonoOn : StrictMonoOn format.extendedOfKey {key | key.natAbs ≤ format.limit} := by
  intro lower lowerInside upper upperInside order
  have limit := format.limit_pos
  simp only [Set.mem_ofPred_eq] at lowerInside upperInside
  unfold extendedOfKey
  rw [if_neg (show ¬upper ≤ -format.limit by omega), if_neg (show ¬format.limit ≤ lower by omega)]
  split
  · split
    · exact bot_lt_top
    · exact bot_lt_ofRat _
  · split
    · exact ofRat_lt_top _
    · exact ofRat_strictMono (format.valueOfKey_strictMono order)

private theorem natAbs_keyOfRat_le (value : ℚ) : (format.keyOfRat value).natAbs ≤ format.limit :=
  (format.natAbs_keyOfRat value).trans_le (min_le_right _ _)

theorem keyOfExtended_mono : Monotone format.keyOfExtended := by
  intro lower upper order
  rcases lower.trichotomy with rfl | ⟨lower, rfl⟩ | rfl
  · rcases upper.trichotomy with rfl | ⟨upper, rfl⟩ | rfl
    · exact le_rfl
    · have bound := format.natAbs_keyOfRat_le upper
      rw [keyOfExtended_bot, keyOfExtended_ofRat]
      omega
    · rw [keyOfExtended_bot, keyOfExtended_top]
      omega
  · rcases upper.trichotomy with rfl | ⟨upper, rfl⟩ | rfl
    · exact absurd order (bot_lt_ofRat lower).not_ge
    · exact format.keyOfRat_mono (ofRat_strictMono.le_iff_le.mp order)
    · have bound := format.natAbs_keyOfRat_le lower
      rw [keyOfExtended_top, keyOfExtended_ofRat]
      omega
  · rw [top_le_iff.mp order]

/-- A value that the format has, as a number or an infinity. -/
def Holds (value : Extended) : Prop := format.extendedOfKey (format.keyOfExtended value) = value

theorem holds_infinity (negative : Bool) : format.Holds (if negative then ⊥ else ⊤) := by
  have limit := format.limit_pos
  cases negative with
  | true => rw [if_pos rfl, Holds, keyOfExtended_bot, extendedOfKey, if_pos le_rfl]
  | false =>
    rw [if_neg Bool.false_ne_true, Holds, keyOfExtended_top, extendedOfKey, if_neg (by omega), if_pos le_rfl]

private theorem holds_valueOfKey {key : Int} (finite : key.natAbs < format.limit) :
    format.Holds (ofRat (format.valueOfKey key)) := by
  rw [Holds, keyOfExtended_ofRat, format.keyOfRat_valueOfKey finite, format.extendedOfKey_of_finite finite]

theorem natAbs_keyOfExtended_le (value : Extended) : (format.keyOfExtended value).natAbs ≤ format.limit := by
  rcases value.trichotomy with rfl | ⟨value, rfl⟩ | rfl
  · rw [keyOfExtended_bot]
    omega
  · exact format.natAbs_keyOfRat_le value
  · rw [keyOfExtended_top]
    omega

/-- Rounding keeps the order of values that need no rounding. -/
theorem compare_keyOfExtended {left right : Extended} (leftHeld : format.Holds left) (rightHeld : format.Holds right) :
    Ord.compare (format.keyOfExtended left) (format.keyOfExtended right) = Ord.compare left right := by
  have leftInside := format.natAbs_keyOfExtended_le left
  have rightInside := format.natAbs_keyOfExtended_le right
  have order := format.extendedOfKey_strictMonoOn.cmp_map_eq leftInside rightInside
  rw [leftHeld, rightHeld] at order
  rw [← cmp_eq_compare, ← cmp_eq_compare, order]

end Format

namespace Binary

open Extended

variable {format : Format} {left right : Binary format} {l r : Extended}

/-- The exact value, if it is a number. -/
def toExtended? : Binary format → Option Extended
  | .nan => none
  | .infinity negative => some (if negative then ⊥ else ⊤)
  | .finite negative rank => some (ofRat (signedMagnitude format negative rank))

theorem toExtended?_of_toRat? {value : Binary format} {exact : ℚ} (finite : value.toRat? = some exact) :
    value.toExtended? = some (ofRat exact) := by
  cases value with
  | nan | infinity negative => cases finite
  | finite negative rank =>
    obtain rfl := Option.some.inj finite
    rfl

theorem exists_key_of_finite (negative : Bool) (rank : Fin format.limit) :
    ∃ key : Int, (finite negative rank).key? = some key ∧ key.natAbs < format.limit ∧
      format.valueOfKey key = signedMagnitude format negative rank := by
  obtain ⟨key, found, exact⟩ := exists_key (show (finite negative rank).toRat? = some _ from rfl)
  refine ⟨key, found, ?_, exact⟩
  have inside := rank.isLt
  obtain rfl := Option.some.inj found
  cases negative <;> simp [inside]

private theorem holds_of_toExtended? {value : Binary format} {exact : Extended}
    (found : value.toExtended? = some exact) : format.Holds exact := by
  cases value with
  | nan => cases found
  | infinity negative =>
    obtain rfl := Option.some.inj found
    exact format.holds_infinity negative
  | finite negative rank =>
    obtain rfl := Option.some.inj found
    obtain ⟨key, -, inside, exact⟩ := exists_key_of_finite negative rank
    rw [← exact]
    exact format.holds_valueOfKey inside

/-- A converted value has the key of the exact value, rounded to the other format. -/
theorem key?_convert {value : Binary format} {exact : Extended} (target : Format)
    (found : value.toExtended? = some exact) :
    (value.convert : Binary target).key? = some (target.keyOfExtended exact) := by
  cases value with
  | nan => cases found
  | infinity negative =>
    obtain rfl := Option.some.inj found
    cases negative <;> rfl
  | finite negative rank =>
    obtain rfl := Option.some.inj found
    exact key?_round negative _

theorem key?_of_toExtended? {value : Binary format} {exact : Extended} (found : value.toExtended? = some exact) :
    value.key? = some (format.keyOfExtended exact) := by
  cases value with
  | nan => cases found
  | infinity negative =>
    obtain rfl := Option.some.inj found
    cases negative <;> rfl
  | finite negative rank =>
    obtain rfl := Option.some.inj found
    obtain ⟨key, same, inside, exact⟩ := exists_key_of_finite negative rank
    rw [same, ← exact, Format.keyOfExtended_ofRat, format.keyOfRat_valueOfKey inside]

/-- Values are compared as the exact values that they are. -/
theorem compare_of_toExtended? (leftExact : left.toExtended? = some l) (rightExact : right.toExtended? = some r) :
    left.compare right = some (Ord.compare l r) := by
  simp only [Binary.compare, key?_of_toExtended? leftExact, key?_of_toExtended? rightExact]
  rw [format.compare_keyOfExtended (holds_of_toExtended? leftExact) (holds_of_toExtended? rightExact)]

/-- Doubles have all values of single precision. -/
theorem holds_of_toExtended?_single {value : Single} {exact : Extended} (found : value.toExtended? = some exact) :
    Format.double.Holds exact := by
  cases value with
  | nan => cases found
  | infinity negative =>
    obtain rfl := Option.some.inj found
    exact Format.double.holds_infinity negative
  | finite negative rank =>
    obtain rfl := Option.some.inj found
    obtain ⟨wide, inside, same⟩ := Format.exists_magnitude_eq_single rank.isLt
    have held := holds_of_toExtended? (show (finite negative ⟨wide, inside⟩ : Double).toExtended? = some _ from rfl)
    simp only [signedMagnitude, same] at held
    exact held

end Binary

namespace Number

open Extended

variable {left right : Number} {l r : Extended}

/-- The exact value, if it is a number. -/
def toExtended? : Number → Option Extended
  | int32 value => some (ofRat value.toInt)
  | int64 value => some (ofRat value.toInt)
  | float value => value.toExtended?
  | double value => value.toExtended?

/-- A long integer beyond the range that doubles hold without gaps. -/
def IsHuge (number : Number) : Prop := ∃ word : Int64, number = int64 word ∧ 2 ^ 53 < word.toInt.natAbs

/-- The order of the values themselves, within one kind. -/
def nativeCompare? : Number → Number → Option Ordering
  | int32 left, int32 right => some (Ord.compare left right)
  | int64 left, int64 right => some (Ord.compare left right)
  | float left, float right => left.compare right
  | double left, double right => left.compare right
  | _, _ => none

theorem exists_toExtended? {number : Number} (proper : ¬number.isNan) : ∃ exact, number.toExtended? = some exact := by
  cases number with
  | int32 word | int64 word => exact ⟨_, rfl⟩
  | float value | double value =>
    cases value with
    | nan => exact absurd rfl proper
    | infinity negative | finite negative rank => exact ⟨_, rfl⟩

theorem doubleKey?_of_toExtended? {number : Number} {exact : Extended} (found : number.toExtended? = some exact) :
    number.doubleKey? = some (Format.double.keyOfExtended exact) := by
  cases number with
  | int32 word | int64 word =>
    obtain rfl := Option.some.inj found
    exact doubleKey?_of_toInt? rfl
  | float value => exact Binary.key?_convert Format.double found
  | double value => exact Binary.key?_of_toExtended? found

private theorem holds_of_small {value : Int} (small : value.natAbs ≤ 2 ^ 53) : Format.double.Holds (ofRat value) := by
  obtain ⟨key, finite, exact⟩ := Format.exists_key_eq_intCast small
  rw [← exact]
  exact Format.double.holds_valueOfKey finite

private theorem holds_of_not_huge {number : Number} {exact : Extended} (small : ¬number.IsHuge)
    (found : number.toExtended? = some exact) : Format.double.Holds exact := by
  cases number with
  | int32 word =>
    obtain rfl := Option.some.inj found
    have low := word.le_toInt
    have high := word.toInt_lt
    exact holds_of_small (by omega)
  | int64 word =>
    obtain rfl := Option.some.inj found
    exact holds_of_small (not_lt.mp fun large => small ⟨word, rfl, large⟩)
  | float value => exact Binary.holds_of_toExtended?_single found
  | double value => exact Binary.holds_of_toExtended? found

private theorem toExtended?_of_toInt? {number : Number} {value : Int} (found : number.toInt? = some value) :
    number.toExtended? = some (ofRat value) := by
  cases number with
  | int32 word | int64 word =>
    obtain rfl := Option.some.inj found
    rfl
  | float value | double value => cases found

private theorem compare_exact_of_integers {a b : Int} (leftExact : left.toInt? = some a)
    (rightExact : right.toInt? = some b) : left.compare right = some (Ord.compare (ofRat a) (ofRat b)) := by
  have mono : StrictMono fun value : Int => ofRat value := ofRat_strictMono.comp Int.cast_strictMono
  rw [compare_of_integers leftExact rightExact, compare_map_of_strictMono mono]

private theorem compare_rounded_of_floating (floating : left.toInt? = none ∨ right.toInt? = none)
    (leftExact : left.toExtended? = some l) (rightExact : right.toExtended? = some r) :
    left.compare right =
      some (Ord.compare (Format.double.keyOfExtended l) (Format.double.keyOfExtended r)) := by
  rw [compare_of_floating floating, Binary.compare_eq_some_iff]
  exact ⟨_, _, doubleKey?_of_toExtended? leftExact, doubleKey?_of_toExtended? rightExact, rfl⟩

private theorem isFloating_of_isHuge (huge : left.IsHuge) (floating : left.toInt? = none ∨ right.toInt? = none) :
    right.kind.isFloating := by
  obtain ⟨word, rfl, -⟩ := huge
  exact isFloating_iff.mpr (floating.resolve_left (Option.some_ne_none _))

/-- Only a long integer beyond the range of doubles, against a floating number, is not compared exactly. -/
theorem compare_exact_or_rounded (leftExact : left.toExtended? = some l) (rightExact : right.toExtended? = some r) :
    left.compare right = some (Ord.compare l r) ∨
      (left.IsHuge ∧ right.kind.isFloating ∨ right.IsHuge ∧ left.kind.isFloating) ∧
        left.compare right = some (Ord.compare (Format.double.keyOfExtended l) (Format.double.keyOfExtended r)) := by
  by_cases floating : left.toInt? = none ∨ right.toInt? = none
  · have rounded := compare_rounded_of_floating floating leftExact rightExact
    by_cases leftHuge : left.IsHuge
    · exact Or.inr ⟨Or.inl ⟨leftHuge, isFloating_of_isHuge leftHuge floating⟩, rounded⟩
    by_cases rightHuge : right.IsHuge
    · exact Or.inr ⟨Or.inr ⟨rightHuge, isFloating_of_isHuge rightHuge floating.symm⟩, rounded⟩
    · left
      have leftHeld := holds_of_not_huge leftHuge leftExact
      have rightHeld := holds_of_not_huge rightHuge rightExact
      rw [rounded, Format.double.compare_keyOfExtended leftHeld rightHeld]
  · left
    simp only [not_or, ← ne_eq, Option.ne_none_iff_exists'] at floating
    obtain ⟨⟨a, leftInteger⟩, ⟨b, rightInteger⟩⟩ := floating
    obtain rfl := Option.some.inj (leftExact.symm.trans (toExtended?_of_toInt? leftInteger))
    obtain rfl := Option.some.inj (rightExact.symm.trans (toExtended?_of_toInt? rightInteger))
    exact compare_exact_of_integers leftInteger rightInteger

private theorem compare_int32_words (left right : Int32) :
    Ord.compare left right = Ord.compare left.toInt right.toInt := by
  change compareOfLessAndEq left right = compareOfLessAndEq left.toInt right.toInt
  simp only [compareOfLessAndEq, Int32.lt_iff_toInt_lt, ← Int32.toInt_inj]

private theorem compare_int64_words (left right : Int64) :
    Ord.compare left right = Ord.compare left.toInt right.toInt := by
  change compareOfLessAndEq left right = compareOfLessAndEq left.toInt right.toInt
  simp only [compareOfLessAndEq, Int64.lt_iff_toInt_lt, ← Int64.toInt_inj]

/-- Values of one kind are in the order of their exact values. -/
theorem nativeCompare?_of_toExtended? (same : left.kind = right.kind) (leftExact : left.toExtended? = some l)
    (rightExact : right.toExtended? = some r) : nativeCompare? left right = some (Ord.compare l r) := by
  cases left with
  | int32 a =>
    cases right with
    | int32 b =>
      have words : (int32 a).compare (int32 b) = some (Ord.compare a.toInt b.toInt) := compare_of_integers rfl rfl
      obtain rfl := Option.some.inj leftExact
      obtain rfl := Option.some.inj rightExact
      rw [nativeCompare?, compare_int32_words, ← words]
      exact compare_exact_of_integers rfl rfl
    | int64 b | float b | double b => cases same
  | int64 a =>
    cases right with
    | int64 b =>
      have words : (int64 a).compare (int64 b) = some (Ord.compare a.toInt b.toInt) := compare_of_integers rfl rfl
      obtain rfl := Option.some.inj leftExact
      obtain rfl := Option.some.inj rightExact
      rw [nativeCompare?, compare_int64_words, ← words]
      exact compare_exact_of_integers rfl rfl
    | int32 b | float b | double b => cases same
  | float a =>
    cases right with
    | float b => exact Binary.compare_of_toExtended? leftExact rightExact
    | int32 b | int64 b | double b => cases same
  | double a =>
    cases right with
    | double b => exact Binary.compare_of_toExtended? leftExact rightExact
    | int32 b | int64 b | float b => cases same

private theorem kind_ne_of_isHuge (huge : left.IsHuge) (floating : right.kind.isFloating) : left.kind ≠ right.kind := by
  obtain ⟨word, rfl, -⟩ := huge
  intro same
  rw [← same] at floating
  cases floating

/-- Numbers are never compared the other way round than their exact values, equal values are equal, and different
values are equal only if one is a long integer that doubles need not hold and the other is floating. Within a kind the
order is that of its values. -/
theorem compare_agrees_exact (leftProper : ¬left.isNan) (rightProper : ¬right.isNan) :
    ∃ l r order, left.toExtended? = some l ∧ right.toExtended? = some r ∧ left.compare right = some order ∧
      (order = .lt → l < r) ∧ (order = .gt → r < l) ∧ (l = r → order = .eq) ∧
      (order = .eq → l ≠ r → left.IsHuge ∧ right.kind.isFloating ∨ right.IsHuge ∧ left.kind.isFloating) ∧
      (left.kind = right.kind → nativeCompare? left right = some order) := by
  obtain ⟨l, leftExact⟩ := exists_toExtended? leftProper
  obtain ⟨r, rightExact⟩ := exists_toExtended? rightProper
  rcases compare_exact_or_rounded leftExact rightExact with exact | ⟨huge, rounded⟩
  · refine ⟨l, r, _, leftExact, rightExact, exact, compare_lt_iff_lt.mp, compare_gt_iff_gt.mp, compare_eq_iff_eq.mpr,
      fun equal different => absurd (compare_eq_iff_eq.mp equal) different, fun same => ?_⟩
    exact nativeCompare?_of_toExtended? same leftExact rightExact
  · have mono := Format.double.keyOfExtended_mono
    refine ⟨l, r, _, leftExact, rightExact, rounded, fun less => ?_, fun greater => ?_, fun same => ?_,
      fun _ _ => huge, fun same => ?_⟩
    · exact mono.reflect_lt (compare_lt_iff_lt.mp less)
    · exact mono.reflect_lt (compare_gt_iff_gt.mp greater)
    · rw [same, compare_eq_iff_eq]
    · rcases huge with ⟨leftHuge, floating⟩ | ⟨rightHuge, floating⟩
      · exact absurd same (kind_ne_of_isHuge leftHuge floating)
      · exact absurd same.symm (kind_ne_of_isHuge rightHuge floating)

/-- The first long integer that is no double equals the double below it. -/
theorem compare_agrees_exact_rounded :
    ¬(int64 9007199254740993).isNan ∧ ¬(double (.ofInt 9007199254740992)).isNan ∧
    ∃ l r, (int64 9007199254740993).toExtended? = some l ∧ (double (.ofInt 9007199254740992)).toExtended? = some r ∧
      (int64 9007199254740993).compare (double (.ofInt 9007199254740992)) = some .eq ∧ r < l ∧
      (int64 9007199254740993).IsHuge := by
  have below : (Binary.ofInt 9007199254740992 : Double).toRat? = some 9007199254740992 := by decide +kernel
  have same : (int64 9007199254740993).compare (double (.ofInt 9007199254740992)) = some .eq := by decide +kernel
  have integer : ¬(int64 9007199254740993).isNan := by decide
  have proper : ¬(double (.ofInt 9007199254740992)).isNan := by decide +kernel
  obtain ⟨l, r, order, leftExact, rightExact, found, -, -, -, different, -⟩ := compare_agrees_exact integer proper
  obtain rfl := Option.some.inj (found.symm.trans same)
  have less : r < l := by
    obtain rfl := Option.some.inj (leftExact.symm.trans (toExtended?_of_toInt? rfl))
    simp only [toExtended?, Binary.toExtended?_of_toRat? below, Option.some.injEq] at rightExact
    rw [← rightExact]
    exact ofRat_strictMono (by decide +kernel)
  rcases different rfl less.ne' with ⟨huge, -⟩ | ⟨⟨word, wrong, -⟩, -⟩
  · exact ⟨integer, proper, l, r, leftExact, rightExact, same, less, huge⟩
  · cases wrong

end Number

end ScriptNumbers
