import ScriptNumbers.Proofs.NumberOrder
import ScriptNumbers.Proofs.PlainIntegers

/-! Plain integers are read in order, also where the kind changes. Whatever the kind, the number that is read is
compared with floating ones as the double nearest to the value, and rounding to that is monotone. -/

namespace ScriptNumbers.Literal.PlainInteger

/-- A number that is read for a value: the value itself in an integer kind, or else the double nearest to it. -/
structure Represents (number : Number) (value : Int) : Prop where
  kind : number.kind ≠ .float
  exact : number.kind ≠ .double → number.toInt? = some value
  nearest : number.doubleKey? = some (Format.double.keyOfRat value)

private theorem Represents.of_toInt? {number : Number} {value : Int} (exact : number.toInt? = some value) :
    Represents number value := by
  refine ⟨fun floating => ?_, fun _ => exact, Number.doubleKey?_of_toInt? exact⟩
  cases number with
  | int32 | int64 | double => cases floating
  | float => cases exact

private theorem toInt?_int32 {value : Int} (fits : Fits 32 value) : (Number.int32 (.ofInt value)).toInt? = some value :=
  congrArg some (Int32.toInt_ofInt_of_le fits.1 fits.2)

private theorem toInt?_int64 {value : Int} (fits : Fits 64 value) : (Number.int64 (.ofInt value)).toInt? = some value :=
  congrArg some (Int64.toInt_ofInt_of_le fits.1 fits.2)

private theorem Represents.of_isNearest {double : Double} {value : Int} (nearest : double.IsNearest value) :
    Represents (.double double) value := by
  obtain ⟨key, found, near⟩ := nearest
  rw [Format.isNearest_iff.mp near] at found
  exact ⟨nofun, fun other => absurd rfl other, found⟩

private theorem exists_represents (integer : PlainInteger) :
    ∃ number, parse .standard integer.text = .ok number ∧ Represents number integer.value := by
  have meaning := integer.value_eq
  by_cases narrow : Fits 32 integer.value
  · refine ⟨_, ?_, .of_toInt? (toInt?_int32 narrow)⟩
    rw [parse_eq, readPlain_narrow integer.mantissa_wellFormed meaning narrow]
    rfl
  by_cases long : Fits 64 integer.value
  · refine ⟨_, ?_, .of_toInt? (toInt?_int64 long)⟩
    rw [parse_eq, Settings.standard, readPlain_long integer.mantissa_wellFormed meaning narrow long]
    rfl
  · refine ⟨_, ?_, .of_isNearest (ofDecimal_nearest meaning rfl).1⟩
    rw [parse_eq, Settings.standard, readPlain_double integer.mantissa_wellFormed meaning long]
    rfl

variable {left right : Number} {l r : Int}

/-- Two integers are compared exactly, any other pair as the nearest doubles. -/
theorem Represents.compare (one : Represents left l) (other : Represents right r) (order : l ≤ r) :
    ∃ result, left.compare right = some result ∧ result ≠ .gt ∧
      (l < r → result = .lt ∨ left.kind = .double ∨ right.kind = .double) := by
  by_cases doubles : left.kind = .double ∨ right.kind = .double
  · have floating : left.toInt? = none ∨ right.toInt? = none := by
      rw [← Number.isFloating_iff, ← Number.isFloating_iff]
      exact doubles.imp (fun same => by rw [same]; rfl) fun same => by rw [same]; rfl
    have keys : Format.double.keyOfRat l ≤ Format.double.keyOfRat r :=
      Format.double.keyOfRat_mono (by exact_mod_cast order)
    rw [Number.compare_of_floating floating]
    refine ⟨_, Binary.compare_eq_some_iff.mpr ⟨_, _, one.nearest, other.nearest, rfl⟩, ?_, fun _ => Or.inr doubles⟩
    exact fun reversed => (compare_gt_iff_gt.mp reversed).not_ge keys
  · rw [not_or] at doubles
    refine ⟨_, Number.compare_of_integers (one.exact doubles.1) (other.exact doubles.2), ?_, fun less => ?_⟩
    · exact fun reversed => (compare_gt_iff_gt.mp reversed).not_ge order
    · exact Or.inl (compare_lt_iff_lt.mpr less)

/-- Plain integers are never read in reverse. Different ones can become equal only if one of them has outgrown the
integer kinds. -/
theorem parse_ordered (lower upper : PlainInteger) (order : lower.value ≤ upper.value) :
    ∃ left right result, parse .standard lower.text = .ok left ∧ parse .standard upper.text = .ok right ∧
      left.kind ≠ .float ∧ right.kind ≠ .float ∧ left.compare right = some result ∧ result ≠ .gt ∧
      (lower.value < upper.value → result = .lt ∨ left.kind = .double ∨ right.kind = .double) := by
  obtain ⟨left, leftRead, one⟩ := lower.exists_represents
  obtain ⟨right, rightRead, other⟩ := upper.exists_represents
  obtain ⟨result, compared, forward, strict⟩ := one.compare other order
  exact ⟨left, right, result, leftRead, rightRead, one.kind, other.kind, compared, forward, strict⟩

/-- The last long integer is equal to the first integer behind it, which is read as a double. -/
theorem parse_ordered_outgrown :
    (9223372036854775807 : Int) ≤ 9223372036854775808 ∧
    ∃ left right, parse .standard "9223372036854775807" = .ok left ∧
      parse .standard "9223372036854775808" = .ok right ∧ left.compare right = some .eq ∧
      (left.kind = .double ∨ right.kind = .double) := by
  let last : PlainInteger := ⟨⟨none, "9223372036854775807".toList⟩, List.all_eq_true.mp (by decide), by decide⟩
  let beyond : PlainInteger := ⟨⟨none, "9223372036854775808".toList⟩, List.all_eq_true.mp (by decide), by decide⟩
  have long : parse .standard "9223372036854775807" = .ok (.int64 9223372036854775807) := by decide
  have double : parse .standard "9223372036854775808" = .ok (.double (.ofInt 9223372036854775808)) := by decide +kernel
  have same : (Number.int64 9223372036854775807).compare (.double (.ofInt 9223372036854775808)) = some .eq := by
    decide +kernel
  obtain ⟨left, right, result, leftRead, rightRead, -, -, compared, -, strict⟩ :=
    parse_ordered last beyond (by decide)
  obtain rfl := Except.ok.inj (long.symm.trans leftRead)
  obtain rfl := Except.ok.inj (double.symm.trans rightRead)
  obtain rfl := Option.some.inj (same.symm.trans compared)
  exact ⟨by decide, _, _, leftRead, rightRead, same, (strict (by decide)).resolve_left nofun⟩

end ScriptNumbers.Literal.PlainInteger
