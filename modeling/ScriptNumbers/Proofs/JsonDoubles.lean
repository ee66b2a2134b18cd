import ScriptNumbers.Proofs.JsonIntegers
import ScriptNumbers.Proofs.JsonRoundTrip

/-! Numbers other than single-precision ones, written to JSON and read back. Integers return. A double that is finite
returns as a double close by, which is the same one only if its decimal is short enough to be scaled exactly, and one
that is not finite does not return. -/

namespace ScriptNumbers.Json

open Format Decimal Numeral

def integerToken (value : Int) : NumberToken := ⟨value < 0, ⟨toDigits value.natAbs, none⟩, none⟩

private theorem integerToken_text (value : Int) : integerText value = (integerToken value).text := by
  simp [integerText, integerToken, NumberToken.text, NumberToken.textWith, Mantissa.text, exponentText]

private theorem integerToken_wellFormed (value : Int) : (integerToken value).WellFormed where
  whole := digits_toDigits value.natAbs
  some := toDigits_ne_nil value.natAbs
  zero _ leading := (toDigits_leading_zero leading).2
  fraction := nofun
  exponent := nofun

private theorem integerToken_writesInteger (value : Int) : (integerToken value).WritesInteger value := by
  have magnitude : (integerToken value).toInt = value := by
    rw [NumberToken.toInt, integerToken, ofDigits_toDigits, withSign]
    split
    next below =>
      have := of_decide_eq_true below
      omega
    next above =>
      have := of_decide_eq_false (eq_false_of_ne_true above)
      omega
  refine NumberToken.writesInteger_iff.mpr ⟨rfl, magnitude, fun below => ?_⟩
  have := of_decide_eq_true below
  omega

private theorem readNumber_json_integer {number : Number} (integral : number.kind.isInteger) :
    readNumber number.json = .ok number := by
  obtain ⟨value, text, fits, same⟩ : ∃ value, bareText number = integerText value ∧
      Literal.Fits (Literal.wordBits number.kind) value ∧ Literal.ofWord number.kind value = number := by
    cases number with
    | int32 word =>
      exact ⟨word.toInt, rfl, ⟨word.le_toInt, word.toInt_lt⟩, congrArg Number.int32 word.ofInt_toInt⟩
    | int64 word =>
      exact ⟨word.toInt, rfl, ⟨word.le_toInt, word.toInt_lt⟩, congrArg Number.int64 word.ofInt_toInt⟩
    | float | double => cases integral
  have read := value_of_isWord (integerToken_writesInteger value) (isWord_of_fits fits)
  refine readNumber_json (text.trans (integerToken_text value)) (integerToken_wellFormed value) read ?_
  rw [toNumber_of_fits integral fits, same]

/-- The JSON text of a finite double as a token. -/
def doubleToken (negative : Bool) (rank : Nat) : NumberToken :=
  decimalToken doubleRange negative (shortest double .toEven rank)

private theorem spellsDouble_doubleToken (negative : Bool) (rank : Fin double.limit) :
    SpellsDouble rank (doubleToken negative rank).leading := by
  have few : (shortest double .toEven rank).digits ≤ 10 ^ 17 := digits_shortest_double_le rank.isLt
  have fits : (shortest double .toEven rank).digits < UInt64.size := few.trans_lt (by decide)
  rcases decimalToken_leading doubleRange negative _ fits (by decide) with same | ⟨-, tenth, short, same⟩
  · exact ⟨congrArg toRat same, (congrArg Decimal.digits same).trans_le few, Or.inl same⟩
  · exact ⟨same, short.le, Or.inr tenth⟩

/-- What a finite double is read back as. -/
structure ReadBack (negative : Bool) (rank read : Fin double.limit) : Prop where
  close : |double.magnitude read - double.magnitude rank| ≤ double.magnitude rank / 2 ^ 50 + 2 * double.magnitude 1
  exact : (doubleToken negative rank).leading.digits < 2 ^ 53 →
    (doubleToken negative rank).leading.exponent.natAbs ≤ 22 → read = rank

private theorem readNumber_json_double (negative : Bool) (rank : Fin double.limit) :
    ∃ read, readNumber (Number.double (.finite negative rank)).json = .ok (.double (.finite negative read)) ∧
      ReadBack negative rank read := by
  have text : bareText (.double (.finite negative rank)) = _ :=
    (decimalToken_text doubleRange negative (shortest double .toEven rank)).symm
  have formed := decimalToken_wellFormed doubleRange negative (shortest double .toEven rank)
    (exponent_eq_zero_of_shortest rank.isLt)
  have broken := decimalToken_isInteger doubleRange negative (shortest double .toEven rank)
  have sign := decimalToken_negative doubleRange negative (shortest double .toEven rank)
  have spells := spellsDouble_doubleToken negative rank
  obtain ⟨read, scaled, close⟩ := spells.scale_close
  refine ⟨read, ?_, close, fun short inside => ?_⟩
  · rw [readNumber_json_of_value text formed (NumberToken.value_of_scale broken scaled), sign]
    rfl
  · rw [spells.scale_exact short inside] at scaled
    cases scaled
    rfl

private theorem json_of_not_finite {value : Double} (infinite : ¬value.isFinite) :
    (Number.double value).json = "\x7b\"Double\":null\x7d" := by
  have text : bareText (.double value) = ['n', 'u', 'l', 'l'] := by
    cases value with
    | nan | infinity negative => rfl
    | finite negative rank => exact absurd rfl infinite
  rw [Number.json, numberText, text, Number.kind]
  decide

private theorem readNumber_null :
    readNumber "\x7b\"Double\":null\x7d" = .error (.data (.invalidType .null (.number .double))) := by
  decide +kernel

/-- A number of any kind but the single-precision one returns from JSON iff it is finite: an integer as itself, a
double with its sign and about its magnitude. Other doubles are written as no number and refused as such. -/
theorem readNumber_json_of_ne_float (number : Number) (other : number.kind ≠ .float) :
    ((∃ result, readNumber number.json = .ok result) ↔ number.isFinite) ∧
    (number.kind.isInteger → readNumber number.json = .ok number) ∧
    (∀ negative rank, number = .double (.finite negative rank) →
      ∃ read, readNumber number.json = .ok (.double (.finite negative read)) ∧ ReadBack negative rank read) ∧
    (¬number.isFinite → number.json = "\x7b\"Double\":null\x7d" ∧
      ∃ fault, readNumber number.json = .error (.data fault) ∧
        fault.message = "invalid type: null, expected f64") := by
  cases number with
  | int32 word =>
    have read : readNumber (Number.int32 word).json = _ := readNumber_json_integer rfl
    exact ⟨iff_of_true ⟨_, read⟩ rfl, fun _ => read, nofun, fun infinite => absurd rfl infinite⟩
  | int64 word =>
    have read : readNumber (Number.int64 word).json = _ := readNumber_json_integer rfl
    exact ⟨iff_of_true ⟨_, read⟩ rfl, fun _ => read, nofun, fun infinite => absurd rfl infinite⟩
  | float => exact absurd rfl other
  | double value =>
    by_cases finite : value.isFinite
    · cases value with
      | nan | infinity => cases finite
      | finite negative rank =>
        have read := readNumber_json_double negative rank
        have accepted : ∃ result, readNumber (Number.double (.finite negative rank)).json = .ok result := by
          obtain ⟨back, same, -⟩ := read
          exact ⟨_, same⟩
        refine ⟨iff_of_true accepted rfl, nofun, fun sign place same => ?_, fun infinite => absurd rfl infinite⟩
        cases same
        exact read
    · have text := json_of_not_finite finite
      have refused := readNumber_null
      rw [← text] at refused
      refine ⟨iff_of_false ?_ finite, nofun, fun negative rank same => ?_, fun _ => ⟨text, _, refused, by decide⟩⟩
      · rintro ⟨result, accepted⟩
        rw [refused] at accepted
        cases accepted
      · cases same
        exact absurd rfl finite

/-- The least long integer and negative zero return. What is not a number does not. -/
theorem readNumber_json_of_ne_float_extremes :
    readNumber (Number.int64 (-9223372036854775808)).json = .ok (.int64 (-9223372036854775808)) ∧
    readNumber (Number.double (.zero true)).json = .ok (.double (.zero true)) ∧
    ∃ fault, readNumber (Number.double .nan).json = .error (.data fault) ∧
      fault.message = "invalid type: null, expected f64" := by
  have zero : (Binary.zero true : Double) = .finite true ⟨0, double.limit_pos⟩ :=
    Binary.ofRank_of_lt true double.limit_pos
  have decimal : (doubleToken true 0).leading = ⟨0, -1⟩ := by decide +kernel
  refine ⟨(readNumber_json_of_ne_float (.int64 _) nofun).2.1 rfl, ?_, ?_⟩
  · obtain ⟨read, accepted, back⟩ :=
      (readNumber_json_of_ne_float (.double (.zero true)) nofun).2.2.1 true ⟨0, double.limit_pos⟩
        (congrArg Number.double zero)
    have same := back.exact (by rw [decimal]; decide) (by rw [decimal]; decide)
    rw [accepted, same, zero]
  · exact ((readNumber_json_of_ne_float (.double .nan) nofun).2.2.2 nofun).2

/-- An odd integer that a double just holds returns as its neighbour, since with the zero behind the point its digits
are too many for a double. -/
theorem readNumber_json_oddInteger :
    (Number.double (.ofInt 9007199254740991)).json = "\x7b\"Double\":9007199254740991.0\x7d" ∧
    readNumber (Number.double (.ofInt 9007199254740991)).json = .ok (.double (.ofInt 9007199254740990)) ∧
    readNumber (Number.double (.ofInt 9007199254740991)).json ≠ .ok (.double (.ofInt 9007199254740991)) := by
  decide +kernel

end ScriptNumbers.Json
