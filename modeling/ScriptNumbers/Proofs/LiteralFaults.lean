import ScriptNumbers.Proofs.PlainIntegers

/-! What a literal may be refused for. The rules stand in the order in which they are looked at, and the first that is
broken is the one reported. A literal that breaks none is a number. -/

namespace ScriptNumbers.Literal

open Numeral

/-- A rule for literals, with the kind and the message of the error that reports it. -/
structure Rule where
  broken : Bool
  kind : Option Kind
  message : String

/-- An integer has to fit the words of its kind. -/
def rangeRules (kind : Kind) (value : Int) : List Rule :=
  [⟨decide (2 ^ (wordBits kind - 1) ≤ value), some kind, "number too large to fit in target type"⟩,
    ⟨decide (value < -2 ^ (wordBits kind - 1)), some kind, "number too small to fit in target type"⟩]

def hexRules (settings : Settings) (digits : List Char) (suffix : Option Kind) : List Rule :=
  let kind := suffix.getD .int32
  [⟨!settings.hex, none, "hexadecimal literals are disabled"⟩,
    ⟨kind.isFloating, suffix, "hexadecimal literals are always integers"⟩,
    ⟨decide (2 ^ wordBits kind ≤ placeValue digits), some kind, "number too large to fit in target type"⟩]

/-- Whether an integer is held to the range of its kind. Without a suffix, it may be promoted instead. -/
def isBounded (settings : Settings) : Option Kind → Bool
  | some kind => kind.isInteger
  | none => settings.oversizedInteger == .reject

def decimalRules (settings : Settings) (negative : Bool) (mantissa : Mantissa) (exponent : Option (Marker × Exponent))
    (suffix : Option Kind) : List Rule :=
  let integral := mantissa.fraction.isNone && exponent.isNone
  ⟨!integral && suffix.any Kind.isInteger, suffix, "fraction or exponent on an integer"⟩ ::
    if integral && isBounded settings suffix then
      rangeRules (suffix.getD .int32) (withSign negative (Decimal.ofDigits mantissa.whole))
    else []

/-- All rules for a literal, first to last. -/
def rules (settings : Settings) (parts : Parts) : List Rule :=
  ⟨parts.suffix.isSome && !settings.typeSuffixes, none, "type suffixes are disabled"⟩ ::
    match parts.body with
    | .hex digits => hexRules settings digits parts.suffix
    | .decimal mantissa exponent => decimalRules settings parts.negative mantissa exponent parts.suffix

/-- An outcome of looking at rules in order: the first that is broken, or a value if none is. -/
inductive Judged {α : Type} : List Rule → Except Cause α → Prop where
  | accepted (value : α) : Judged [] (.ok value)
  | broken {rule later reason} (broken : rule.broken) (same : reason.message = rule.message) :
      Judged (rule :: later) (.error ⟨rule.kind, reason⟩)
  | kept {rule later outcome} (kept : ¬rule.broken) (judged : Judged later outcome) : Judged (rule :: later) outcome

variable {α β : Type} {outcome : Except Cause α} {held : List Rule}

private theorem Judged.map (judged : Judged held outcome) (f : α → β) : Judged held (outcome.map f) := by
  induction judged with
  | accepted value => exact .accepted (f value)
  | broken broken same => exact .broken broken same
  | kept kept _ ih => exact .kept kept ih

/-- The error is that of the first broken rule. -/
theorem Judged.first (judged : Judged held outcome) :
    match held.find? (·.broken) with
    | some rule => ∃ reason, outcome = .error ⟨rule.kind, reason⟩ ∧ reason.message = rule.message
    | none => ∃ value, outcome = .ok value := by
  induction judged with
  | accepted value => exact ⟨value, rfl⟩
  | broken broken same =>
    rw [List.find?_cons_of_pos broken]
    exact ⟨_, rfl, same⟩
  | kept kept _ ih =>
    rw [List.find?_cons_of_neg kept]
    exact ih

private theorem judged_word (kind : Kind) (value : Nat) (number : Number) :
    Judged [⟨decide (2 ^ wordBits kind ≤ value), some kind, "number too large to fit in target type"⟩]
      (if value < 2 ^ wordBits kind then .ok number else .error ⟨some kind, .tooLarge⟩) := by
  by_cases small : value < 2 ^ wordBits kind
  · rw [if_pos small]
    exact .kept (by simpa using small) (.accepted number)
  · rw [if_neg small]
    exact .broken (by simpa using small) rfl

variable (settings : Settings) (negative : Bool) (suffix : Option Kind)

private theorem judged_readHex (allowed : settings.hex) {digits : List Char} (run : digits ∈ Grammar.hexDigits) :
    Judged (hexRules settings digits suffix) (readHex negative digits suffix) := by
  have word {kind : Kind} (integral : kind.isInteger) :
      Judged [⟨decide (2 ^ wordBits kind ≤ placeValue digits), some kind, "number too large to fit in target type"⟩]
        (readHex negative digits (some kind)) := by
    rw [readHex_integer integral negative run]
    exact judged_word kind _ _
  apply Judged.kept
  · simp [allowed]
  · cases suffix with
    | none => exact .kept (by decide) (word rfl)
    | some kind =>
      cases kind with
      | int32 | int64 => exact .kept (by decide) (word rfl)
      | float | double => exact .broken rfl rfl

private theorem judged_range {kind : Kind} {value : Int}
    (fits : Fits (wordBits kind) value → ∃ result, outcome = .ok result)
    (outside : ¬Fits (wordBits kind) value →
      outcome = .error ⟨some kind, if value < 0 then .tooSmall else .tooLarge⟩) :
    Judged (rangeRules kind value) outcome := by
  have positive : (0 : Int) < 2 ^ (wordBits kind - 1) := pow_pos (by decide) _
  by_cases large : 2 ^ (wordBits kind - 1) ≤ value
  · rw [outside (fun inside => absurd inside.2 (by omega)), if_neg (by omega)]
    exact .broken (by simpa using large) rfl
  apply Judged.kept (by simpa using large)
  by_cases small : value < -2 ^ (wordBits kind - 1)
  · rw [outside (fun inside => absurd inside.1 (by omega)), if_pos (by omega)]
    exact .broken (by simpa using small) rfl
  · obtain ⟨result, rfl⟩ := fits ⟨by omega, by omega⟩
    exact .kept (by simpa using small) (.accepted result)

private theorem judged_readPlain {digits : List Char} (formed : Mantissa.WellFormed ⟨digits, none⟩) :
    Judged (if isBounded settings none then rangeRules .int32 (withSign negative (Decimal.ofDigits digits)) else [])
      (readPlain settings.oversizedInteger negative ⟨digits, none⟩) := by
  unfold isBounded
  cases settings.oversizedInteger with
  | reject =>
    apply judged_range
    · exact fun fits => ⟨_, readPlain_narrow formed rfl fits .reject⟩
    · exact readPlain_reject formed rfl
  | promote =>
    have promoted : ∃ reading, readPlain .promote negative ⟨digits, none⟩ = .ok reading := by
      by_cases narrow : Fits 32 (withSign negative (Decimal.ofDigits digits))
      · exact ⟨_, readPlain_narrow formed rfl narrow .promote⟩
      by_cases long : Fits 64 (withSign negative (Decimal.ofDigits digits))
      · exact ⟨_, readPlain_long formed rfl narrow long⟩
      · exact ⟨_, readPlain_double formed rfl long⟩
    obtain ⟨reading, read⟩ := promoted
    rw [read]
    exact .accepted reading

private theorem judged_integral {digits : List Char} (formed : Mantissa.WellFormed ⟨digits, none⟩) :
    Judged (decimalRules settings negative ⟨digits, none⟩ none suffix)
      (readDecimal settings.oversizedInteger negative ⟨digits, none⟩ none suffix) := by
  apply Judged.kept Bool.false_ne_true
  cases suffix with
  | none => exact judged_readPlain settings negative formed
  | some kind =>
    rw [readDecimal_integer]
    apply Judged.map
    by_cases floating : kind.isFloating
    · have unscaled : ∀ power ∈ (none : Option (Marker × Exponent)), power.2.WellFormed := nofun
      rw [readNumeral_floating negative formed unscaled floating]
      have unbounded : isBounded settings (some kind) = false := by simpa [isBounded, Kind.isFloating] using floating
      simp only [unbounded]
      exact .accepted _
    · have bounded : isBounded settings (some kind) = true := by simpa [isBounded, Kind.isFloating] using floating
      simp only [bounded, Option.getD_some]
      apply judged_range
      · exact fun fits => ⟨_, readNumeral_of_fits bounded negative formed fits⟩
      · exact readNumeral_of_not_fits bounded negative formed

private theorem judged_fractional {mantissa : Mantissa} (front : mantissa.WellFormed)
    {exponent : Option (Marker × Exponent)} (behind : ∀ power ∈ exponent, power.2.WellFormed)
    (fractional : isIntegral mantissa exponent = false) :
    Judged (decimalRules settings negative mantissa exponent suffix)
      (readDecimal settings.oversizedInteger negative mantissa exponent suffix) := by
  have broken : (mantissa.fraction.isNone && exponent.isNone) = false := fractional
  unfold decimalRules readDecimal
  simp only [broken, fractional]
  cases suffix with
  | none =>
    have floating : (floatingKind exponent).isFloating := by rcases exponent with _ | ⟨_ | _, _⟩ <;> rfl
    have read := readNumeral_floating negative front behind floating
    simp only [Bool.false_eq_true, if_false, read]
    exact .kept Bool.false_ne_true (.accepted _)
  | some kind =>
    dsimp only
    by_cases floating : kind.isFloating
    · have typed : (kind.isFloating || isIntegral mantissa exponent) = true := by simp [floating]
      rw [readTyped, if_pos typed, readNumeral_floating negative front behind floating]
      refine .kept ?_ (.accepted _)
      simpa [Kind.isFloating] using floating
    · have untyped : ¬(kind.isFloating || isIntegral mantissa exponent) = true := by simp [floating, fractional]
      rw [readTyped, if_neg untyped]
      refine .broken ?_ rfl
      simpa [Kind.isFloating] using floating

private theorem judged_readDecimal {mantissa : Mantissa} (front : mantissa.WellFormed)
    {exponent : Option (Marker × Exponent)} (behind : ∀ power ∈ exponent, power.2.WellFormed) :
    Judged (decimalRules settings negative mantissa exponent suffix)
      (readDecimal settings.oversizedInteger negative mantissa exponent suffix) := by
  cases integral : isIntegral mantissa exponent with
  | true =>
    obtain ⟨digits, fraction⟩ := mantissa
    obtain ⟨rfl, rfl⟩ : fraction = none ∧ exponent = none := by simpa [isIntegral] using integral
    exact judged_integral settings negative suffix front
  | false => exact judged_fractional settings negative suffix front behind integral

private theorem judged_ofParts {parts : Parts} (formed : parts.body.WellFormed) :
    Judged (rules settings parts) (ofParts settings parts) := by
  obtain ⟨negative, body, suffix⟩ := parts
  unfold rules ofParts
  by_cases disabled : (suffix.isSome && !settings.typeSuffixes) = true
  · rw [if_pos disabled]
    exact .broken disabled rfl
  · rw [if_neg disabled]
    apply Judged.kept disabled
    cases formed with
    | decimal front behind => exact judged_readDecimal settings negative suffix front behind
    | hex run =>
      dsimp only
      by_cases allowed : settings.hex
      · rw [if_pos allowed]
        exact (judged_readHex settings negative suffix allowed run).map _
      · rw [if_neg allowed]
        exact .broken (by simpa using allowed) rfl

/-- A text outside of the grammar is blamed on a column. Of a literal, the first broken rule is reported, and a literal
that breaks none is a number. -/
theorem parse_firstFault (settings : Settings) (text : String) :
    (text.toList ∉ Grammar.literal → ∃ column reason,
      parse settings text = .error ⟨none, text, reason⟩ ∧
        reason.message = "unexpected input at column " ++ toString (column : Nat)) ∧
    ∀ (pieces : Pieces) (parts : Parts), pieces.WellFormed → pieces.Denotes parts → text.toList = pieces.text →
      match (rules settings parts).find? (·.broken) with
      | some rule => ∃ reason, parse settings text = .error ⟨rule.kind, text, reason⟩ ∧ reason.message = rule.message
      | none => ∃ number, parse settings text = .ok number := by
  refine ⟨fun outside => ?_, fun pieces parts formed denotes whole => ?_⟩
  · obtain ⟨rest, stuck⟩ := scanNodes_error_iff.mpr outside
    exact ⟨_, _, parse_of_stuck stuck settings, rfl⟩
  · have found : scan text.toList = .ok parts := by
      rw [whole]
      exact scan_text formed denotes
    have first := (judged_ofParts settings (denotes.body.wellFormed formed.body)).first
    rw [parse_of_scan found]
    cases search : (rules settings parts).find? (·.broken) with
    | some rule =>
      rw [search] at first
      obtain ⟨reason, read, same⟩ := first
      exact ⟨reason, by rw [read]; rfl, same⟩
    | none =>
      rw [search] at first
      obtain ⟨reading, read⟩ := first
      exact ⟨reading.number, by rw [read]; rfl⟩

/-- Each fault once, mostly where a later one is there too, and a value that is out of range but promoted. -/
theorem parse_firstFault_each :
    ("1.5e%".toList ∉ Grammar.literal ∧ ∃ column reason, parse .standard "1.5e%" = .error ⟨none, "1.5e%", reason⟩ ∧
      reason.message = "unexpected input at column " ++ toString (column : Nat)) ∧
    (Parts.Spells ⟨true, .hex "FFFFFFFFF".toList, some .double⟩ "-&HFFFFFFFFF#" ∧
      (∃ reason, parse ⟨false, false, .promote⟩ "-&HFFFFFFFFF#" = .error ⟨none, "-&HFFFFFFFFF#", reason⟩ ∧
        reason.message = "type suffixes are disabled") ∧
      (∃ reason, parse ⟨true, false, .promote⟩ "-&HFFFFFFFFF#" = .error ⟨none, "-&HFFFFFFFFF#", reason⟩ ∧
        reason.message = "hexadecimal literals are disabled") ∧
      ∃ reason, parse .standard "-&HFFFFFFFFF#" = .error ⟨some .double, "-&HFFFFFFFFF#", reason⟩ ∧
        reason.message = "hexadecimal literals are always integers") ∧
    (Parts.Spells ⟨false, .hex "100000000".toList, none⟩ "&h100000000" ∧
      ∃ reason, parse .standard "&h100000000" = .error ⟨some .int32, "&h100000000", reason⟩ ∧
        reason.message = "number too large to fit in target type") ∧
    (Parts.Spells ⟨false, .decimal ⟨"99999999999".toList, some ['5']⟩ none, some .int32⟩ "99999999999.5%" ∧
      ∃ reason, parse .standard "99999999999.5%" = .error ⟨some .int32, "99999999999.5%", reason⟩ ∧
        reason.message = "fraction or exponent on an integer") ∧
    (Parts.Spells ⟨false, .decimal ⟨"99999999999".toList, none⟩ none, some .int32⟩ "99999999999%" ∧
      ∃ reason, parse .standard "99999999999%" = .error ⟨some .int32, "99999999999%", reason⟩ ∧
        reason.message = "number too large to fit in target type") ∧
    Parts.Spells ⟨true, .decimal ⟨"3000000000".toList, none⟩ none, none⟩ "-3000000000" ∧
      (∃ reason, parse ⟨true, true, .reject⟩ "-3000000000" = .error ⟨some .int32, "-3000000000", reason⟩ ∧
        reason.message = "number too small to fit in target type") ∧
      ∃ number, parse .standard "-3000000000" = .ok number := by
  have stuck : scan "1.5e%".toList = .error (.unexpectedInput 5) := by decide
  have outside : "1.5e%".toList ∉ Grammar.literal := not_mem_of_scan_error stuck
  have judged (settings : Settings) {text : String} {parts : Parts} (spells : parts.Spells text) :=
    let ⟨pieces, formed, denotes, whole⟩ := spells
    (parse_firstFault settings text).2 pieces parts formed denotes whole
  have double : Parts.Spells ⟨true, .hex "FFFFFFFFF".toList, some .double⟩ "-&HFFFFFFFFF#" := spells_iff.mpr (by decide)
  have hex : Parts.Spells ⟨false, .hex "100000000".toList, none⟩ "&h100000000" := spells_iff.mpr (by decide)
  have fraction : Parts.Spells ⟨false, .decimal ⟨"99999999999".toList, some ['5']⟩ none, some .int32⟩ "99999999999.5%" :=
    spells_iff.mpr (by decide)
  have large : Parts.Spells ⟨false, .decimal ⟨"99999999999".toList, none⟩ none, some .int32⟩ "99999999999%" :=
    spells_iff.mpr (by decide)
  have small : Parts.Spells ⟨true, .decimal ⟨"3000000000".toList, none⟩ none, none⟩ "-3000000000" :=
    spells_iff.mpr (by decide)
  refine ⟨⟨outside, (parse_firstFault .standard "1.5e%").1 outside⟩, ⟨double, ?_, ?_, ?_⟩, ⟨hex, ?_⟩, ⟨fraction, ?_⟩,
    ⟨large, ?_⟩, small, ?_, ?_⟩
  · exact judged ⟨false, false, .promote⟩ double
  · exact judged ⟨true, false, .promote⟩ double
  · exact judged .standard double
  · exact judged .standard hex
  · exact judged .standard fraction
  · exact judged .standard large
  · exact judged ⟨true, true, .reject⟩ small
  · exact judged .standard small

end ScriptNumbers.Literal
