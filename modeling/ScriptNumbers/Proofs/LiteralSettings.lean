import ScriptNumbers.Proofs.PlainIntegers

/-! Settings refuse literals and do nothing else: a literal that is not refused means the same under all settings. So
the more is allowed the more literals there are, and none of them ever changes its value. -/

namespace ScriptNumbers.Literal

open Numeral

namespace Grammar

/-- `[+-]? ( hex | decimal ) [%&!#]` -/
def suffixed : Language Char := optional sign * (hex + decimal) * typeSuffix

/-- `[+-]? hex [%&!#]?` -/
def hexadecimal : Language Char := optional sign * hex * optional typeSuffix

end Grammar

section Scan

variable {text : List Char}

private theorem mem_suffixed_iff : text ∈ Grammar.suffixed ↔ ∃ parts, scan text = .ok parts ∧ parts.suffix ≠ none := by
  constructor
  · rintro ⟨_, ⟨sign, before, _, middle, rfl⟩, suffix, behind, rfl⟩
    obtain ⟨body, formed, rfl⟩ := mem_body_iff.mp middle
    have formed : Pieces.WellFormed ⟨sign, body, suffix⟩ := ⟨before, formed, Or.inr behind⟩
    obtain ⟨parts, denotes⟩ := formed.exists_denotes
    refine ⟨parts, scan_text formed denotes, fun none => ?_⟩
    obtain ⟨c, -, one⟩ := Grammar.mem_oneOf.mp behind
    have same := denotes.suffix
    rw [none, one] at same
    cases same
  · rintro ⟨parts, found, some⟩
    obtain ⟨⟨sign, body, suffix⟩, formed, rfl, denotes⟩ := of_scan found
    have middle := mem_body_iff.mpr ⟨body, formed.body, rfl⟩
    rcases Grammar.mem_optional.mp formed.suffix with none | behind
    · have same := denotes.suffix
      cases absent : parts.suffix with
      | none => exact absurd absent some
      | some kind =>
        rw [absent, none] at same
        cases same
    · exact Language.append_mem_mul (Language.append_mem_mul formed.sign middle) behind

private theorem mem_hexadecimal_iff :
    text ∈ Grammar.hexadecimal ↔ ∃ parts digits, scan text = .ok parts ∧ parts.body = .hex digits := by
  constructor
  · rintro ⟨_, ⟨sign, before, _, ⟨_, ⟨_, ⟨_, rfl, rfl⟩, _, ⟨marker, letter, rfl⟩, rfl⟩, digits, run, rfl⟩, rfl⟩, suffix,
      behind, rfl⟩
    have formed : Pieces.WellFormed ⟨sign, .hex marker digits, suffix⟩ :=
      ⟨before, .hex ⟨marker, letter, rfl⟩ run, behind⟩
    obtain ⟨parts, denotes⟩ := formed.exists_denotes
    refine ⟨parts, digits, scan_text formed denotes, ?_⟩
    have body := denotes.body
    cases parts
    cases body
    rfl
  · rintro ⟨parts, digits, found, hex⟩
    obtain ⟨⟨sign, body, suffix⟩, formed, rfl, denotes⟩ := of_scan found
    have same := denotes.body
    have middle := formed.body
    rw [hex] at same
    cases same with
    | hex marker =>
      cases middle with
      | hex letter run =>
        have ampersand : ['&'] ∈ Grammar.oneOf (· = '&') := ⟨'&', rfl, rfl⟩
        have body := Language.append_mem_mul (Language.append_mem_mul ampersand letter) run
        exact Language.append_mem_mul (Language.append_mem_mul formed.sign body) formed.suffix

end Scan

/-- A literal without point, exponent and suffix is a plain integer. -/
theorem exists_plainInteger {text : String} {negative : Bool} {digits : List Char}
    (found : scan text.toList = .ok ⟨negative, .decimal ⟨digits, none⟩ none, none⟩) :
    ∃ integer : PlainInteger,
      integer.text = text ∧ integer.isNegative = negative ∧ integer.numeral.digits = digits := by
  obtain ⟨⟨sign, body, suffix⟩, formed, whole, denotes⟩ := of_scan found
  have run : body.text ∈ Grammar.many Grammar.digit := by
    have same := denotes.body
    cases same with
    | plain front =>
      rw [BodyPieces.text, Mantissa.text, List.append_nil]
      exact Grammar.mem_many_digit.mpr ⟨by simpa using front.some, front.whole⟩
  have plain : text.toList ∈ Grammar.optional Grammar.sign * Grammar.many Grammar.digit := by
    have behind : suffix = [] := denotes.suffix
    rw [whole, Pieces.text, behind, List.append_nil]
    exact Language.append_mem_mul formed.sign run
  obtain ⟨integer, rfl⟩ := PlainInteger.exists_text_iff.mp plain
  have read := integer.scan_toList
  rw [found] at read
  cases read
  exact ⟨integer, rfl, rfl, rfl⟩

/-- What settings refuse a literal for. -/
inductive Settings.Refuses (settings : Settings) (text : String) : Prop where
  | suffix (suffixed : text.toList ∈ Grammar.suffixed) (disabled : ¬settings.typeSuffixes)
  | hex (hexadecimal : text.toList ∈ Grammar.hexadecimal) (disabled : ¬settings.hex)
  | oversized (integer : PlainInteger) (plain : text = integer.text) (wide : ¬Fits 32 integer.value)
      (rejected : settings.oversizedInteger = .reject)

variable {settings : Settings} {text : String}

private theorem ofParts_suffix {parts : Parts} (suffixed : parts.suffix ≠ none) (disabled : ¬settings.typeSuffixes) :
    ∃ cause, ofParts settings parts = .error cause := by
  refine ⟨_, if_pos ?_⟩
  simp [Option.isSome_iff_ne_none, suffixed, disabled]

private theorem ofParts_hex {parts : Parts} {digits : List Char} (hex : parts.body = .hex digits)
    (disabled : ¬settings.hex) : ∃ cause, ofParts settings parts = .error cause := by
  rw [ofParts, hex]
  dsimp only
  rw [if_neg disabled]
  split
  · exact ⟨_, rfl⟩
  · exact ⟨_, rfl⟩

private theorem parse_of_refused (refused : settings.Refuses text) : ∃ error, parse settings text = .error error := by
  have fails {parts : Parts} (found : scan text.toList = .ok parts)
      (forbidden : ∃ cause, ofParts settings parts = .error cause) : ∃ error, parse settings text = .error error := by
    obtain ⟨cause, failed⟩ := forbidden
    exact ⟨_, by rw [parse_of_scan found, failed]; rfl⟩
  cases refused with
  | suffix suffixed disabled =>
    obtain ⟨parts, found, some⟩ := mem_suffixed_iff.mp suffixed
    exact fails found (ofParts_suffix some disabled)
  | hex hexadecimal disabled =>
    obtain ⟨parts, digits, found, hex⟩ := mem_hexadecimal_iff.mp hexadecimal
    exact fails found (ofParts_hex hex disabled)
  | oversized integer plain wide rejected =>
    rw [plain, integer.parse_eq, rejected, readPlain_reject integer.mantissa_wellFormed integer.value_eq wide]
    exact ⟨_, rfl⟩

/-- Only a plain integer is read with an eye to what becomes of one that is too large. -/
theorem readDecimal_of_not_plain {mantissa : Mantissa} {exponent : Option (Marker × Exponent)} {suffix : Option Kind}
    (other : ¬(mantissa.fraction = none ∧ exponent = none ∧ suffix = none)) (negative : Bool)
    (one two : Oversized) :
    readDecimal one negative mantissa exponent suffix = readDecimal two negative mantissa exponent suffix := by
  unfold readDecimal
  cases suffix with
  | some kind => rfl
  | none =>
    have broken : ¬isIntegral mantissa exponent := by simpa [isIntegral] using other
    simp only [if_neg broken]

/-- Settings that do not refuse a literal read it as the standard ones do. -/
theorem parse_of_not_refused (kept : ¬settings.Refuses text) : parse settings text = parse .standard text := by
  cases found : scan text.toList with
  | error reason => rw [parse, parse, read, read, readChars, readChars, found]
  | ok parts =>
    have enabled : parts.suffix ≠ none → settings.typeSuffixes := by
      intro some
      by_contra disabled
      exact kept (.suffix (mem_suffixed_iff.mpr ⟨parts, found, some⟩) disabled)
    have standard : parts.suffix ≠ none → Settings.standard.typeSuffixes := fun _ => rfl
    rw [parse_of_scan found, parse_of_scan found, ofParts, ofParts, if_neg (not_disabled enabled),
      if_neg (not_disabled standard)]
    congr 2
    obtain ⟨negative, body, suffix⟩ := parts
    cases body with
    | hex digits =>
      have allowed : settings.hex := by
        by_contra disabled
        exact kept (.hex (mem_hexadecimal_iff.mpr ⟨_, digits, found, rfl⟩) disabled)
      dsimp only
      rw [if_pos allowed]
      rfl
    | decimal mantissa exponent =>
      by_cases plain : mantissa.fraction = none ∧ exponent = none ∧ suffix = none
      · obtain ⟨digits, fraction⟩ := mantissa
        obtain ⟨rfl, rfl, rfl⟩ := plain
        obtain ⟨integer, rfl, rfl, rfl⟩ := exists_plainInteger found
        have formed := integer.mantissa_wellFormed
        change readPlain settings.oversizedInteger _ _ = readPlain .promote _ _
        by_cases fits : Fits 32 integer.value
        · rw [readPlain_narrow formed integer.value_eq fits, readPlain_narrow formed integer.value_eq fits]
        · cases policy : settings.oversizedInteger with
          | promote => rfl
          | reject => exact absurd (.oversized integer rfl fits policy) kept
      · exact readDecimal_of_not_plain plain negative _ _

/-- All that one choice of settings allows another allows too. -/
structure Settings.Permits (wider stricter : Settings) : Prop where
  suffixes : stricter.typeSuffixes → wider.typeSuffixes
  hex : stricter.hex → wider.hex
  promotion : stricter.oversizedInteger = .promote → wider.oversizedInteger = .promote

private theorem Settings.Permits.refuses {wider stricter : Settings} (permits : wider.Permits stricter)
    (refused : wider.Refuses text) : stricter.Refuses text := by
  cases refused with
  | suffix suffixed disabled => exact .suffix suffixed (mt permits.suffixes disabled)
  | hex hexadecimal disabled => exact .hex hexadecimal (mt permits.hex disabled)
  | oversized integer plain wide rejected =>
    refine .oversized integer plain wide ?_
    cases policy : stricter.oversizedInteger with
    | reject => rfl
    | promote => rw [permits.promotion policy] at rejected; cases rejected

/-- What stricter settings accept has the same value under wider ones. Of the literals of the wider settings, the
stricter ones lack those that they refuse. -/
theorem parse_permits {wider stricter : Settings} (permits : wider.Permits stricter) (text : String) :
    (∀ number, parse stricter text = .ok number → parse wider text = .ok number) ∧
    ((∃ number, parse wider text = .ok number) ∧ (∃ error, parse stricter text = .error error) ↔
      (∃ number, parse wider text = .ok number) ∧ stricter.Refuses text) := by
  have same (kept : ¬stricter.Refuses text) : parse stricter text = parse wider text := by
    rw [parse_of_not_refused kept, parse_of_not_refused fun refused => kept (permits.refuses refused)]
  refine ⟨fun number accepted => ?_, and_congr_right ?_⟩
  · have kept : ¬stricter.Refuses text := fun refused => by
      obtain ⟨error, failed⟩ := parse_of_refused refused
      rw [accepted] at failed
      cases failed
    rw [← same kept, accepted]
  · rintro ⟨number, accepted⟩
    refine ⟨fun ⟨error, failed⟩ => ?_, parse_of_refused⟩
    by_contra kept
    rw [same kept, accepted] at failed
    cases failed

/-- A plain integer that fits, and one that is a literal of the standard settings only. -/
theorem parse_permits_oversized :
    Settings.Permits .standard ⟨false, false, .reject⟩ ∧
    parse ⟨false, false, .reject⟩ "-07" = .ok (.int32 (-7)) ∧ parse .standard "-07" = .ok (.int32 (-7)) ∧
    (∃ number, parse .standard "3000000000" = .ok number) ∧
    ∃ error, parse ⟨false, false, .reject⟩ "3000000000" = .error error := by
  have permits : Settings.Permits .standard ⟨false, false, .reject⟩ := ⟨nofun, nofun, nofun⟩
  have narrow : parse ⟨false, false, .reject⟩ "-07" = .ok (.int32 (-7)) := by decide
  have long : parse .standard "3000000000" = .ok (.int64 3000000000) := by decide
  let large : PlainInteger := ⟨⟨none, "3000000000".toList⟩, List.all_eq_true.mp (by decide), by decide⟩
  have refused : Settings.Refuses ⟨false, false, .reject⟩ "3000000000" := .oversized large rfl (by decide) rfl
  refine ⟨permits, narrow, (parse_permits permits "-07").1 _ narrow, ?_⟩
  exact (parse_permits permits "3000000000").2.mpr ⟨⟨_, long⟩, refused⟩

end ScriptNumbers.Literal
