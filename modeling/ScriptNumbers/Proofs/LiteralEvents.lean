import ScriptNumbers.Literal.Event
import ScriptNumbers.Proofs.LiteralSettings

/-! What an observer hears of a literal. Reading is run once more with a log that survives failures, and each event is
reported at the place that it is about. Since nothing can fail behind a promotion, a failure leaves the log empty, and
the log is the one that is told afterwards from the result. -/

namespace ScriptNumbers.Literal

open Numeral

/-- Events reported so far, and what came of reading. -/
structure Run (α : Type) where
  log : List Event
  outcome : Except Cause α

namespace Run

variable {α β : Type}

protected def pure (value : α) : Run α := ⟨[], .ok value⟩

/-- What was reported stays reported, even if the next step fails. -/
protected def bind (run : Run α) (next : α → Run β) : Run β :=
  match run.outcome with
  | .ok value => ⟨run.log ++ (next value).log, (next value).outcome⟩
  | .error cause => ⟨run.log, .error cause⟩

instance : Monad Run where
  pure := Run.pure
  bind := Run.bind

/-- A step that reports nothing. -/
def silent (outcome : Except Cause α) : Run α := ⟨[], outcome⟩

def fail (cause : Cause) : Run α := silent (.error cause)

def report (event : Event) : Run Unit := ⟨[event], .ok ()⟩

@[simp] theorem silent_bind (outcome : Except Cause α) (next : α → Run β) :
    silent outcome >>= next = match outcome with
      | .ok value => next value
      | .error cause => fail cause := by
  cases outcome <;> rfl

end Run

open Run

/-- A plain integer. The promotion is reported where it has succeeded, before the number is. -/
def observePlain (text : String) (oversized : Oversized) (negative : Bool) (mantissa : Mantissa) : Run Number :=
  match readNumeral .int32 negative mantissa none, oversized with
  | .ok number, _ => pure number
  | .error cause, .reject => fail cause
  | .error _, .promote => do
    let number ← silent (readWide negative mantissa)
    report (.promoted text number.kind)
    return number

def observeParts (settings : Settings) (text : String) (parts : Parts) : Run Number :=
  match parts with
  | ⟨negative, .decimal ⟨digits, none⟩ none, none⟩ =>
    observePlain text settings.oversizedInteger negative ⟨digits, none⟩
  | parts => silent ((ofParts settings parts).map Reading.number)

/-- Reads a literal and reports the number at the end. -/
def observe (settings : Settings) (text : String) : Run Number := do
  let parts ← silent ((scan text.toList).mapError fun reason => ⟨none, reason⟩)
  let number ← observeParts settings text parts
  report (.materialized text number)
  return number

/-- The run of a reading whose events are told from its result. -/
def Run.ofReading (text : String) (outcome : Except Cause Reading) : Run Number :=
  match outcome with
  | .ok reading => ⟨if reading.promoted then [.promoted text reading.number.kind] else [], .ok reading.number⟩
  | .error cause => fail cause

private theorem observePlain_eq (text : String) (oversized : Oversized) (negative : Bool) (mantissa : Mantissa) :
    observePlain text oversized negative mantissa = .ofReading text (readPlain oversized negative mantissa) := by
  unfold observePlain readPlain
  cases readNumeral .int32 negative mantissa none with
  | ok number => rfl
  | error cause =>
    cases oversized with
    | reject => rfl
    | promote => cases readWide negative mantissa <;> rfl

private theorem not_promoted_of_map {outcome : Except Cause Number} {reading : Reading}
    (read : outcome.map (⟨·, false⟩) = .ok reading) : reading.promoted = false := by
  cases outcome with
  | error cause => cases read
  | ok number =>
    cases read
    rfl

/-- Only a plain integer is ever promoted. -/
theorem not_promoted_of_not_plain {settings : Settings} {parts : Parts} {reading : Reading}
    (read : ofParts settings parts = .ok reading)
    (other : ∀ negative digits, parts ≠ ⟨negative, .decimal ⟨digits, none⟩ none, none⟩) : reading.promoted = false := by
  obtain ⟨negative, body, suffix⟩ := parts
  unfold ofParts at read
  dsimp only at read
  split at read
  · cases read
  cases body with
  | hex digits =>
    dsimp only at read
    split at read
    · exact not_promoted_of_map read
    · cases read
  | decimal mantissa exponent =>
    dsimp only at read
    unfold readDecimal at read
    cases suffix with
    | some kind => exact not_promoted_of_map read
    | none =>
      have fractional : ¬isIntegral mantissa exponent := by
        intro integral
        obtain ⟨whole, fraction⟩ := mantissa
        obtain ⟨rfl, rfl⟩ : fraction = none ∧ exponent = none := by simpa [isIntegral] using integral
        exact other negative whole rfl
      dsimp only at read
      rw [if_neg fractional] at read
      exact not_promoted_of_map read

private theorem observeParts_eq (settings : Settings) (text : String) (parts : Parts) :
    observeParts settings text parts = .ofReading text (ofParts settings parts) := by
  unfold observeParts
  split
  next negative digits => exact observePlain_eq text settings.oversizedInteger negative ⟨digits, none⟩
  next other =>
    cases read : ofParts settings parts with
    | error cause => rfl
    | ok reading =>
      have plain : reading.promoted = false :=
        not_promoted_of_not_plain read fun negative digits same => other negative digits same
      rw [Run.ofReading, plain]
      rfl

private theorem observe_eq (settings : Settings) (text : String) :
    (observe settings text).log = events settings text ∧
      ((observe settings text).outcome.mapError fun cause => ⟨cause.kind, text, cause.reason⟩) = parse settings text := by
  unfold observe events parse read readChars
  cases scan text.toList with
  | error rest => exact ⟨rfl, rfl⟩
  | ok parts =>
    simp only [Except.mapError, silent_bind, observeParts_eq]
    cases ofParts settings parts <;> exact ⟨rfl, rfl⟩

/-- A plain integer that the narrower integer kind does not hold. -/
def Outgrown (text : String) : Prop := ∃ integer : PlainInteger, integer.text = text ∧ ¬Fits 32 integer.value

private theorem outgrown_iff {text : String} {negative : Bool} {digits : List Char}
    (found : scan text.toList = .ok ⟨negative, .decimal ⟨digits, none⟩ none, none⟩) :
    Outgrown text ↔ ¬Fits 32 (withSign negative (Decimal.ofDigits digits)) := by
  constructor
  · rintro ⟨integer, rfl, wide⟩
    have same := integer.scan_toList
    rw [found] at same
    cases same
    rwa [integer.value_eq] at wide
  · intro wide
    obtain ⟨integer, text, rfl, rfl⟩ := exists_plainInteger found
    rw [← integer.value_eq] at wide
    exact ⟨integer, text, wide⟩

private theorem not_outgrown {text : String} {parts : Parts} (found : scan text.toList = .ok parts)
    (other : ∀ negative digits, parts ≠ ⟨negative, .decimal ⟨digits, none⟩ none, none⟩) : ¬Outgrown text := by
  rintro ⟨integer, rfl, -⟩
  have same := integer.scan_toList
  rw [found] at same
  exact other _ _ (Except.ok.inj same)

private theorem PlainInteger.readPlain_promoted (integer : PlainInteger) {oversized : Oversized} {reading : Reading}
    (read : readPlain oversized integer.isNegative ⟨integer.numeral.digits, none⟩ = .ok reading) :
    (reading.promoted ↔ ¬Fits 32 integer.value) ∧
      (reading.promoted → reading.number.kind = .int64 ∨ reading.number.kind = .double) := by
  have formed := integer.mantissa_wellFormed
  have meaning := integer.value_eq
  by_cases narrow : Fits 32 integer.value
  · rw [readPlain_narrow formed meaning narrow] at read
    cases read
    exact ⟨iff_of_false Bool.false_ne_true (not_not_intro narrow), nofun⟩
  cases oversized with
  | reject =>
    rw [readPlain_reject formed meaning narrow] at read
    cases read
  | promote =>
    by_cases long : Fits 64 integer.value
    · rw [readPlain_long formed meaning narrow long] at read
      cases read
      exact ⟨iff_of_true rfl narrow, fun _ => Or.inl rfl⟩
    · rw [readPlain_double formed meaning long] at read
      cases read
      exact ⟨iff_of_true rfl narrow, fun _ => Or.inr rfl⟩

private theorem promoted_iff {settings : Settings} {text : String} {parts : Parts} {reading : Reading}
    (found : scan text.toList = .ok parts) (read : ofParts settings parts = .ok reading) :
    (reading.promoted ↔ Outgrown text) ∧
      (reading.promoted → reading.number.kind = .int64 ∨ reading.number.kind = .double) := by
  by_cases plain : ∃ negative digits, parts = ⟨negative, .decimal ⟨digits, none⟩ none, none⟩
  · obtain ⟨negative, digits, rfl⟩ := plain
    rw [outgrown_iff found]
    obtain ⟨integer, rfl, rfl, rfl⟩ := exists_plainInteger found
    rw [← integer.value_eq]
    exact integer.readPlain_promoted read
  · have other (negative : Bool) (digits : List Char) : parts ≠ ⟨negative, .decimal ⟨digits, none⟩ none, none⟩ :=
      fun same => plain ⟨negative, digits, same⟩
    rw [not_promoted_of_not_plain read other]
    exact ⟨iff_of_false Bool.false_ne_true (not_outgrown found other), nofun⟩

private theorem of_read {settings : Settings} {text : String} {reading : Reading}
    (accepted : read settings text = .ok reading) :
    ∃ parts, scan text.toList = .ok parts ∧ ofParts settings parts = .ok reading := by
  unfold read readChars at accepted
  cases found : scan text.toList with
  | error rest =>
    rw [found] at accepted
    cases accepted
  | ok parts =>
    rw [found] at accepted
    dsimp only at accepted
    cases outcome : ofParts settings parts with
    | error cause =>
      rw [outcome] at accepted
      cases accepted
    | ok reading =>
      rw [outcome] at accepted
      cases accepted
      exact ⟨parts, rfl, outcome⟩

/-- The event that reports a number. -/
structure Event.Materializes (event : Event) (text : String) (number : Number) : Prop where
  level : event.level = "TRACE"
  literal : event.literal = text
  kind : event.kind = number.kind
  value : event.value? = some number.text

/-- The event that reports a promotion. -/
structure Event.Promotes (event : Event) (text : String) (kind : Kind) : Prop where
  level : event.level = "DEBUG"
  literal : event.literal = text
  kind : event.kind = kind

private theorem events_of_promoted {settings : Settings} {text : String} {reading : Reading}
    (accepted : read settings text = .ok reading) (promoted : reading.promoted) :
    ∃ debug trace, events settings text = [debug, trace] ∧ debug.Promotes text reading.number.kind ∧
      trace.Materializes text reading.number := by
  refine ⟨.promoted text reading.number.kind, .materialized text reading.number, ?_, ⟨rfl, rfl, rfl⟩,
    ⟨rfl, rfl, rfl, rfl⟩⟩
  rw [events, accepted]
  dsimp only
  rw [Reading.events, if_pos promoted]
  rfl

private theorem events_of_not_promoted {settings : Settings} {text : String} {reading : Reading}
    (accepted : read settings text = .ok reading) (plain : ¬reading.promoted) :
    ∃ trace, events settings text = [trace] ∧ trace.Materializes text reading.number := by
  refine ⟨.materialized text reading.number, ?_, ⟨rfl, rfl, rfl, rfl⟩⟩
  rw [events, accepted]
  dsimp only
  rw [Reading.events, if_neg plain]
  rfl

/-- A literal that is refused is reported by no event, wherever reading stops. One that is accepted is reported at the
end, and before that only a promotion is, which takes place exactly for the plain integers that the narrower integer
kind does not hold. -/
theorem events_literal (settings : Settings) (text : String) :
    (observe settings text).log = events settings text ∧
    ((observe settings text).outcome.mapError fun cause => ⟨cause.kind, text, cause.reason⟩) = parse settings text ∧
    (∀ error, parse settings text = .error error → events settings text = []) ∧
    ∀ number, parse settings text = .ok number →
      (Outgrown text → (number.kind = .int64 ∨ number.kind = .double) ∧
        ∃ debug trace, events settings text = [debug, trace] ∧ debug.Promotes text number.kind ∧
          trace.Materializes text number) ∧
      (¬Outgrown text → ∃ trace, events settings text = [trace] ∧ trace.Materializes text number) := by
  refine ⟨(observe_eq settings text).1, (observe_eq settings text).2, ?_, ?_⟩
  · intro error refused
    unfold events
    cases outcome : read settings text with
    | error => rfl
    | ok reading =>
      rw [parse, outcome] at refused
      cases refused
  · intro number accepted
    cases outcome : read settings text with
    | error error =>
      rw [parse, outcome] at accepted
      cases accepted
    | ok reading =>
      rw [parse, outcome] at accepted
      cases accepted
      obtain ⟨parts, found, made⟩ := of_read outcome
      obtain ⟨promoted, wider⟩ := promoted_iff found made
      constructor
      · intro outgrown
        exact ⟨wider (promoted.mpr outgrown), events_of_promoted outcome (promoted.mpr outgrown)⟩
      · intro fits
        exact events_of_not_promoted outcome fun early => fits (promoted.mp early)

/-- One below the least integer, promoted and refused, and a literal of the same value that has a suffix. -/
theorem events_literal_belowLeast :
    (Outgrown "-2147483649" ∧ ¬Outgrown "-2147483649&") ∧
    (∃ debug trace, events .standard "-2147483649" = [debug, trace] ∧ debug.Promotes "-2147483649" .int64 ∧
      trace.Materializes "-2147483649" (.int64 (-2147483649))) ∧
    (∃ trace, events .standard "-2147483649&" = [trace] ∧
      trace.Materializes "-2147483649&" (.int64 (-2147483649))) ∧
    events ⟨true, true, .reject⟩ "-2147483649" = [] := by
  have plain : scan "-2147483649".toList = .ok ⟨true, .decimal ⟨"2147483649".toList, none⟩ none, none⟩ := by decide
  have typed : scan "-2147483649&".toList = .ok ⟨true, .decimal ⟨"2147483649".toList, none⟩ none, some .int64⟩ := by
    decide
  have outgrown : Outgrown "-2147483649" := (outgrown_iff plain).mpr (by decide)
  have fits : ¬Outgrown "-2147483649&" := not_outgrown typed nofun
  refine ⟨⟨outgrown, fits⟩, ?_, ?_, ?_⟩
  · have read : parse .standard "-2147483649" = .ok (.int64 (-2147483649)) := by decide
    exact (((events_literal .standard "-2147483649").2.2.2 _ read).1 outgrown).2
  · have read : parse .standard "-2147483649&" = .ok (.int64 (-2147483649)) := by decide
    exact ((events_literal .standard "-2147483649&").2.2.2 _ read).2 fits
  · have refused : parse ⟨true, true, .reject⟩ "-2147483649" = .error ⟨some .int32, "-2147483649", .tooSmall⟩ := by
      decide
    exact (events_literal ⟨true, true, .reject⟩ "-2147483649").2.2.1 _ refused

end ScriptNumbers.Literal
