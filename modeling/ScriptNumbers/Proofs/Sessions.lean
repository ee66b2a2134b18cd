import Mathlib.Data.List.Nodup
import ScriptNumbers.Session

/-! What a step of a session may do, and what holds of every run. A step keeps the session or sets the settings or one
register, so a failing step changes nothing, a register is changed only by steps that store to it, and each name stays
the name of one register. -/

namespace ScriptNumbers

/-- The register that a step stores to. -/
def Step.destination? : Step → Option String
  | settings _ | test .. => none
  | foreign destination _ | number destination _ | literal destination _ | numeral destination .. |
    apply destination .. | negate destination _ | cast destination .. | reread destination _ => some destination

/-- A failure is told by its answer. -/
def Answer.isFault : Answer → Bool
  | settings _ | value _ | truth _ => false
  | jsonFault _ | parseError _ | numericError _ | unbound => true

namespace Session

/-- All that a step may do, with the answer that goes with it. -/
inductive Outcome (session : Session) (step : Step) : Session × Answer → Prop where
  | failed {answer} (fault : answer.isFault) : Outcome session step (session, answer)
  | told (truth : Bool) : Outcome session step (session, .truth truth)
  | configured (settings : Literal.Settings) : Outcome session step ({ session with settings }, .settings settings)
  | stored {destination} (stores : step.destination? = some destination) (value : Operand) :
      Outcome session step (session.set destination value, .value value)

private theorem outcome_storeParsed {session : Session} {step : Step} {destination : String}
    (stores : step.destination? = some destination) (result : Except ParseError Number) :
    Outcome session step (session.storeParsed destination result) := by
  cases result with
  | ok number => exact .stored stores (.number number)
  | error fault => exact .failed rfl

private theorem outcome_withNumber {session : Session} {step : Step} (name : String)
    {use : Number → Session × Answer} (each : ∀ number, Outcome session step (use number)) :
    Outcome session step (session.withNumber name use) := by
  unfold withNumber
  split
  next number _ => exact each number
  next => exact .failed rfl

private theorem run_outcome (session : Session) (step : Step) : Outcome session step (session.run step) := by
  cases step with
  | settings json =>
    simp only [run]
    split
    next settings _ => exact .configured settings
    next => exact .failed rfl
  | foreign destination typeName => exact .stored rfl _
  | number destination value => exact .stored rfl _
  | literal destination text => exact outcome_storeParsed rfl _
  | numeral destination kind text => exact outcome_storeParsed rfl _
  | apply destination left operator right =>
    apply outcome_withNumber
    intro value
    split
    next result _ => exact .stored rfl (.number result)
    next => exact .failed rfl
  | negate destination source =>
    apply outcome_withNumber
    intro value
    exact .stored rfl _
  | cast destination kind source =>
    apply outcome_withNumber
    intro value
    exact .stored rfl _
  | reread destination source =>
    apply outcome_withNumber
    intro value
    exact outcome_storeParsed rfl _
  | test left operator right =>
    apply outcome_withNumber
    intro value
    exact .told _

private theorem get?_set (session : Session) (name : String) (value : Operand) :
    (session.set name value).get? name = some value := by
  simp [get?, set]

private theorem get?_set_of_ne (session : Session) {name other : String} (different : other ≠ name) (value : Operand) :
    (session.set name value).get? other = session.get? other := by
  have front : (other == name) = false := beq_false_of_ne different
  simp only [get?, set, List.lookup_cons, front]
  induction session.registers with
  | nil => rfl
  | cons register rest ih =>
    by_cases replaced : register.1 = name
    · have behind : (other == register.1) = false := by rw [replaced, front]
      rw [List.filter_cons_of_neg (by simp [replaced]), ih, List.lookup_cons, behind]
    · rw [List.filter_cons_of_pos (by simp [replaced]), List.lookup_cons, List.lookup_cons, ih]

/-- No name is that of two registers. -/
def Unique (session : Session) : Prop := (session.registers.map Prod.fst).Nodup

private theorem Unique.set {session : Session} (unique : session.Unique) (name : String) (value : Operand) :
    (session.set name value).Unique := by
  apply List.nodup_cons.mpr
  constructor
  · intro member
    obtain ⟨register, kept, same⟩ := List.mem_map.mp member
    have other := (List.mem_filter.mp kept).2
    rw [same] at other
    simp at other
  · exact (List.filter_sublist.map Prod.fst).nodup unique

section Step

variable (session : Session) (step : Step)

/-- A step that fails leaves the session as it was. -/
theorem run_of_isFault (fault : (session.run step).2.isFault) : (session.run step).1 = session := by
  have outcome := session.run_outcome step
  generalize session.run step = result at outcome fault ⊢
  cases outcome with
  | failed | told => rfl
  | configured | stored => cases fault

private theorem Unique.run (unique : session.Unique) : (session.run step).1.Unique := by
  have outcome := session.run_outcome step
  generalize session.run step = result at outcome ⊢
  cases outcome with
  | failed | told | configured => exact unique
  | stored stores value => exact unique.set _ value

/-- A step leaves alone all registers but the one that it stores to. -/
theorem get?_run {name : String} (other : step.destination? ≠ some name) :
    (session.run step).1.get? name = session.get? name := by
  have outcome := session.run_outcome step
  generalize session.run step = result at outcome ⊢
  cases outcome with
  | failed | told | configured => rfl
  | stored stores value =>
    apply get?_set_of_ne
    rintro rfl
    exact other stores

/-- What a step answers as a value is what its register holds afterwards. -/
theorem get?_run_of_value {value : Operand} (answered : (session.run step).2 = .value value) :
    ∃ destination, step.destination? = some destination ∧ (session.run step).1.get? destination = some value := by
  have outcome := session.run_outcome step
  generalize session.run step = result at outcome answered ⊢
  cases outcome with
  | failed fault =>
    dsimp only at answered
    rw [answered] at fault
    cases fault
  | told | configured => cases answered
  | stored stores stored =>
    cases answered
    exact ⟨_, stores, get?_set session _ _⟩

end Step

private theorem runAll_cons (session : Session) (step : Step) (steps : List Step) :
    session.runAll (step :: steps) =
      (((session.run step).1.runAll steps).1, (session.run step).2 :: ((session.run step).1.runAll steps).2) :=
  rfl

/-- There is one answer for each step. -/
theorem length_runAll (session : Session) (steps : List Step) : (session.runAll steps).2.length = steps.length := by
  induction steps generalizing session with
  | nil => rfl
  | cons step steps ih =>
    rw [runAll_cons, List.length_cons, List.length_cons, ih]

/-- Each name is that of one register at most, whatever steps are run. -/
theorem Unique.runAll {session : Session} (unique : session.Unique) (steps : List Step) :
    (session.runAll steps).1.Unique := by
  induction steps generalizing session with
  | nil => exact unique
  | cons step steps ih => exact ih (unique.run session step)

theorem unique_runAll (steps : List Step) : (({} : Session).runAll steps).1.Unique := by
  have initial : Unique {} := List.nodup_nil
  exact initial.runAll steps

/-- A register that no step stores to is what it was. -/
theorem get?_runAll (session : Session) {steps : List Step} {name : String}
    (other : ∀ step ∈ steps, step.destination? ≠ some name) :
    (session.runAll steps).1.get? name = session.get? name := by
  induction steps generalizing session with
  | nil => rfl
  | cons step steps ih =>
    rw [runAll_cons, ih _ fun later member => other later (List.mem_cons_of_mem step member)]
    exact session.get?_run step (other step List.mem_cons_self)

/-- The steps of a run that do not fail, in order. -/
def succeeding (session : Session) : List Step → List Step
  | [] => []
  | step :: steps =>
    let later := (session.run step).1.succeeding steps
    if (session.run step).2.isFault then later else step :: later

/-- A failing step could as well be left out: the others come to the same session, with the same answers. -/
theorem runAll_succeeding (session : Session) (steps : List Step) :
    session.runAll (session.succeeding steps) =
      ((session.runAll steps).1, (session.runAll steps).2.filter fun answer => !answer.isFault) := by
  induction steps generalizing session with
  | nil => rfl
  | cons step steps ih =>
    rw [succeeding, runAll_cons]
    by_cases fault : (session.run step).2.isFault
    · have kept := session.run_of_isFault step fault
      rw [if_pos fault, List.filter_cons_of_neg (by simp [fault]), ← ih, kept]
    · rw [if_neg fault, List.filter_cons_of_pos (by simp [fault]), runAll_cons, ih]

end Session

end ScriptNumbers
