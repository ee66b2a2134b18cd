import ScriptNumbers.Json.Settings
import ScriptNumbers.Literal.Event
import ScriptNumbers.Operand

/-! A session of an interpreter: named registers, the settings in force, and steps that compute with them.
A step that fails changes nothing. -/

namespace ScriptNumbers

open Literal (Settings)

/-- One step. Destinations and operands are names of registers. -/
inductive Step where
  | settings (json : String)
  | foreign (destination typeName : String)
  | number (destination : String) (value : Number)
  | literal (destination text : String)
  | numeral (destination : String) (kind : Kind) (text : String)
  | apply (destination left : String) (operator : ArithmeticOp) (right : String)
  | negate (destination source : String)
  | cast (destination : String) (kind : Kind) (source : String)
  | reread (destination source : String)
  | test (left : String) (operator : ComparisonOp) (right : String)
deriving DecidableEq

/-- What a step answers. -/
inductive Answer where
  | settings (settings : Settings)
  | value (operand : Operand)
  | truth (value : Bool)
  | jsonFault (fault : Json.Fault)
  | parseError (error : ParseError)
  | numericError (error : NumericError)
  | unbound
deriving DecidableEq

/-- The registers that are set, each name once, and the settings for literals. -/
structure Session where
  registers : List (String × Operand) := []
  settings : Settings := .standard
deriving DecidableEq

namespace Session

def get? (session : Session) (name : String) : Option Operand := session.registers.lookup name

/-- The number in a register, if it holds one. -/
def number? (session : Session) (name : String) : Option Number :=
  (session.get? name).bind Operand.number?

/-- A register on the right of an operator. One that is not set is no number. -/
def operand (session : Session) (name : String) : Operand :=
  (session.get? name).getD (.foreign "<uninitialized>" none)

def set (session : Session) (name : String) (value : Operand) : Session :=
  { session with registers := (name, value) :: session.registers.filter (·.1 != name) }

/-- Stores a number and answers it. -/
def store (session : Session) (destination : String) (value : Number) : Session × Answer :=
  (session.set destination (.number value), .value (.number value))

/-- Stores a number that was read, if it was. -/
def storeParsed (session : Session) (destination : String) : Except ParseError Number → Session × Answer
  | .ok value => session.store destination value
  | .error error => (session, .parseError error)

/-- Goes on with the number in a register, if it holds one. -/
def withNumber (session : Session) (name : String) (use : Number → Session × Answer) :
    Session × Answer :=
  match session.number? name with
  | some value => use value
  | none => (session, .unbound)

def run (session : Session) : Step → Session × Answer
  | .settings json => match Json.readSettings json with
    | .ok settings => ({ session with settings }, .settings settings)
    | .error fault => (session, .jsonFault fault)
  | .foreign destination typeName =>
    let value := Operand.foreign typeName none
    (session.set destination value, .value value)
  | .number destination value => session.store destination value
  | .literal destination text => session.storeParsed destination (Literal.parse session.settings text)
  | .numeral destination kind text => session.storeParsed destination (Number.ofText kind text)
  | .apply destination left operator right => session.withNumber left fun value =>
    match value.apply operator (session.operand right) with
    | .ok result => session.store destination result
    | .error error => (session, .numericError error)
  | .negate destination source => session.withNumber source fun value =>
    session.store destination value.negate
  | .cast destination kind source => session.withNumber source fun value =>
    session.store destination (value.cast kind)
  | .reread destination source => session.withNumber source fun value =>
    session.storeParsed destination (Number.ofText value.kind value.text)
  | .test left operator right => session.withNumber left fun value =>
    (session, .truth (value.test operator (session.operand right)))

/-- Runs steps in order; the answers are in the same order. -/
def runAll (session : Session) : List Step → Session × List Answer
  | [] => (session, [])
  | step :: steps =>
    let (session, answer) := session.run step
    let (session, answers) := session.runAll steps
    (session, answer :: answers)

end Session

end ScriptNumbers
