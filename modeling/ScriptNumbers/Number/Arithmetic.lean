import ScriptNumbers.Binary.Power
import ScriptNumbers.Error
import ScriptNumbers.Number.Basic

/-! Arithmetic on numbers. Both operands are first promoted to the wider of their kinds. Integers wrap;
floats are computed as doubles and rounded to single precision at the end. -/

namespace ScriptNumbers

/-- Two operands in the representation in which they are combined. -/
inductive Promoted where
  | int32 (left right : Int32)
  | int64 (left right : Int64)
  | float (left right : Double)
  | double (left right : Double)
deriving DecidableEq

namespace Promoted

def of (left right : Number) : Promoted :=
  match max left.kind right.kind with
  | .int32 => int32 left.toInt32 right.toInt32
  | .int64 => int64 left.toInt64 right.toInt64
  | .float => float left.toDouble right.toDouble
  | .double => double left.toDouble right.toDouble

def combine (onInt32 : Int32 → Int32 → Int32) (onInt64 : Int64 → Int64 → Int64)
    (onDouble : Double → Double → Double) : Promoted → Number
  | int32 left right => .int32 (onInt32 left right)
  | int64 left right => .int64 (onInt64 left right)
  | float left right => .float (onDouble left right).convert
  | double left right => .double (onDouble left right)

/-- Whether `/` and `MOD` have no result for these operands: floating ones always have one. -/
def hasZeroDivisor : Promoted → Bool
  | int32 _ right => right == 0
  | int64 _ right => right == 0
  | float .. | double .. => false

/-- Whether the right operand is a zero as it is combined. -/
def isRightZero : Promoted → Bool
  | int32 _ right => right == 0
  | int64 _ right => right == 0
  | float _ right | double _ right => right.isZero

end Promoted

namespace Number

def negate : Number → Number
  | int32 value => int32 (-value)
  | int64 value => int64 (-value)
  | float value => float value.negate
  | double value => double value.negate

def add (left right : Number) : Number :=
  (Promoted.of left right).combine (· + ·) (· + ·) Binary.add

def subtract (left right : Number) : Number :=
  (Promoted.of left right).combine (· - ·) (· - ·) Binary.subtract

def multiply (left right : Number) : Number :=
  (Promoted.of left right).combine (· * ·) (· * ·) Binary.multiply

/-- `/`: integers are divided truncating. -/
def divide (left right : Number) : Except NumericError Number :=
  let operands := Promoted.of left right
  if operands.hasZeroDivisor then .error (.divisionByZero .divide left.kind right.kind)
  else .ok (operands.combine (· / ·) (· / ·) Binary.divide)

/-- `MOD`: the remainder of the truncating division, with the sign of the dividend. -/
def modulo (left right : Number) : Except NumericError Number :=
  let operands := Promoted.of left right
  if operands.hasZeroDivisor then .error (.divisionByZero .modulo left.kind right.kind)
  else .ok (operands.combine (· % ·) (· % ·) Binary.remainder)

end Number

/-- A truncated quotient before it becomes a number of the kind that the divisor asks for. -/
inductive IntegerQuotient where
  | exact (value : Int64)
  | truncated (value : Double)
deriving DecidableEq

def Promoted.quotient : Promoted → IntegerQuotient
  | int32 left right => .exact (left / right).toInt64
  | int64 left right => .exact (left / right)
  | float left right | double left right => .truncated (left.divide right).truncate

/-- The quotient as an integer of the given kind, and as `int32` for every kind but `int64`. An exact quotient wraps, a
floating one saturates. -/
def IntegerQuotient.into (kind : Kind) : IntegerQuotient → Number
  | exact value => if kind = .int64 then .int64 value else .int32 value.toInt32
  | truncated value =>
    if kind = .int64 then .int64 (.ofInt (value.truncateInto Int64.minValue.toInt Int64.maxValue.toInt))
    else .int32 (.ofInt (value.truncateInto Int32.minValue.toInt Int32.maxValue.toInt))

namespace Number

/-- `\`: its kind is that of the divisor, not the wider one, and every zero divisor is an error. -/
def intDivide (left right : Number) : Except NumericError Number :=
  let operands := Promoted.of left right
  if operands.isRightZero then .error (.divisionByZero .intDivide left.kind right.kind)
  else .ok (operands.quotient.into right.kind)

/-- `^`: computed on doubles, and a float unless one side is a double. -/
def power (base exponent : Number) : Number :=
  let value := base.toDouble.power exponent.toDouble
  if base.kind = .double ∨ exponent.kind = .double then double value else float value.convert

end Number

end ScriptNumbers
