import ScriptNumbers.Binary.Arithmetic
import ScriptNumbers.Kind

/-! Numbers of the four kinds and the conversions between the kinds. Integers are two's complement words;
a conversion between integer kinds wraps, one from a floating kind to an integer kind truncates and
saturates, and one to a floating kind rounds once. -/

namespace ScriptNumbers

inductive Number where
  | int32 (value : Int32)
  | int64 (value : Int64)
  | float (value : Single)
  | double (value : Double)
deriving DecidableEq, Inhabited

namespace Number

def kind : Number → Kind
  | int32 _ => .int32
  | int64 _ => .int64
  | float _ => .float
  | double _ => .double

/-- Exact value of an integer number. -/
def toInt? : Number → Option Int
  | int32 value => some value.toInt
  | int64 value => some value.toInt
  | float _ | double _ => none

/-- Exact value, if finite. -/
def toRat? : Number → Option Rat
  | int32 value => some value.toInt
  | int64 value => some value.toInt
  | float value => value.toRat?
  | double value => value.toRat?

def isZero : Number → Bool
  | int32 value => value == 0
  | int64 value => value == 0
  | float value => value.isZero
  | double value => value.isZero

def isNan : Number → Bool
  | int32 _ | int64 _ => false
  | float value => value.isNan
  | double value => value.isNan

def isFinite : Number → Bool
  | int32 _ | int64 _ => true
  | float value => value.isFinite
  | double value => value.isFinite

def toInt32 : Number → Int32
  | int32 value => value
  | int64 value => value.toInt32
  | float value => .ofInt (value.truncateInto Int32.minValue.toInt Int32.maxValue.toInt)
  | double value => .ofInt (value.truncateInto Int32.minValue.toInt Int32.maxValue.toInt)

def toInt64 : Number → Int64
  | int32 value => value.toInt64
  | int64 value => value
  | float value => .ofInt (value.truncateInto Int64.minValue.toInt Int64.maxValue.toInt)
  | double value => .ofInt (value.truncateInto Int64.minValue.toInt Int64.maxValue.toInt)

def toSingle : Number → Single
  | int32 value => .ofInt value.toInt
  | int64 value => .ofInt value.toInt
  | float value => value
  | double value => value.convert

/-- Exact for every kind except a long integer beyond `2 ^ 53`. -/
def toDouble : Number → Double
  | int32 value => .ofInt value.toInt
  | int64 value => .ofInt value.toInt
  | float value => value.convert
  | double value => value

def cast (number : Number) : Kind → Number
  | .int32 => int32 number.toInt32
  | .int64 => int64 number.toInt64
  | .float => float number.toSingle
  | .double => double number.toDouble

/-- Zero of a kind, the positive one if there are two. -/
def zero : Kind → Number
  | .int32 => int32 0
  | .int64 => int64 0
  | .float => float (.zero false)
  | .double => double (.zero false)

@[simp] theorem kind_cast (number : Number) (kind : Kind) : (number.cast kind).kind = kind := by
  cases kind <;> rfl

@[simp] theorem cast_kind (number : Number) : number.cast number.kind = number := by
  cases number <;> rfl

end Number

end ScriptNumbers
