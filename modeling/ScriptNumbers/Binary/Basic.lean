import ScriptNumbers.Binary.Rounding

/-! Floating-point values of a format. A finite value is a sign and a rank, so both zeros are values;
all encodings of "not a number" are one value. -/

namespace ScriptNumbers

inductive Binary (format : Format) where
  | nan
  | infinity (negative : Bool)
  | finite (negative : Bool) (rank : Fin format.limit)
deriving DecidableEq, Repr

abbrev Single := Binary Format.single

abbrev Double := Binary Format.double

namespace Binary

variable {format : Format}

/-- The value of a sign and a rank; ranks from `limit` on are infinite. -/
def ofRank (negative : Bool) (rank : Nat) : Binary format :=
  if inside : rank < format.limit then .finite negative ⟨rank, inside⟩ else .infinity negative

def zero (negative : Bool) : Binary format := ofRank negative 0

instance : Inhabited (Binary format) := ⟨zero false⟩

/-- The value nearest to a rational, a tie going to the even rank. What rounds to zero keeps the
rational's sign; an exact zero takes the sign that the caller gives. -/
def round (negativeZero : Bool) (value : Rat) : Binary format :=
  ofRank (if value = 0 then negativeZero else decide (value < 0)) (format.rankOfRat value)

def ofInt (value : Int) : Binary format := round false value

def one : Binary format := ofInt 1

/-- Exact value of a sign and a rank. -/
def signedMagnitude (format : Format) (negative : Bool) (rank : Nat) : Rat :=
  if negative then -format.magnitude rank else format.magnitude rank

/-- Exact value, if finite. -/
def toRat? : Binary format → Option Rat
  | .finite negative rank => some (signedMagnitude format negative rank)
  | _ => none

def isNan : Binary format → Bool
  | .nan => true
  | _ => false

def isFinite : Binary format → Bool
  | .finite .. => true
  | _ => false

def isZero : Binary format → Bool
  | .finite _ rank => rank.val == 0
  | _ => false

/-- The sign bit; "not a number" has none. -/
def isNegative : Binary format → Bool
  | .nan => false
  | .infinity negative | .finite negative _ => negative

def negate : Binary format → Binary format
  | .nan => .nan
  | .infinity negative => .infinity !negative
  | .finite negative rank => .finite (!negative) rank

/-- Rank with the sign of the value. Both zeros have key 0, and the order of the keys is the order of
the values. -/
def key? : Binary format → Option Int
  | .nan => none
  | .infinity negative => some (if negative then -format.limit else format.limit)
  | .finite negative rank => some (if negative then -rank.val else rank.val)

/-- Order by value; "not a number" is unordered, with itself too. -/
def compare (left right : Binary format) : Option Ordering :=
  match left.key?, right.key? with
  | some l, some r => some (Ord.compare l r)
  | _, _ => none

/-- The same value in another format, rounded to nearest where it does not fit. -/
def convert {target : Format} : Binary format → Binary target
  | .nan => .nan
  | .infinity negative => .infinity negative
  | .finite negative rank => round negative (signedMagnitude format negative rank)

/-- Number of bits below the sign bit. -/
def magnitudeBits (format : Format) : Nat := format.exponentBits + format.fractionBits

/-- The encoding as a word; "not a number" is encoded as its quiet positive form. -/
def toBits : Binary format → Nat
  | .nan => format.limit + twoPow (format.fractionBits - 1)
  | .infinity negative => (if negative then twoPow (magnitudeBits format) else 0) + format.limit
  | .finite negative rank => (if negative then twoPow (magnitudeBits format) else 0) + rank.val

/-- The value that a word encodes. Bits above the sign bit are ignored. -/
def ofBits (word : Nat) : Binary format :=
  let rank := word % twoPow (magnitudeBits format)
  if format.limit < rank then .nan else ofRank (word.testBit (magnitudeBits format)) rank

end Binary

end ScriptNumbers
