import ScriptNumbers.Binary.Basic

/-! Arithmetic on floating-point values: the exact rational result, rounded once. The cases apart are
those that have no rational result and the signs of zeros. -/

namespace ScriptNumbers.Binary

variable {format : Format}

/-- An exact zero sum is negative only if both summands are. -/
def add : Binary format → Binary format → Binary format
  | .nan, _ | _, .nan => .nan
  | .infinity l, .infinity r => if l = r then .infinity l else .nan
  | .infinity l, .finite .. => .infinity l
  | .finite .., .infinity r => .infinity r
  | .finite l x, .finite r y => round (l && r) (signedMagnitude format l x + signedMagnitude format r y)

def subtract (left right : Binary format) : Binary format := left.add right.negate

def multiply : Binary format → Binary format → Binary format
  | .nan, _ | _, .nan => .nan
  | .infinity l, .infinity r => .infinity (l ^^ r)
  | .infinity l, .finite r y => if y.val = 0 then .nan else .infinity (l ^^ r)
  | .finite l x, .infinity r => if x.val = 0 then .nan else .infinity (l ^^ r)
  | .finite l x, .finite r y => round (l ^^ r) (signedMagnitude format l x * signedMagnitude format r y)

def divide : Binary format → Binary format → Binary format
  | .nan, _ | _, .nan => .nan
  | .infinity _, .infinity _ => .nan
  | .infinity l, .finite r _ => .infinity (l ^^ r)
  | .finite l _, .infinity r => zero (l ^^ r)
  | .finite l x, .finite r y =>
    if y.val = 0 then if x.val = 0 then .nan else .infinity (l ^^ r)
    else round (l ^^ r) (signedMagnitude format l x / signedMagnitude format r y)

/-- Remainder of the division that truncates, with the sign of the dividend. It is a whole number of
units below the divisor, so it is a value of the format and rounding leaves it alone. -/
def remainder : Binary format → Binary format → Binary format
  | .nan, _ | _, .nan => .nan
  | .infinity _, _ => .nan
  | .finite l x, .infinity _ => .finite l x
  | .finite l x, .finite _ y =>
    if y.val = 0 then .nan else ofRank l (format.nearestRank (format.units x % format.units y) 1)

/-- The value without its fraction. The sign stays, also that of a zero. -/
def truncate : Binary format → Binary format
  | .finite negative rank =>
    ofRank negative (format.nearestRank (format.units rank / format.one * format.one) 1)
  | value => value

/-- The value without its fraction, as an integer between the bounds: what lies beyond a bound becomes
that bound, and "not a number" becomes zero. -/
def truncateInto (low high : Int) : Binary format → Int
  | .nan => 0
  | .infinity negative => if negative then low else high
  | .finite negative rank =>
    let whole : Int := format.units rank / format.one
    max low (min high (if negative then -whole else whole))

end ScriptNumbers.Binary
