/-! The four kinds of numbers and the order by which mixed operands are promoted: the wider kind
wins, and every floating kind is wider than every integer kind. -/

namespace ScriptNumbers

inductive Kind where
  | int32
  | int64
  | float
  | double
deriving DecidableEq, Repr, Inhabited

namespace Kind

/-- Ascending in promotion order. -/
def all : List Kind := [int32, int64, float, double]

/-- Place in the promotion order. -/
def rank : Kind → Nat
  | int32 => 0
  | int64 => 1
  | float => 2
  | double => 3

protected def compare (left right : Kind) : Ordering := Ord.compare left.rank right.rank

instance : Ord Kind := ⟨Kind.compare⟩

instance : LE Kind := ⟨fun left right => left.rank ≤ right.rank⟩

instance : LT Kind := ⟨fun left right => left.rank < right.rank⟩

instance (left right : Kind) : Decidable (left ≤ right) := inferInstanceAs (Decidable (left.rank ≤ right.rank))

instance (left right : Kind) : Decidable (left < right) := inferInstanceAs (Decidable (left.rank < right.rank))

instance : Max Kind := maxOfLe

/-- Name of the type as a program sees it. -/
def typeName : Kind → String
  | int32 => "Integer"
  | int64 => "LongInteger"
  | float => "Float"
  | double => "Double"

/-- Name that marks a number of this kind in its JSON form. -/
def tag : Kind → String
  | int32 => "Int32"
  | int64 => "Int64"
  | float => "Float"
  | double => "Double"

def ofTag? (name : String) : Option Kind := all.find? (·.tag == name)

def isInteger : Kind → Bool
  | int32 | int64 => true
  | float | double => false

def isFloating (kind : Kind) : Bool := !kind.isInteger

theorem ofTag?_tag (kind : Kind) : ofTag? kind.tag = some kind := by cases kind <;> decide

theorem max_comm (left right : Kind) : max left right = max right left := by
  cases left <;> cases right <;> rfl

end Kind

end ScriptNumbers
