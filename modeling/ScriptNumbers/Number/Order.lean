import ScriptNumbers.Number.Basic

/-! The order of numbers by value. Integers are compared exactly; as soon as one side is floating, both
are compared as doubles, which a long integer beyond `2 ^ 53` reaches only rounded. -/

namespace ScriptNumbers.Number

def compare (left right : Number) : Option Ordering :=
  match left.toInt?, right.toInt? with
  | some l, some r => some (Ord.compare l r)
  | _, _ => left.toDouble.compare right.toDouble

def lessThan (left right : Number) : Bool := left.compare right == some .lt

def greaterThan (left right : Number) : Bool := left.compare right == some .gt

def equalTo (left right : Number) : Bool := left.compare right == some .eq

end ScriptNumbers.Number
