/-! The binary operators of expressions, in the order in which they are listed to users, and their
spellings. -/

namespace ScriptNumbers

inductive ArithmeticOp where
  | add
  | subtract
  | multiply
  | divide
  | modulo
  | intDivide
  | power
deriving DecidableEq, Repr, Inhabited

namespace ArithmeticOp

def all : List ArithmeticOp := [add, subtract, multiply, divide, modulo, intDivide, power]

def spelling : ArithmeticOp → String
  | add => "+"
  | subtract => "-"
  | multiply => "*"
  | divide => "/"
  | modulo => "MOD"
  | intDivide => "\\"
  | power => "^"

def ofSpelling? (text : String) : Option ArithmeticOp := all.find? (·.spelling == text)

theorem ofSpelling?_spelling (operator : ArithmeticOp) : ofSpelling? operator.spelling = some operator := by
  cases operator <;> decide

end ArithmeticOp

inductive ComparisonOp where
  | less
  | lessEqual
  | greater
  | greaterEqual
  | equal
  | notEqual
deriving DecidableEq, Repr, Inhabited

namespace ComparisonOp

def all : List ComparisonOp := [less, lessEqual, greater, greaterEqual, equal, notEqual]

def spelling : ComparisonOp → String
  | less => "<"
  | lessEqual => "<="
  | greater => ">"
  | greaterEqual => ">="
  | equal => "="
  | notEqual => "<>"

def ofSpelling? (text : String) : Option ComparisonOp := all.find? (·.spelling == text)

theorem ofSpelling?_spelling (operator : ComparisonOp) : ofSpelling? operator.spelling = some operator := by
  cases operator <;> decide

/-- Whether two values that stand in the given order satisfy the comparison. Unordered values
(`none`) satisfy `<>` alone. -/
def holds (operator : ComparisonOp) (order : Option Ordering) : Bool :=
  match operator with
  | less => order == some .lt
  | lessEqual => order == some .lt || order == some .eq
  | greater => order == some .gt
  | greaterEqual => order == some .gt || order == some .eq
  | equal => order == some .eq
  | notEqual => order != some .eq

end ComparisonOp

end ScriptNumbers
