/-! What literals a program may use. -/

namespace ScriptNumbers.Literal

/-- What becomes of a plain integer literal that does not fit into the narrower integer kind. -/
inductive Oversized where
  | promote
  | reject
deriving DecidableEq, Repr, Inhabited

namespace Oversized

def all : List Oversized := [promote, reject]

def name : Oversized → String
  | promote => "promote"
  | reject => "reject"

def ofName? (text : String) : Option Oversized := all.find? (·.name == text)

end Oversized

/-- By default all is allowed. -/
structure Settings where
  typeSuffixes : Bool := true
  hex : Bool := true
  oversizedInteger : Oversized := .promote
deriving DecidableEq, Repr, Inhabited

namespace Settings

def standard : Settings where

def isStandard (settings : Settings) : Bool := settings == standard

end Settings

end ScriptNumbers.Literal
