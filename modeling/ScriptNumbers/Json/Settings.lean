import ScriptNumbers.Json.Skip

/-! Reading settings from JSON: an object in which each setting may stand once, in any order and among any
other members, or an array of the first settings in their order. A setting that is missing keeps its
default. -/

namespace ScriptNumbers.Json

open Literal (Settings Oversized)

/-- The settings read so far. -/
structure Slots where
  typeSuffixes : Option Bool := none
  hex : Option Bool := none
  oversizedInteger : Option Oversized := none
deriving DecidableEq

def Slots.settings (slots : Slots) : Settings where
  typeSuffixes := slots.typeSuffixes.getD Settings.standard.typeSuffixes
  hex := slots.hex.getD Settings.standard.hex
  oversizedInteger := slots.oversizedInteger.getD Settings.standard.oversizedInteger

def oversizedInteger : Reader Oversized :=
  Variants.read {
    named? := Oversized.ofName?
    names := Oversized.all.map Oversized.name
    bare := .ok
    payload := fun variant tokens => (unit tokens).map fun (_, rest) => (variant, rest) }

/-- The value of a member, unless the slot for it is taken. A taken slot is a fault of the key, before the
value is looked at. -/
def fill {α : Type} (name : String) (slot : Option α) (reader : Reader α) : Reader α := fun tokens =>
  if slot.isSome then .error (.data (.duplicateField name))
  else do
    let (_, rest) ← punctuation .colon tokens
    reader rest

/-- Reads the member behind its key. -/
def member (slots : Slots) (name : String) : Reader Slots := fun tokens =>
  if name = "typeSuffixes" then
    (fill name slots.typeSuffixes boolean tokens).map fun (value, rest) =>
      (⟨some value, slots.hex, slots.oversizedInteger⟩, rest)
  else if name = "hex" then
    (fill name slots.hex boolean tokens).map fun (value, rest) =>
      (⟨slots.typeSuffixes, some value, slots.oversizedInteger⟩, rest)
  else if name = "oversizedInteger" then
    (fill name slots.oversizedInteger oversizedInteger tokens).map fun (value, rest) =>
      (⟨slots.typeSuffixes, slots.hex, some value⟩, rest)
  else (fill name (none : Option Unit) skip tokens).map fun (_, rest) => (slots, rest)

/-- The members from a key on, at most as many as the bound says. -/
def membersWithin : Nat → Slots → Reader Slots
  | 0, _, _ => .error .truncated
  | bound + 1, slots, tokens => do
    let (name, rest) ← key tokens
    let (slots, rest) ← member slots name rest
    match rest with
    | [] => .error .truncated
    | .comma :: rest => membersWithin bound slots rest
    | .closeObject :: rest => .ok (slots, rest)
    | _ => .error .malformed

/-- The members behind an opening brace. Each has a token of its own, so the number of tokens bounds them. -/
def members : Reader Slots
  | .closeObject :: rest => .ok ({}, rest)
  | tokens => membersWithin tokens.length {} tokens

/-- The next item of an array, or none if the array ends here; its end is left alone. The first item has no
comma before it. -/
def item {α : Type} (first : Bool) (reader : Reader α) : Reader (Option α)
  | [] => .error .truncated
  | .closeArray :: rest => .ok (none, .closeArray :: rest)
  | token :: rest =>
    if first then (reader (token :: rest)).map fun (value, rest) => (some value, rest)
    else if token = .comma then
      match rest with
      | .closeArray :: _ => .error .malformed
      | _ => (reader rest).map fun (value, rest) => (some value, rest)
    else .error .malformed

/-- The items behind an opening bracket. -/
def items : Reader Slots := fun tokens => do
  let (typeSuffixes, rest) ← item true boolean tokens
  let (hex, rest) ← item false boolean rest
  let (oversizedInteger, rest) ← item false oversizedInteger rest
  let (_, rest) ← punctuation .closeArray rest
  return (⟨typeSuffixes, hex, oversizedInteger⟩, rest)

def slots : Reader Slots
  | [] => .error .truncated
  | .openObject :: rest => members rest
  | .openArray :: rest => items rest
  | token :: _ => .error (mismatch token .settings)

/-- Reads settings. -/
def readSettings (text : String) : Except Fault Settings := (document slots text).map Slots.settings

end ScriptNumbers.Json
