import ScriptNumbers.Json.Skip
import ScriptNumbers.Proofs.JsonTexts

/-! The tokens of JSON values, and what is read of a value in front of other tokens. A value of any content and any
depth can be skipped: whatever brackets are open around it, it leaves them open. -/

namespace ScriptNumbers.Json

/-- What tokens may form: a value, or what stands between the brackets of a value. -/
inductive Phrase where
  | value
  | items
  | members

/-- The tokens of values. Keys and other strings need not denote characters here. -/
inductive Derives : Phrase → List Token → Prop where
  | null : Derives .value [.null]
  | boolean (value : Bool) : Derives .value [.boolean value]
  | number (token : NumberToken) : Derives .value [.number token]
  | string (content : Option String) : Derives .value [.string content]
  | emptyArray : Derives .value [.openArray, .closeArray]
  | array {inside : List Token} (items : Derives .items inside) :
    Derives .value (.openArray :: (inside ++ [.closeArray]))
  | emptyObject : Derives .value [.openObject, .closeObject]
  | object {inside : List Token} (members : Derives .members inside) :
    Derives .value (.openObject :: (inside ++ [.closeObject]))
  | item {value : List Token} (last : Derives .value value) : Derives .items value
  | items {value others : List Token} (first : Derives .value value) (more : Derives .items others) :
    Derives .items (value ++ .comma :: others)
  | member (key : Option String) {value : List Token} (last : Derives .value value) :
    Derives .members (.string key :: .colon :: value)
  | members (key : Option String) {value others : List Token} (first : Derives .value value)
    (more : Derives .members others) : Derives .members (.string key :: .colon :: (value ++ .comma :: others))

/-- What is left when a value is complete: with no bracket open it was the value to skip, else more has to follow. -/
def completed (stack : List Bracket) (rest : List Token) : Except Fault (List Token) :=
  match stack with
  | [] => .ok rest
  | _ :: _ => skipFrom .separator stack rest

/-- Where a value may begin: first in an array, or in any other place. -/
def valuePlace (first : Bool) : Awaited := if first then .firstItem else .value

def keyPlace (first : Bool) : Awaited := if first then .firstKey else .key

/-- A phrase is passed over wherever it may begin, along with the bracket that closes it. -/
def Passes : Phrase → List Token → Prop
  | .value, tokens => ∀ first stack rest,
    skipFrom (valuePlace first) stack (tokens ++ rest) = completed stack rest
  | .items, tokens => ∀ first stack rest,
    skipFrom (valuePlace first) (.array :: stack) (tokens ++ .closeArray :: rest) = completed stack rest
  | .members, tokens => ∀ first stack rest,
    skipFrom (keyPlace first) (.object :: stack) (tokens ++ .closeObject :: rest) = completed stack rest

private theorem completed_closeArray (stack : List Bracket) (rest : List Token) :
    completed (.array :: stack) (.closeArray :: rest) = completed stack rest := by
  cases stack <;> rfl

private theorem completed_closeObject (stack : List Bracket) (rest : List Token) :
    completed (.object :: stack) (.closeObject :: rest) = completed stack rest := by
  cases stack <;> rfl

private theorem passes {phrase : Phrase} {tokens : List Token} (derives : Derives phrase tokens) :
    Passes phrase tokens := by
  induction derives with
  | null | boolean | number | string | emptyArray | emptyObject =>
    intro first stack rest
    cases first <;> cases stack <;> rfl
  | @array inside _ ih =>
    intro first stack rest
    have opened : skipFrom (valuePlace first) stack (.openArray :: (inside ++ [.closeArray]) ++ rest) =
        skipFrom (valuePlace true) (.array :: stack) (inside ++ .closeArray :: rest) := by
      rw [List.cons_append, List.append_assoc]
      cases first <;> rfl
    rw [opened, ih]
  | @object inside _ ih =>
    intro first stack rest
    have opened : skipFrom (valuePlace first) stack (.openObject :: (inside ++ [.closeObject]) ++ rest) =
        skipFrom (keyPlace true) (.object :: stack) (inside ++ .closeObject :: rest) := by
      rw [List.cons_append, List.append_assoc]
      cases first <;> rfl
    rw [opened, ih]
  | item _ ih =>
    intro first stack rest
    rw [ih, completed_closeArray]
  | @items value others _ _ value_ih others_ih =>
    intro first stack rest
    rw [List.append_assoc, value_ih]
    exact others_ih false stack rest
  | @member key value _ ih =>
    intro first stack rest
    have begun : skipFrom (keyPlace first) (.object :: stack) (.string key :: .colon :: value ++ .closeObject :: rest) =
        skipFrom (valuePlace false) (.object :: stack) (value ++ .closeObject :: rest) := by
      cases first <;> rfl
    rw [begun, ih, completed_closeObject]
  | @members key value others _ _ value_ih others_ih =>
    intro first stack rest
    have begun : skipFrom (keyPlace first) (.object :: stack)
          (.string key :: .colon :: (value ++ .comma :: others) ++ .closeObject :: rest) =
        skipFrom (valuePlace false) (.object :: stack) (value ++ .comma :: (others ++ .closeObject :: rest)) := by
      rw [List.cons_append, List.cons_append, List.append_assoc]
      cases first <;> rfl
    rw [begun, value_ih]
    exact others_ih false stack rest

theorem document_eq_ok_iff {α : Type} {reader : Reader α} {text : String} {value : α} :
    document reader text = .ok value ↔ reader (tokens text.toList) = .ok (value, []) := by
  unfold document
  split
  next result read => simp [read]
  next result token rest read => simp [read]
  next fault read => simp [read]

/-- Of the values, a reader takes just those that spell something, and it takes them whole. -/
def Recognizes {α : Type} (reader : Reader α) (spells : α → List Token → Prop) : Prop :=
  ∀ {value : List Token}, Derives .value value → ∀ {rest : List Token} {result : α} {behind : List Token},
    reader (value ++ rest) = .ok (result, behind) ↔ spells result value ∧ behind = rest

theorem recognizes_skip : Recognizes skip fun _ _ => True := by
  intro value derives rest result behind
  have passed : skipFrom .value [] (value ++ rest) = .ok rest := passes derives false [] rest
  rw [skip, passed]
  constructor
  · intro read
    cases read
    exact ⟨trivial, rfl⟩
  · rintro ⟨-, rfl⟩
    rfl

def SpellsBoolean (result : Bool) (value : List Token) : Prop := value = [.boolean result]

theorem recognizes_boolean : Recognizes boolean SpellsBoolean := by
  intro value derives rest result behind
  constructor
  · intro read
    cases derives with
    | boolean =>
      cases read
      exact ⟨rfl, rfl⟩
    | _ => cases read
  · rintro ⟨rfl, rfl⟩
    rfl

theorem recognizes_unit : Recognizes unit fun _ value => value = [.null] := by
  intro value derives rest result behind
  constructor
  · intro read
    cases derives with
    | null =>
      cases read
      exact ⟨rfl, rfl⟩
    | _ => cases read
  · rintro ⟨rfl, rfl⟩
    rfl

private theorem of_punctuation {expected : Token} {tokens rest : List Token}
    (read : punctuation expected tokens = .ok ((), rest)) :
    tokens = expected :: rest := by
  cases tokens with
  | nil => cases read
  | cons token behind =>
    rw [punctuation] at read
    split at read
    next same =>
      cases read
      rw [same]
    next => cases read

private theorem of_variantName {tokens rest : List Token} {name : String}
    (read : variantName tokens = .ok (name, rest)) : tokens = .string (some name) :: rest := by
  unfold variantName at read
  split at read <;> cases read
  rfl

section Variants

variable {ν α : Type} {variants : Variants ν α}

private theorem Variants.of_find {name : String} {variant : ν} (found : variants.find name = .ok variant) :
    variants.named? name = some variant := by
  unfold Variants.find at found
  split at found
  next known =>
    cases found
    exact known
  next => cases found

/-- What is read as an object of one member is one. -/
theorem Variants.of_read_member {tokens rest : List Token} {result : α}
    (read : variants.read (.openObject :: tokens) = .ok (result, rest)) :
    ∃ name variant behind, tokens = .string (some name) :: .colon :: behind ∧ variants.named? name = some variant ∧
      variants.payload variant behind = .ok (result, .closeObject :: rest) := by
  obtain ⟨⟨name, afterName⟩, named, read⟩ := of_bind_ok read
  obtain ⟨variant, found, read⟩ := of_bind_ok read
  obtain ⟨⟨⟨⟩, behind⟩, colon, read⟩ := of_bind_ok read
  obtain ⟨⟨value, afterValue⟩, payload, read⟩ := of_bind_ok read
  obtain ⟨⟨⟨⟩, afterObject⟩, close, read⟩ := of_bind_ok read
  cases read
  obtain rfl := of_variantName named
  obtain rfl := of_punctuation colon
  obtain rfl := of_punctuation close
  exact ⟨name, variant, behind, rfl, Variants.of_find found, payload⟩

theorem Variants.of_read_name {rest behind : List Token} {name : String} {result : α}
    (read : variants.read (.string (some name) :: rest) = .ok (result, behind)) :
    ∃ variant, variants.named? name = some variant ∧ variants.bare variant = .ok result ∧ behind = rest := by
  obtain ⟨variant, found, read⟩ := of_bind_ok read
  obtain ⟨value, bare, read⟩ := of_bind_ok read
  cases read
  exact ⟨variant, Variants.of_find found, bare, rfl⟩

end Variants

end ScriptNumbers.Json
