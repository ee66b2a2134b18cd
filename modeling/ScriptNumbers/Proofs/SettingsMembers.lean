import ScriptNumbers.Json.Settings
import ScriptNumbers.Proofs.JsonValues

/-! Settings read from a JSON object of any members. Each setting has a slot of its own, which only members with its key
touch, so the order of the members does not count, and neither do members with other keys. -/

namespace ScriptNumbers.Json

open Literal (Settings Oversized)

/-- A choice is written as its name, or as an object whose only member has its name and no content. -/
def SpellsChoice (choice : Oversized) (value : List Token) : Prop :=
  value = [.string (some choice.name)] ∨
    value = [.openObject, .string (some choice.name), .colon, .null, .closeObject]

private theorem eq_name_of_ofName? {name : String} {choice : Oversized} (known : Oversized.ofName? name = some choice) :
    name = choice.name := by
  have same : (choice.name == name) = true := List.find?_some (p := fun other : Oversized => other.name == name) known
  exact (eq_of_beq same).symm

private theorem recognizes_oversizedInteger : Recognizes oversizedInteger SpellsChoice := by
  intro value derives rest result behind
  constructor
  · intro read
    cases derives with
    | string content =>
      cases content with
      | none => cases read
      | some name =>
        obtain ⟨choice, known, bare, rfl⟩ := Variants.of_read_name read
        cases bare
        rw [eq_name_of_ofName? known]
        exact ⟨Or.inl rfl, rfl⟩
    | emptyObject =>
      obtain ⟨_, _, _, tokens, -⟩ := Variants.of_read_member read
      cases tokens
    | object inside =>
      rw [List.cons_append, List.append_assoc] at read
      obtain ⟨name, choice, tokens, shape, known, payload⟩ := Variants.of_read_member read
      obtain ⟨⟨⟨⟩, after⟩, null, same⟩ := of_map_ok payload
      cases same
      -- Behind the null only the closing brace may follow, so there is no second member.
      cases inside with
      | member key last =>
        cases shape
        obtain ⟨rfl, same⟩ := (recognizes_unit last).mp null
        cases same
        rw [eq_name_of_ofName? known]
        exact ⟨Or.inr rfl, rfl⟩
      | members key first more =>
        rw [List.cons_append, List.cons_append, List.append_assoc] at shape
        cases shape
        obtain ⟨-, same⟩ := (recognizes_unit first).mp null
        cases same
    | _ => cases read
  · rintro ⟨rfl | rfl, rfl⟩
    · cases result <;> rfl
    · cases result <;> rfl

/-- A member with a value of any content. -/
structure Member where
  key : String
  value : List Token
  valid : Derives .value value

def Member.tokens (member : Member) : List Token := .string (some member.key) :: .colon :: member.value

def memberTokens (members : List Member) : List Token := [Token.comma].intercalate (members.map Member.tokens)

def objectTokens (members : List Member) : List Token := .openObject :: (memberTokens members ++ [.closeObject])

/-- The values that members give to a key. -/
def given (members : List Member) (key : String) : List (List Token) :=
  (members.filter fun member => member.key = key).map Member.value

/-- A slot that is filled with the values given for it. A taken slot takes no value. -/
def Fills {α : Type} (spells : α → List Token → Prop) (slot : Option α) : List (List Token) → Option α → Prop
  | [], filled => filled = slot
  | value :: others, filled => slot = none ∧ ∃ result, spells result value ∧ Fills spells (some result) others filled

def Slots.Fills (slots : Slots) (members : List Member) (filled : Slots) : Prop :=
  Json.Fills SpellsBoolean slots.typeSuffixes (given members "typeSuffixes") filled.typeSuffixes ∧
  Json.Fills SpellsBoolean slots.hex (given members "hex") filled.hex ∧
  Json.Fills SpellsChoice slots.oversizedInteger (given members "oversizedInteger") filled.oversizedInteger

private theorem given_cons_of_eq {member : Member} {key : String} (same : member.key = key) (others : List Member) :
    given (member :: others) key = member.value :: given others key := by
  simp [given, same]

private theorem given_cons_of_ne {member : Member} {key : String} (other : member.key ≠ key) (others : List Member) :
    given (member :: others) key = given others key := by
  simp [given, other]

section Slot

variable {α : Type} (spells : α → List Token → Prop) (key : String)

/-- What a member does to the slot of a key. -/
def TakesSlot (slot : Option α) (member : Member) (taken : Option α) : Prop :=
  if member.key = key then slot = none ∧ ∃ result, spells result member.value ∧ taken = some result else taken = slot

variable {spells key}

private theorem fills_cons {slot filled : Option α} {member : Member} {others : List Member} :
    Fills spells slot (given (member :: others) key) filled ↔
      ∃ taken, TakesSlot spells key slot member taken ∧ Fills spells taken (given others key) filled := by
  by_cases same : member.key = key
  · rw [given_cons_of_eq same]
    simp only [Fills, TakesSlot, if_pos same]
    constructor
    · rintro ⟨free, result, spelled, more⟩
      exact ⟨some result, ⟨free, result, spelled, rfl⟩, more⟩
    · rintro ⟨_, ⟨free, result, spelled, rfl⟩, more⟩
      exact ⟨free, result, spelled, more⟩
  · rw [given_cons_of_ne same]
    simp only [TakesSlot, if_neg same, exists_eq_left]

private theorem takesSlot_of_ne {slot taken : Option α} {member : Member} (other : member.key ≠ key) :
    TakesSlot spells key slot member taken ↔ taken = slot := by
  rw [TakesSlot, if_neg other]

private theorem fill_iff {reader : Reader α} (recognizes : Recognizes reader spells) {member : Member} {slot : Option α}
    {rest behind : List Token} {result : α} :
    fill member.key slot reader (.colon :: (member.value ++ rest)) = .ok (result, behind) ↔
      slot = none ∧ spells result member.value ∧ behind = rest := by
  cases slot with
  | none => exact (recognizes member.valid).trans (and_iff_right rfl).symm
  | some taken => exact iff_of_false nofun nofun

/-- The own slot of a key is filled, the others are kept by the update. -/
theorem fill_own_iff {reader : Reader α} (recognizes : Recognizes reader spells) {member : Member}
    (own : member.key = key) {slot : Option α} {rest behind : List Token} (update : Option α → Slots) {taken : Slots} :
    (fill member.key slot reader (.colon :: (member.value ++ rest))).map
          (fun (value, rest) => (update (some value), rest)) = .ok (taken, behind) ↔
      (∃ filled, TakesSlot spells key slot member filled ∧ update filled = taken) ∧ behind = rest := by
  simp only [TakesSlot, if_pos own]
  constructor
  · intro read
    obtain ⟨⟨result, after⟩, filled, same⟩ := of_map_ok read
    cases same
    obtain ⟨free, spelled, rfl⟩ := (fill_iff recognizes).mp filled
    exact ⟨⟨some result, ⟨free, result, spelled, rfl⟩, rfl⟩, rfl⟩
  · rintro ⟨⟨_, ⟨free, result, spelled, rfl⟩, rfl⟩, rfl⟩
    rw [(fill_iff recognizes).mpr ⟨free, spelled, rfl⟩]
    rfl

end Slot

/-- What a member does to the slots. -/
def Slots.Takes (slots : Slots) (member : Member) (taken : Slots) : Prop :=
  TakesSlot SpellsBoolean "typeSuffixes" slots.typeSuffixes member taken.typeSuffixes ∧
  TakesSlot SpellsBoolean "hex" slots.hex member taken.hex ∧
  TakesSlot SpellsChoice "oversizedInteger" slots.oversizedInteger member taken.oversizedInteger

private theorem Slots.fills_cons {slots filled : Slots} {member : Member} {others : List Member} :
    slots.Fills (member :: others) filled ↔ ∃ taken, slots.Takes member taken ∧ taken.Fills others filled := by
  simp only [Slots.Fills, Json.fills_cons, Slots.Takes]
  constructor
  · rintro ⟨⟨typeSuffixes, own, more⟩, ⟨hex, ownHex, moreHex⟩, ⟨choice, ownChoice, moreChoice⟩⟩
    exact ⟨⟨typeSuffixes, hex, choice⟩, ⟨own, ownHex, ownChoice⟩, more, moreHex, moreChoice⟩
  · rintro ⟨taken, ⟨own, ownHex, ownChoice⟩, more, moreHex, moreChoice⟩
    exact ⟨⟨_, own, more⟩, ⟨_, ownHex, moreHex⟩, ⟨_, ownChoice, moreChoice⟩⟩

private theorem member_iff {slots taken : Slots} {member : Member} {rest behind : List Token} :
    Json.member slots member.key (.colon :: (member.value ++ rest)) = .ok (taken, behind) ↔
      slots.Takes member taken ∧ behind = rest := by
  obtain ⟨typeSuffixes, hex, choice⟩ := taken
  rw [Json.member, Slots.Takes]
  split
  next own =>
    have other : member.key ≠ "hex" ∧ member.key ≠ "oversizedInteger" := by rw [own]; decide
    rw [fill_own_iff recognizes_boolean own fun filled => ⟨filled, slots.hex, slots.oversizedInteger⟩,
      takesSlot_of_ne other.1, takesSlot_of_ne other.2]
    grind
  next foreignSuffixes =>
    split
    next own =>
      have other : member.key ≠ "oversizedInteger" := by rw [own]; decide
      rw [fill_own_iff recognizes_boolean own fun filled => ⟨slots.typeSuffixes, filled, slots.oversizedInteger⟩,
        takesSlot_of_ne foreignSuffixes, takesSlot_of_ne other]
      grind
    next foreignHex =>
      split
      next own =>
        rw [fill_own_iff recognizes_oversizedInteger own fun filled => ⟨slots.typeSuffixes, slots.hex, filled⟩,
          takesSlot_of_ne foreignSuffixes, takesSlot_of_ne foreignHex]
        grind
      next foreignChoice =>
        rw [takesSlot_of_ne foreignSuffixes, takesSlot_of_ne foreignHex, takesSlot_of_ne foreignChoice]
        constructor
        · intro read
          obtain ⟨⟨nothing, after⟩, skipped, same⟩ := of_map_ok read
          cases same
          exact ⟨⟨rfl, rfl, rfl⟩, ((fill_iff recognizes_skip).mp skipped).2.2⟩
        · rintro ⟨⟨rfl, rfl, rfl⟩, rfl⟩
          have skipped :
              fill member.key (none : Option Unit) skip (.colon :: (member.value ++ behind)) = .ok ((), behind) :=
            (fill_iff recognizes_skip).mpr ⟨rfl, trivial, rfl⟩
          rw [skipped]
          rfl

private theorem memberTokens_singleton (member : Member) : memberTokens [member] = member.tokens := by
  simp [memberTokens, List.intercalate]

private theorem memberTokens_cons_cons (member next : Member) (others : List Member) :
    memberTokens (member :: next :: others) = member.tokens ++ .comma :: memberTokens (next :: others) := by
  simp [memberTokens, List.intercalate]

private theorem memberTokens_begins (member : Member) (others : List Member) :
    ∃ tail, memberTokens (member :: others) = .string (some member.key) :: tail := by
  cases others with
  | nil => exact ⟨_, memberTokens_singleton member⟩
  | cons next others => exact ⟨_, memberTokens_cons_cons member next others⟩

private theorem length_le_memberTokens (members : List Member) : members.length ≤ (memberTokens members).length := by
  induction members with
  | nil => exact Nat.zero_le _
  | cons member others ih =>
    cases others with
    | nil => simp [memberTokens_singleton, Member.tokens]
    | cons next others =>
      rw [memberTokens_cons_cons, List.length_append]
      simp only [List.length_cons] at ih ⊢
      omega

/-- What is read behind a member. -/
def afterMember (bound : Nat) (slots : Slots) : Reader Slots
  | [] => .error .truncated
  | .comma :: rest => membersWithin bound slots rest
  | .closeObject :: rest => .ok (slots, rest)
  | _ => .error .malformed

private theorem membersWithin_key (bound : Nat) (slots : Slots) (name : String) (rest : List Token) :
    membersWithin (bound + 1) slots (.string (some name) :: rest) =
      (Json.member slots name rest).bind fun (slots, rest) => afterMember bound slots rest :=
  rfl

private theorem membersWithin_member {member : Member} {bound : Nat} {slots filled : Slots} {rest behind : List Token} :
    membersWithin (bound + 1) slots (member.tokens ++ rest) = .ok (filled, behind) ↔
      ∃ taken, slots.Takes member taken ∧ afterMember bound taken rest = .ok (filled, behind) := by
  rw [Member.tokens, List.cons_append, List.cons_append, membersWithin_key]
  constructor
  · intro read
    obtain ⟨⟨taken, after⟩, took, goesOn⟩ := of_bind_ok read
    obtain ⟨takes, rfl⟩ := member_iff.mp took
    exact ⟨taken, takes, goesOn⟩
  · rintro ⟨taken, takes, goesOn⟩
    rw [member_iff.mpr ⟨takes, rfl⟩]
    exact goesOn

private theorem Slots.fills_nil {slots filled : Slots} : slots.Fills [] filled ↔ filled = slots := by
  cases filled
  rw [Slots.mk.injEq]
  exact Iff.rfl

private theorem membersWithin_iff {member : Member} {others : List Member} {bound : Nat}
    (enough : others.length < bound) {slots filled : Slots} {rest behind : List Token} :
    membersWithin bound slots (memberTokens (member :: others) ++ .closeObject :: rest) = .ok (filled, behind) ↔
      slots.Fills (member :: others) filled ∧ behind = rest := by
  induction others generalizing member bound slots with
  | nil =>
    obtain ⟨fewer, rfl⟩ : ∃ fewer, bound = fewer + 1 := ⟨bound - 1, by omega⟩
    rw [memberTokens_singleton, membersWithin_member, Slots.fills_cons]
    simp only [Slots.fills_nil, afterMember, Except.ok.injEq, Prod.mk.injEq]
    constructor
    · rintro ⟨taken, takes, rfl, rfl⟩
      exact ⟨⟨taken, takes, rfl⟩, rfl⟩
    · rintro ⟨⟨taken, takes, rfl⟩, rfl⟩
      exact ⟨filled, takes, rfl, rfl⟩
  | cons next others ih =>
    rw [List.length_cons] at enough
    obtain ⟨fewer, rfl⟩ : ∃ fewer, bound = fewer + 1 := ⟨bound - 1, by omega⟩
    rw [memberTokens_cons_cons, List.append_assoc, List.cons_append, membersWithin_member, Slots.fills_cons]
    simp only [afterMember, ih (show others.length < fewer by omega)]
    constructor
    · rintro ⟨taken, takes, fills, rfl⟩
      exact ⟨⟨taken, takes, fills⟩, rfl⟩
    · rintro ⟨⟨taken, takes, fills⟩, rfl⟩
      exact ⟨taken, takes, fills, rfl⟩

private theorem slots_objectTokens {members : List Member} {filled : Slots} {behind : List Token} :
    slots (objectTokens members) = .ok (filled, behind) ↔ Slots.Fills {} members filled ∧ behind = [] := by
  cases members with
  | nil =>
    have empty : slots (objectTokens []) = .ok ({}, []) := rfl
    rw [empty, Slots.fills_nil, Except.ok.injEq, Prod.mk.injEq, eq_comm, eq_comm (a := [])]
  | cons member others =>
    obtain ⟨tail, shape⟩ := memberTokens_begins member others
    have enough : others.length < (memberTokens (member :: others) ++ [Token.closeObject]).length := by
      have := length_le_memberTokens (member :: others)
      rw [List.length_cons] at this
      rw [List.length_append]
      omega
    rw [← membersWithin_iff enough, objectTokens, shape]
    rfl

/-- A setting that is told at most once, and else keeps its default. -/
def Told {α : Type} (spells : α → List Token → Prop) (default : α) (values : List (List Token)) (result : α) : Prop :=
  values = [] ∧ result = default ∨ ∃ value, values = [value] ∧ spells result value

private theorem told_iff {α : Type} {spells : α → List Token → Prop} {default result : α} {values : List (List Token)} :
    Told spells default values result ↔ ∃ filled, Fills spells none values filled ∧ filled.getD default = result := by
  rcases values with _ | ⟨value, _ | ⟨second, more⟩⟩
  · simp [Told, Fills, eq_comm]
  · simp only [Told, Fills]
    constructor
    · rintro (⟨none, -⟩ | ⟨_, same, spelled⟩)
      · cases none
      · cases same
        exact ⟨some result, ⟨trivial, result, spelled, rfl⟩, rfl⟩
    · rintro ⟨_, ⟨-, _, spelled, rfl⟩, rfl⟩
      exact Or.inr ⟨value, rfl, spelled⟩
  · simp [Told, Fills]

/-- At most one value is given, and it is one of the setting. -/
def Tells {α : Type} (spells : α → List Token → Prop) (values : List (List Token)) : Prop :=
  values.length ≤ 1 ∧ ∀ value ∈ values, ∃ result, spells result value

private theorem exists_told_iff {α : Type} {spells : α → List Token → Prop} {default : α} {values : List (List Token)} :
    (∃ result, Told spells default values result) ↔ Tells spells values := by
  rcases values with _ | ⟨value, _ | ⟨second, more⟩⟩
  · simp [Told, Tells]
  · simp [Told, Tells]
  · simp [Told, Tells]

private theorem Told.perm {α : Type} {spells : α → List Token → Prop} {default result : α}
    {values others : List (List Token)} (told : Told spells default values result) (same : values.Perm others) :
    Told spells default others result := by
  rcases told with ⟨rfl, rfl⟩ | ⟨value, rfl, spelled⟩
  · exact Or.inl ⟨List.nil_perm.mp same, rfl⟩
  · exact Or.inr ⟨value, (List.singleton_perm.mp same).symm, spelled⟩

/-- The default settings where members tell nothing else. -/
structure Overrides (members : List Member) (settings : Settings) : Prop where
  typeSuffixes : Told SpellsBoolean Settings.standard.typeSuffixes (given members "typeSuffixes") settings.typeSuffixes
  hex : Told SpellsBoolean Settings.standard.hex (given members "hex") settings.hex
  oversizedInteger :
    Told SpellsChoice Settings.standard.oversizedInteger (given members "oversizedInteger") settings.oversizedInteger

/-- Members with the key of a setting. -/
def Member.isKnown (member : Member) : Bool := ["typeSuffixes", "hex", "oversizedInteger"].contains member.key

private theorem given_perm {members others : List Member}
    (same : (members.filter Member.isKnown).Perm (others.filter Member.isKnown)) {key : String}
    (known : key ∈ ["typeSuffixes", "hex", "oversizedInteger"]) : (given members key).Perm (given others key) := by
  have narrow (list : List Member) : given list key = given (list.filter Member.isKnown) key := by
    rw [given, given, List.filter_filter]
    congr 2
    funext member
    by_cases own : member.key = key
    · subst own
      simpa [Member.isKnown] using known
    · simp [own]
  rw [narrow members, narrow others]
  exact (same.filter _).map _

private theorem Overrides.perm {members others : List Member} {settings : Settings}
    (overrides : Overrides members settings) (same : (members.filter Member.isKnown).Perm (others.filter Member.isKnown)) :
    Overrides others settings where
  typeSuffixes := overrides.typeSuffixes.perm (given_perm same (by decide))
  hex := overrides.hex.perm (given_perm same (by decide))
  oversizedInteger := overrides.oversizedInteger.perm (given_perm same (by decide))

section Object

variable {members : List Member} {text : String} (lexes : Lexes text.toList (objectTokens members))
include lexes

private theorem readSettings_iff {settings : Settings} :
    readSettings text = .ok settings ↔ Overrides members settings := by
  have read {filled : Slots} : document slots text = .ok filled ↔ Slots.Fills {} members filled := by
    rw [document_eq_ok_iff, tokens_of_lexes lexes, slots_objectTokens]
    exact and_iff_left rfl
  constructor
  · intro accepted
    obtain ⟨filled, found, rfl⟩ := of_map_ok accepted
    obtain ⟨suffixes, hex, choice⟩ := read.mp found
    exact ⟨told_iff.mpr ⟨_, suffixes, rfl⟩, told_iff.mpr ⟨_, hex, rfl⟩, told_iff.mpr ⟨_, choice, rfl⟩⟩
  · intro overrides
    obtain ⟨typeSuffixes, suffixes, first⟩ := told_iff.mp overrides.typeSuffixes
    obtain ⟨hexSlot, hex, second⟩ := told_iff.mp overrides.hex
    obtain ⟨choiceSlot, choice, third⟩ := told_iff.mp overrides.oversizedInteger
    have found : document slots text = .ok ⟨typeSuffixes, hexSlot, choiceSlot⟩ := read.mpr ⟨suffixes, hex, choice⟩
    rw [readSettings, found, Except.map, Slots.settings, first, second, third]

/-- An object tells each setting at most once and with a value of its kind, or is refused. The order of its members does
not count, and neither do members with other keys. -/
theorem readSettings_members :
    (∀ settings, readSettings text = .ok settings ↔ Overrides members settings) ∧
    ((∃ settings, readSettings text = .ok settings) ↔
      Tells SpellsBoolean (given members "typeSuffixes") ∧ Tells SpellsBoolean (given members "hex") ∧
        Tells SpellsChoice (given members "oversizedInteger")) ∧
    (∀ others other, Lexes other.toList (objectTokens others) →
      (members.filter Member.isKnown).Perm (others.filter Member.isKnown) →
      ∀ settings, readSettings other = .ok settings ↔ readSettings text = .ok settings) := by
  refine ⟨fun _ => readSettings_iff lexes, ⟨?_, ?_⟩, ?_⟩
  · rintro ⟨settings, read⟩
    have overrides := (readSettings_iff lexes).mp read
    exact ⟨exists_told_iff.mp ⟨_, overrides.typeSuffixes⟩, exists_told_iff.mp ⟨_, overrides.hex⟩,
      exists_told_iff.mp ⟨_, overrides.oversizedInteger⟩⟩
  · rintro ⟨suffixes, hex, choice⟩
    obtain ⟨typeSuffixes, suffixes⟩ := exists_told_iff.mpr suffixes
    obtain ⟨hexValue, hex⟩ := exists_told_iff.mpr hex
    obtain ⟨oversizedInteger, choice⟩ := exists_told_iff.mpr choice
    exact ⟨⟨typeSuffixes, hexValue, oversizedInteger⟩, (readSettings_iff lexes).mpr ⟨suffixes, hex, choice⟩⟩
  · intro others other also same settings
    rw [readSettings_iff also, readSettings_iff lexes]
    exact ⟨fun overrides => overrides.perm same.symm, fun overrides => overrides.perm same⟩

end Object

/-- Other members may have any content, also the keys of settings inside it, and may be repeated. -/
theorem readSettings_members_foreign :
    readSettings "\x7b\"x\":[\x7b\"hex\":0\x7d],\"hex\":false,\"x\":1e999,\"oversizedInteger\":\"reject\"\x7d" =
        .ok ⟨true, false, .reject⟩ ∧
      readSettings "\x7b \"oversizedInteger\": \"reject\", \"hex\": false \x7d" = .ok ⟨true, false, .reject⟩ := by
  let choice : Member := ⟨"oversizedInteger", _, .string (some "reject")⟩
  let hex : Member := ⟨"hex", _, .boolean false⟩
  let nested : Member :=
    ⟨"x", _, .array (.item (.object (.member (some "hex") (.number ⟨false, ⟨['0'], none⟩, none⟩))))⟩
  let large : Member := ⟨"x", _, .number ⟨false, ⟨['1'], none⟩, some ⟨none, ['9', '9', '9']⟩⟩⟩
  have first : Lexes (String.toList
      "\x7b\"x\":[\x7b\"hex\":0\x7d],\"hex\":false,\"x\":1e999,\"oversizedInteger\":\"reject\"\x7d")
      (objectTokens [nested, hex, large, choice]) := by decide +kernel
  have second : Lexes "\x7b \"oversizedInteger\": \"reject\", \"hex\": false \x7d".toList
      (objectTokens [choice, hex]) := by decide +kernel
  obtain ⟨told, -, same⟩ := readSettings_members first
  have read := (told ⟨true, false, .reject⟩).mpr
    ⟨Or.inl ⟨rfl, rfl⟩, Or.inr ⟨_, rfl, rfl⟩, Or.inr ⟨_, rfl, Or.inl rfl⟩⟩
  exact ⟨read, (same _ _ second (.swap choice hex []) _).mpr read⟩

end ScriptNumbers.Json
