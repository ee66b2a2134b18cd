import ScriptNumbers.Json.Number
import ScriptNumbers.Proofs.JsonTokens

/-! JSON texts by their grammar: tokens in a row with blanks between them, each in one of the forms that it may be
written in. The tokens that are read from a text are those it was written from. -/

namespace ScriptNumbers.Json

open Numeral

/-- A character that stands for itself in a string. -/
def Plain (c : Char) : Prop := c ≠ '"' ∧ c ≠ '\\' ∧ 0x20 ≤ c.toNat

instance (c : Char) : Decidable (Plain c) := inferInstanceAs (Decidable (_ ∧ _ ∧ _))

/-- The forms of a piece of a string. -/
inductive Piece.WrittenAs : Piece → List Char → Prop where
  | plain {c : Char} (itself : Plain c) : WrittenAs (.plain c) [c]
  | escaped {letter c : Char} (meaning : escaped? letter = some c) : WrittenAs (.plain c) ['\\', letter]
  | unit {a b c d : Char} {value : Nat} (meaning : hexUnit? a b c d = some value) :
    WrittenAs (.unit value) ['\\', 'u', a, b, c, d]

/-- What stands between the quotes of a string. -/
inductive Body : List Piece → List Char → Prop where
  | nil : Body [] []
  | cons {piece : Piece} {front : List Char} {more : List Piece} {behind : List Char}
    (first : piece.WrittenAs front) (others : Body more behind) : Body (piece :: more) (front ++ behind)

variable {text rest : List Char}

private theorem pieces_writtenAs {piece : Piece} {front : List Char} (written : piece.WrittenAs front)
    (behind : List Char) : pieces (front ++ behind) = (piece :: (pieces behind).1, (pieces behind).2) := by
  cases written with
  | plain itself =>
    obtain ⟨quote, escape, visible⟩ := itself
    rw [List.singleton_append, pieces, if_neg (by omega)]
    · exact quote
    all_goals
      intros
      contradiction
  | @escaped letter c meaning =>
    have other : letter ≠ 'u' := by
      rintro rfl
      cases meaning
    rw [List.cons_append, List.singleton_append, pieces, meaning]
    · exact fun _ _ _ _ _ same _ => other same
    · exact other
  | unit meaning => simp only [List.cons_append, List.nil_append, pieces, meaning]

private theorem pieces_body {content : List Piece} (body : Body content text) :
    pieces (text ++ '"' :: rest) = (content, .ok rest) := by
  induction body with
  | nil => rw [List.nil_append, pieces]
  | cons first _ ih => rw [List.append_assoc, pieces_writtenAs first, ih]

/-- What stands in front of the closing quote goes on with any of the forms of a piece. -/
theorem exists_body_cons {piece : Piece} {front behind : List Char} {content : List Piece}
    (written : piece.WrittenAs front)
    (inside : ∀ {more}, pieces behind = (more, .ok rest) → ∃ body, Body more body ∧ behind = body ++ '"' :: rest)
    (read : pieces (front ++ behind) = (content, .ok rest)) :
    ∃ body, Body content body ∧ front ++ behind = body ++ '"' :: rest := by
  rw [pieces_writtenAs written] at read
  obtain ⟨rfl, ending⟩ := Prod.mk.inj read
  obtain ⟨body, others, same⟩ := inside (Prod.ext rfl ending)
  exact ⟨front ++ body, .cons written others, by rw [same, List.append_assoc]⟩

private theorem body_of_pieces {content : List Piece} (read : pieces text = (content, .ok rest)) :
    ∃ body, Body content body ∧ text = body ++ '"' :: rest := by
  induction text using pieces.induct generalizing content with
  | case1 => cases read
  | case2 behind =>
    cases read
    exact ⟨[], .nil, rfl⟩
  | case3 a b c d behind value meaning _ _ _ ih => exact exists_body_cons (.unit meaning) ih read
  | case4 a b c d behind none =>
    rw [pieces, none] at read
    cases read
  | case5 behind short =>
    rw [pieces] at read
    · cases read
    · exact short
  | case6 => cases read
  | case7 letter behind long other value meaning _ _ _ ih => exact exists_body_cons (.escaped meaning) ih read
  | case8 letter behind long other none =>
    rw [pieces, none] at read
    · cases read
    · exact long
    · exact other
  | case9 c behind quote unit unitShort single escape control =>
    rw [pieces, if_pos control] at read
    all_goals try assumption
    cases read
  | case10 c behind quote unit unitShort single escape visible _ _ _ ih =>
    have other : c ≠ '\\' := by
      intro same
      cases behind with
      | nil => exact single same rfl
      | cons letter rest => exact escape letter rest same rfl
    exact exists_body_cons (.plain ⟨quote, other, Nat.le_of_not_lt visible⟩) ih read

/-- The forms of a token. The letter of an exponent has either case, and a string may be written with escapes. -/
inductive Token.WrittenAs : Token → List Char → Prop where
  | openObject : WrittenAs .openObject ['\x7b']
  | closeObject : WrittenAs .closeObject ['\x7d']
  | openArray : WrittenAs .openArray ['[']
  | closeArray : WrittenAs .closeArray [']']
  | colon : WrittenAs .colon [':']
  | comma : WrittenAs .comma [',']
  | null : WrittenAs .null ['n', 'u', 'l', 'l']
  | boolean (value : Bool) : WrittenAs (.boolean value) (boolText value)
  | number {token : NumberToken} (formed : token.WellFormed) {letter : Char} (legal : letter = 'e' ∨ letter = 'E') :
    WrittenAs (.number token) (token.textWith letter)
  | string {content : List Piece} {text : List Char} (body : Body content text) :
    WrittenAs (.string ((characters? content).map String.ofList)) ('"' :: (text ++ ['"']))

/-- The text does not go on with the token. Only a number could go on. -/
def Token.Ends (token : Token) (rest : List Char) : Prop := ∀ number, token = .number number → EndsNumber rest

/-- A text that is written from tokens. -/
inductive Lexes : List Char → List Token → Prop where
  | ended : Lexes [] []
  | blank {c : Char} {rest : List Char} {found : List Token} (white : isBlank c) (behind : Lexes rest found) :
    Lexes (c :: rest) found
  | token {token : Token} {front rest : List Char} {found : List Token} (written : token.WrittenAs front)
    (ends : token.Ends rest) (behind : Lexes rest found) : Lexes (front ++ rest) (token :: found)

private theorem Token.WrittenAs.ne_nil {token : Token} {front : List Char} (written : token.WrittenAs front) :
    front ≠ [] := by
  cases written with
  | boolean value => cases value <;> exact List.cons_ne_nil _ _
  | number formed =>
    obtain ⟨c, tail, text, -⟩ := NumberToken.text_begins _ formed
    rw [text]
    exact List.cons_ne_nil c tail
  | _ => exact List.cons_ne_nil _ _

private theorem next_writtenAs {token : Token} {front : List Char} (written : token.WrittenAs front)
    (ends : token.Ends rest) :
    ∃ c tail, front = c :: tail ∧ isBlank c = false ∧ next c (tail ++ rest) = .ok (token, rest) := by
  cases written with
  | openObject | closeObject | openArray | closeArray | colon | comma | null => exact ⟨_, _, rfl, rfl, rfl⟩
  | boolean value => cases value <;> exact ⟨_, _, rfl, rfl, rfl⟩
  | @number token formed letter legal =>
    obtain ⟨c, tail, text, begins⟩ := NumberToken.text_begins letter formed
    have read := numberToken_textWith legal formed (ends token rfl)
    rw [text, List.cons_append] at read
    refine ⟨c, tail, text, isBlank_of_begins begins, ?_⟩
    rw [next_number begins, read]
    rfl
  | string body =>
    refine ⟨'"', _, rfl, rfl, ?_⟩
    rw [next, string, List.append_assoc, List.singleton_append, pieces_body body]
    rfl

private theorem tokensWithin_blank {bound : Nat} {c : Char} (white : isBlank c) :
    tokensWithin (bound + 1) (c :: rest) = tokensWithin bound rest :=
  if_pos white

private theorem tokensWithin_cons {bound : Nat} {c : Char} {token : Token} {behind : List Char}
    (solid : isBlank c = false) (read : next c rest = .ok (token, behind)) :
    tokensWithin (bound + 1) (c :: rest) = token :: tokensWithin bound behind := by
  rw [tokensWithin, solid, if_neg Bool.false_ne_true, read]

private theorem tokensWithin_of_lexes {found : List Token} (lexes : Lexes text found) {bound : Nat}
    (enough : text.length ≤ bound) : tokensWithin bound text = found := by
  induction lexes generalizing bound with
  | ended => cases bound <;> rfl
  | blank white _ ih =>
    rw [List.length_cons] at enough
    obtain ⟨fewer, rfl⟩ : ∃ fewer, bound = fewer + 1 := ⟨bound - 1, by omega⟩
    rw [tokensWithin_blank white, ih (by omega)]
  | token written ends _ ih =>
    obtain ⟨c, tail, rfl, solid, read⟩ := next_writtenAs written ends
    rw [List.cons_append, List.length_cons, List.length_append] at enough
    obtain ⟨fewer, rfl⟩ : ∃ fewer, bound = fewer + 1 := ⟨bound - 1, by omega⟩
    rw [List.cons_append, tokensWithin_cons solid read, ih (by omega)]

/-- The tokens of a text are those it was written from. -/
theorem tokens_of_lexes {found : List Token} (lexes : Lexes text found) : tokens text = found :=
  tokensWithin_of_lexes lexes (Nat.le_refl _)

theorem wellFormed_of_lexes {found : List Token} (lexes : Lexes text found) {token : NumberToken}
    (member : .number token ∈ found) : token.WellFormed := by
  induction lexes with
  | ended => cases member
  | blank _ _ ih => exact ih member
  | token written _ _ ih =>
    rcases List.mem_cons.mp member with rfl | behind
    · cases written with
      | number formed _ => exact formed
    · exact ih behind

def Token.isBroken : Token → Bool
  | .broken _ => true
  | _ => false

private theorem of_word {letters : List Char} (read : word letters text = .ok rest) : text = letters ++ rest := by
  induction letters generalizing text with
  | nil => exact Except.ok.inj read
  | cons letter letters ih =>
    cases text with
    | nil => cases read
    | cons c text =>
      rw [word] at read
      split at read
      next same => rw [same, ih read, List.cons_append]
      next => cases read

private theorem of_string {content : Option String} (read : string text = .ok (content, rest)) :
    ∃ front, Token.WrittenAs (.string content) ('"' :: front) ∧ text = front ++ rest := by
  unfold string at read
  split at read
  next found =>
    cases read
    obtain ⟨body, written, rfl⟩ := body_of_pieces found
    exact ⟨body ++ ['"'], .string written, by simp⟩
  next => cases read
  next => cases read

/-- What is read as a token is one. No digit follows a number, but a letter or a point may, and then nothing goes on
from there. -/
theorem of_next {c : Char} {token : Token} (read : next c text = .ok (token, rest)) :
    ∃ front, token.WrittenAs front ∧ c :: text = front ++ rest ∧
      ∀ number, token = .number number → EndsDigits rest := by
  unfold next at read
  split at read
  case h_1 => cases read; exact ⟨_, .openObject, rfl, nofun⟩
  case h_2 => cases read; exact ⟨_, .closeObject, rfl, nofun⟩
  case h_3 => cases read; exact ⟨_, .openArray, rfl, nofun⟩
  case h_4 => cases read; exact ⟨_, .closeArray, rfl, nofun⟩
  case h_5 => cases read; exact ⟨_, .colon, rfl, nofun⟩
  case h_6 => cases read; exact ⟨_, .comma, rfl, nofun⟩
  case h_7 =>
    obtain ⟨behind, found, same⟩ := of_map_ok read
    cases same
    exact ⟨_, .null, congrArg _ (of_word found), nofun⟩
  case h_8 =>
    obtain ⟨behind, found, same⟩ := of_map_ok read
    cases same
    exact ⟨_, .boolean true, congrArg _ (of_word found), nofun⟩
  case h_9 =>
    obtain ⟨behind, found, same⟩ := of_map_ok read
    cases same
    exact ⟨_, .boolean false, congrArg _ (of_word found), nofun⟩
  case h_10 =>
    obtain ⟨⟨content, behind⟩, found, same⟩ := of_map_ok read
    cases same
    obtain ⟨front, written, shape⟩ := of_string found
    exact ⟨_, written, congrArg _ shape, nofun⟩
  case h_11 =>
    split at read
    next =>
      obtain ⟨⟨number, behind⟩, found, same⟩ := of_map_ok read
      cases same
      obtain ⟨formed, ends, letter, legal, shape⟩ := of_numberToken found
      exact ⟨_, .number formed legal, shape, fun _ _ => ends⟩
    next => cases read

/-- A text that goes on with a token after a number ends the number. -/
theorem endsNumber_of_tokens {bound : Nat} (enough : rest.length ≤ bound) (digit : EndsDigits rest)
    (whole : ∀ token ∈ tokensWithin bound rest, token.isBroken = false) : EndsNumber rest := by
  intro c first
  refine ⟨digit c first, ?_⟩
  cases rest with
  | nil => cases first
  | cons head behind =>
    cases first
    obtain ⟨fewer, rfl⟩ : ∃ fewer, bound = fewer + 1 := ⟨bound - 1, by rw [List.length_cons] at enough; omega⟩
    have solid (broken : tokensWithin (fewer + 1) (c :: behind) = [.broken .character]) : False := by
      rw [broken] at whole
      cases whole _ List.mem_cons_self
    refine ⟨?_, ?_, ?_⟩
    all_goals
      rintro rfl
      exact solid rfl

private theorem lexes_of_tokensWithin {bound : Nat} (enough : text.length ≤ bound)
    (whole : ∀ token ∈ tokensWithin bound text, token.isBroken = false) : Lexes text (tokensWithin bound text) := by
  induction bound generalizing text with
  | zero =>
    rw [List.length_eq_zero_iff.mp (Nat.le_zero.mp enough)]
    exact .ended
  | succ bound ih =>
    cases text with
    | nil => exact .ended
    | cons c behind =>
      rw [List.length_cons] at enough
      by_cases white : isBlank c
      · rw [tokensWithin_blank white] at whole ⊢
        exact .blank white (ih (by omega) whole)
      · have solid : isBlank c = false := eq_false_of_ne_true white
        cases read : next c behind with
        | error cause =>
          rw [tokensWithin, solid, if_neg Bool.false_ne_true, read] at whole
          cases whole _ List.mem_cons_self
        | ok parts =>
          obtain ⟨token, rest⟩ := parts
          rw [tokensWithin_cons solid read] at whole ⊢
          have others : ∀ other ∈ tokensWithin bound rest, other.isBroken = false :=
            fun other member => whole other (List.mem_cons_of_mem token member)
          obtain ⟨front, written, shape, digit⟩ := of_next read
          have shorter : rest.length ≤ bound := by
            have lengths := congrArg List.length shape
            have some := List.length_pos_iff.mpr written.ne_nil
            rw [List.length_cons, List.length_append] at lengths
            omega
          rw [shape]
          exact .token written (fun number same => endsNumber_of_tokens shorter (digit number same) others)
            (ih shorter others)

/-- A text is written from its tokens, unless it breaks off, and from no others. -/
theorem lexes_iff {found : List Token} :
    Lexes text found ↔ tokens text = found ∧ ∀ token ∈ found, token.isBroken = false := by
  constructor
  · intro lexes
    refine ⟨tokens_of_lexes lexes, ?_⟩
    induction lexes with
    | ended => nofun
    | blank _ _ ih => exact ih
    | token written _ _ ih =>
      intro token member
      rcases List.mem_cons.mp member with rfl | behind
      · cases written <;> rfl
      · exact ih token behind
  · rintro ⟨rfl, whole⟩
    exact lexes_of_tokensWithin (Nat.le_refl _) whole

instance (text : List Char) (found : List Token) : Decidable (Lexes text found) := decidable_of_iff _ lexes_iff.symm

theorem floating_of_finite {token : NumberToken} {rank : Fin Format.double.limit}
    (scaled : scale token.leading = .finite false rank) :
    token.floating = .ok (.floating (.finite token.negative rank)) := by
  rw [NumberToken.floating, scaled]
  cases token.negative <;> rfl

/-- The tokens of a number marked with its kind. -/
def markedTokens (kind : Kind) (token : NumberToken) : List Token :=
  [.openObject, .string (some kind.tag), .colon, .number token, .closeObject]

/-- A variant with a payload is an object of one member, the variant's name as its key. -/
theorem Variants.read_member {ν α : Type} (variants : Variants ν α) {name : String} {variant : ν}
    (known : variants.named? name = some variant) (rest : List Token) :
    variants.read (.openObject :: .string (some name) :: .colon :: rest) =
      (variants.payload variant rest).bind fun (value, rest) =>
        (punctuation .closeObject rest).map fun (_, rest) => (value, rest) := by
  have found : variants.find name = .ok variant := by rw [Variants.find, known]
  simp only [Variants.read, variantName, found, punctuation, bind, Except.bind, if_true]
  cases variants.payload variant rest with
  | error fault => rfl
  | ok read => cases punctuation .closeObject read.2 <;> rfl

private theorem bareNumber_number (kind : Kind) (token : NumberToken) (rest : List Token) :
    bareNumber kind (.number token :: rest) = (token.value.bind (Value.toNumber kind)).map (·, rest) := by
  rw [bareNumber]
  cases token.value with
  | error fault => rfl
  | ok value =>
    dsimp only [bind, Except.bind]
    cases value.toNumber kind <;> rfl

/-- Only the value of its token counts of a marked number. -/
theorem readNumber_of_lexes {text : String} {kind : Kind} {token : NumberToken}
    (marked : Lexes text.toList (markedTokens kind token)) :
    readNumber text = token.value.bind (Value.toNumber kind) := by
  rw [readNumber, document, tokens_of_lexes marked, markedTokens, number, Variants.read_member _ (Kind.ofTag?_tag kind)]
  dsimp only
  rw [bareNumber_number]
  cases token.value.bind (Value.toNumber kind) <;> rfl

private theorem body_plain {name : List Char} (plain : ∀ c ∈ name, Plain c) : Body (name.map .plain) name := by
  induction name with
  | nil => exact .nil
  | cons c name ih =>
    exact .cons (.plain (plain c List.mem_cons_self))
      (ih fun other member => plain other (List.mem_cons_of_mem c member))

private theorem characters?_plain (name : List Char) : characters? (name.map .plain) = some name := by
  induction name with
  | nil => rfl
  | cons c name ih => rw [List.map_cons, characters?, ih]; rfl

private theorem writtenAs_name {name : String} (plain : ∀ c ∈ name.toList, Plain c) :
    Token.WrittenAs (.string (some name)) (nameText name) := by
  have written := Token.WrittenAs.string (body_plain plain)
  rwa [characters?_plain, Option.map_some, String.ofList_toList] at written

theorem lexes_json {number : Number} {token : NumberToken} (text : bareText number = token.text)
    (formed : token.WellFormed) : Lexes number.json.toList (markedTokens number.kind token) := by
  have plain : ∀ c ∈ number.kind.tag.toList, Plain c := by
    cases number.kind <;> simp [Kind.tag, Plain]
  have shape : number.json.toList =
      ['\x7b'] ++ (nameText number.kind.tag ++ ([':'] ++ (token.text ++ (['\x7d'] ++ [])))) := by
    simp [Number.json, numberText, text, objectText, memberText, List.intercalate]
  have ends : EndsNumber (['\x7d'] ++ []) := by
    intro c first
    cases first
    decide
  rw [shape]
  refine .token .openObject nofun (.token (writtenAs_name plain) nofun (.token .colon nofun ?_))
  exact .token (.number formed (Or.inl rfl)) (fun _ _ => ends) (.token .closeObject nofun .ended)

/-- A number in JSON form is read as the value of its token in its own kind. -/
theorem readNumber_json_of_value {number : Number} {token : NumberToken} (text : bareText number = token.text)
    (formed : token.WellFormed) {value : Value} (meaning : token.value = .ok value) :
    readNumber number.json = value.toNumber number.kind := by
  rw [readNumber_of_lexes (lexes_json text formed), meaning]
  rfl

theorem readNumber_json {number : Number} {token : NumberToken} (text : bareText number = token.text)
    (formed : token.WellFormed) {value : Value} (meaning : token.value = .ok value)
    (kind : value.toNumber number.kind = .ok number) : readNumber number.json = .ok number :=
  (readNumber_json_of_value text formed meaning).trans kind

end ScriptNumbers.Json
