import ScriptNumbers.Literal.Reading
import ScriptNumbers.Proofs.LiteralNodes

/-! Scanning from left to right, each piece as far as it goes, is cutting a literal as the grammar does. Behind a body
there is at most a suffix, and none of the four goes on with a body, so nothing has to be given back. -/

namespace ScriptNumbers.Literal

open Numeral

variable {nodes : List Node} {node : Node} {text rest : List Char}

/-- The text does not go on with a body, wherever that body has stopped. -/
def EndsBody (text : List Char) : Prop := ∀ c ∈ text.head?, ¬isHexDigit c ∧ c ≠ '.'

theorem endsBody_suffix (kind : Kind) (rest : List Char) : EndsBody (suffix kind :: rest) := by
  intro c first
  cases first
  cases kind <;> decide

private theorem endsBody_suffixText (kind : Option Kind) : EndsBody (suffixText kind) := by
  cases kind with
  | none => exact nofun
  | some kind => exact endsBody_suffix kind []

private theorem EndsBody.endsDigits (ends : EndsBody rest) : EndsDigits rest := by
  intro c first digit
  exact (ends c first).1 (by simp [isHexDigit, digit])

private theorem EndsBody.endsBefore (ends : EndsBody rest) (mantissa : Mantissa) : mantissa.EndsBefore rest :=
  ⟨ends.endsDigits, fun _ c first => (ends c first).2⟩

private theorem EndsBody.scanHex_eq (ends : EndsBody rest) (marker : Char) {digits : List Char} (nonempty : digits ≠ [])
    (run : ∀ c ∈ digits, isHexDigit c) :
    scanHex marker (digits ++ rest) = .ok ((BodyPieces.hex marker digits).node, rest) := by
  have stops : ∀ c ∈ rest.head?, ¬isHexDigit c := fun c first => (ends c first).1
  simp [scanHex, takeWhile_run run stops, dropWhile_run run stops, nonempty, BodyPieces.node, BodyPieces.text]

theorem isSuffix_iff {c : Char} : isSuffix c ↔ ∃ kind, c = suffix kind := by
  constructor
  · intro member
    simp only [isSuffix, List.contains_iff_mem, List.mem_cons, List.not_mem_nil, or_false] at member
    rcases member with rfl | rfl | rfl | rfl
    · exact ⟨.int32, rfl⟩
    · exact ⟨.int64, rfl⟩
    · exact ⟨.float, rfl⟩
    · exact ⟨.double, rfl⟩
  · rintro ⟨kind, rfl⟩
    cases kind <;> rfl

private theorem scanEnd_iff : scanEnd text = .ok nodes ↔ ∃ kind, text = suffixText kind ∧ nodes = endNodes text := by
  constructor
  · intro found
    unfold scanEnd at found
    split at found
    next =>
      cases found
      exact ⟨none, rfl, rfl⟩
    next c rest =>
      split at found
      next letter =>
        split at found
        next empty =>
          cases found
          obtain ⟨kind, rfl⟩ := isSuffix_iff.mp letter
          obtain rfl := List.isEmpty_iff.mp empty
          exact ⟨some kind, rfl, rfl⟩
        next => cases found
      next => cases found
  · rintro ⟨kind, rfl, rfl⟩
    rcases kind with _ | kind
    · rfl
    · cases kind <;> rfl

theorem mem_optional_typeSuffix : text ∈ Grammar.optional Grammar.typeSuffix ↔ ∃ kind, text = suffixText kind := by
  constructor
  · rintro (rfl | ⟨c, letter, rfl⟩)
    · exact ⟨none, rfl⟩
    · simp only [List.mem_cons, List.not_mem_nil, or_false] at letter
      rcases letter with rfl | rfl | rfl | rfl
      · exact ⟨some .int32, rfl⟩
      · exact ⟨some .int64, rfl⟩
      · exact ⟨some .float, rfl⟩
      · exact ⟨some .double, rfl⟩
  · rintro ⟨kind, rfl⟩
    cases kind with
    | none => exact Or.inl rfl
    | some kind => exact Or.inr ⟨suffix kind, by cases kind <;> decide, rfl⟩

theorem isMarker_iff {c : Char} : isMarker c ↔ [c] ∈ Grammar.exponentMarker := by
  simp [isMarker, Grammar.mem_exponentMarker]

private theorem exists_marker {c : Char} (letter : [c] ∈ Grammar.exponentMarker) :
    ∃ marker : Marker, c.toLower = marker.letter := by
  rcases Grammar.mem_exponentMarker.mp letter with rfl | rfl | rfl | rfl
  · exact ⟨.e, rfl⟩
  · exact ⟨.e, rfl⟩
  · exact ⟨.d, rfl⟩
  · exact ⟨.d, rfl⟩

private theorem not_isDigit_of_exponentMarker {c : Char} (letter : [c] ∈ Grammar.exponentMarker) :
    ¬c.isDigit ∧ c ≠ '.' := by
  rcases Grammar.mem_exponentMarker.mp letter with rfl | rfl | rfl | rfl <;> decide

/-- The letters of exponents are hexadecimal digits. -/
theorem EndsBody.scanExponent_eq (ends : EndsBody rest) : scanExponent rest = .ok ([], rest) := by
  cases rest with
  | nil => rfl
  | cons c tail =>
    have unmarked : ¬isMarker c := by
      intro marked
      rcases Grammar.mem_exponentMarker.mp (isMarker_iff.mp marked) with rfl | rfl | rfl | rfl <;>
        exact absurd (ends _ rfl).1 (by decide)
    rw [scanExponent, if_neg unmarked]

theorem endsBefore_marker {c : Char} (letter : [c] ∈ Grammar.exponentMarker) (mantissa : Mantissa) (tail : List Char) :
    mantissa.EndsBefore (c :: tail) := by
  have other := not_isDigit_of_exponentMarker letter
  refine ⟨endsDigits_cons other.1, fun _ first member => ?_⟩
  cases member
  exact other.2

/-- Only an ampersand in front of the digits begins a hexadecimal literal. -/
theorem scanBody_of_mantissa {mantissa : Mantissa} (formed : mantissa.WellFormed) (rest : List Char) :
    scanBody (mantissa.text ++ rest) = scanDecimal (mantissa.text ++ rest) := by
  obtain ⟨c, tail, text, begins⟩ := Mantissa.text_begins formed
  have other : c ≠ '&' := fun same => absurd (same ▸ begins) (by unfold BeginsMantissa; decide)
  rw [text, List.cons_append, scanBody]
  · exact fun tail same => other (List.cons.inj same).1
  · exact fun tail same => other (List.cons.inj same).1

theorem scanBody_of_hexMarker {marker : Char} (letter : [marker] ∈ Grammar.hexMarker) (tail : List Char) :
    scanBody ('&' :: marker :: tail) = scanHex marker tail := by
  rcases Grammar.mem_hexMarker.mp letter with rfl | rfl <;> rfl

theorem scanBody_cases (text : List Char) :
    (∃ marker tail, [marker] ∈ Grammar.hexMarker ∧ text = '&' :: marker :: tail ∧ scanBody text = scanHex marker tail) ∨
      scanBody text = scanDecimal text := by
  unfold scanBody
  split
  · exact Or.inl ⟨'h', _, Grammar.mem_hexMarker.mpr (.inl rfl), rfl, rfl⟩
  · exact Or.inl ⟨'H', _, Grammar.mem_hexMarker.mpr (.inr rfl), rfl, rfl⟩
  · exact Or.inr rfl

theorem scanBody_text {pieces : BodyPieces} (formed : pieces.WellFormed) (ends : EndsBody rest) :
    scanBody (pieces.text ++ rest) = .ok (pieces.node, rest) := by
  cases formed with
  | hex letter run =>
    obtain ⟨nonempty, run⟩ := Grammar.mem_hexDigits.mp run
    rw [BodyPieces.text, List.cons_append, List.cons_append, scanBody_of_hexMarker letter,
      ends.scanHex_eq _ nonempty run]
  | plain legal =>
    obtain ⟨mantissa, front, rfl⟩ := Grammar.mem_mantissa_iff.mp legal
    have split := Mantissa.split?_text front (ends.endsBefore mantissa)
    rw [BodyPieces.text, scanBody_of_mantissa front]
    simp [scanDecimal, split, ends.scanExponent_eq, Except.map, BodyPieces.node, BodyPieces.text]
  | @scaled _ letter _ legal marked behind =>
    obtain ⟨mantissa, front, rfl⟩ := Grammar.mem_mantissa_iff.mp legal
    obtain ⟨exponent, formed, rfl⟩ := Grammar.mem_exponentValue_iff.mp behind
    have split := Mantissa.split?_text front (endsBefore_marker marked mantissa (exponent.text ++ rest))
    have value := Exponent.split?_text formed ends.endsDigits
    have letter : isMarker letter := isMarker_iff.mpr marked
    rw [BodyPieces.text, List.append_assoc, List.cons_append, scanBody_of_mantissa front]
    simp [scanDecimal, split, scanExponent, letter, value, Except.map, BodyPieces.node, BodyPieces.text, exponentNode,
      Node.text]

private theorem of_scanExponent (found : scanExponent text = .ok (nodes, rest)) :
    (nodes = [] ∧ text = rest) ∨
      ∃ letter value, [letter] ∈ Grammar.exponentMarker ∧ value ∈ Grammar.exponentValue ∧
        nodes = [exponentNode letter value] ∧ text = letter :: (value ++ rest) := by
  unfold scanExponent at found
  split at found
  next =>
    cases found
    exact Or.inl ⟨rfl, rfl⟩
  next letter tail =>
    split at found
    next marked =>
      split at found
      next => cases found
      next value behind split =>
        cases found
        obtain ⟨formed, rfl⟩ := Exponent.of_split? split
        have legal : value.text ∈ Grammar.exponentValue := Grammar.mem_exponentValue_iff.mpr ⟨value, formed, rfl⟩
        exact Or.inr ⟨letter, value.text, isMarker_iff.mp marked, legal, rfl, rfl⟩
    next =>
      cases found
      exact Or.inl ⟨rfl, rfl⟩

private theorem of_scanDecimal (found : scanDecimal text = .ok (node, rest)) :
    ∃ pieces : BodyPieces, pieces.WellFormed ∧ node = pieces.node ∧ text = pieces.text ++ rest := by
  unfold scanDecimal at found
  split at found
  next => cases found
  next mantissa behind split =>
    obtain ⟨front, rfl⟩ := Mantissa.of_split? split
    have legal : mantissa.text ∈ Grammar.mantissa := Grammar.mem_mantissa_iff.mpr ⟨mantissa, front, rfl⟩
    cases scanned : scanExponent behind with
    | error => rw [scanned] at found; cases found
    | ok result =>
      rw [scanned] at found
      cases found
      obtain ⟨nodes, rest⟩ := result
      rcases of_scanExponent scanned with ⟨rfl, rfl⟩ | ⟨letter, value, marked, power, rfl, rfl⟩
      · refine ⟨.plain mantissa.text, .plain legal, ?_, rfl⟩
        simp [BodyPieces.node, BodyPieces.text]
      · refine ⟨.scaled mantissa.text letter value, .scaled legal marked power, ?_, ?_⟩
        · simp [BodyPieces.node, BodyPieces.text, exponentNode, Node.text]
        · rw [BodyPieces.text, List.append_assoc, List.cons_append]

private theorem of_scanHex {marker : Char} (found : scanHex marker text = .ok (node, rest)) :
    ∃ digits ∈ Grammar.hexDigits, node = (BodyPieces.hex marker digits).node ∧ text = digits ++ rest := by
  unfold scanHex at found
  dsimp only at found
  split at found
  next => cases found
  next nonempty =>
    cases found
    refine ⟨_, Grammar.mem_hexDigits.mpr ⟨by simpa using nonempty, ?_⟩, rfl, List.takeWhile_append_dropWhile.symm⟩
    exact fun c member => List.all_eq_true.mp List.all_takeWhile c member

theorem of_scanBody (found : scanBody text = .ok (node, rest)) :
    ∃ pieces : BodyPieces, pieces.WellFormed ∧ node = pieces.node ∧ text = pieces.text ++ rest := by
  rcases scanBody_cases text with ⟨marker, tail, letter, rfl, hexadecimal⟩ | decimal
  · rw [hexadecimal] at found
    obtain ⟨digits, run, rfl, rfl⟩ := of_scanHex found
    exact ⟨.hex marker digits, .hex letter run, rfl, rfl⟩
  · rw [decimal] at found
    exact of_scanDecimal found

private theorem BodyPieces.WellFormed.exists_denotes {pieces : BodyPieces} (formed : pieces.WellFormed) :
    ∃ body, pieces.Denotes body := by
  cases formed with
  | hex => exact ⟨_, .hex _ _⟩
  | plain front =>
    obtain ⟨mantissa, formed, rfl⟩ := Grammar.mem_mantissa_iff.mp front
    exact ⟨_, .plain formed⟩
  | @scaled _ letter _ front legal behind =>
    obtain ⟨mantissa, formed, rfl⟩ := Grammar.mem_mantissa_iff.mp front
    obtain ⟨exponent, value, rfl⟩ := Grammar.mem_exponentValue_iff.mp behind
    obtain ⟨marker, marked⟩ := exists_marker legal
    exact ⟨_, .scaled formed marked value⟩

theorem splitSign_body {pieces : BodyPieces} (formed : pieces.WellFormed) (rest : List Char) :
    splitSign (pieces.text ++ rest) = (none, pieces.text ++ rest) := by
  obtain ⟨body, denotes⟩ := formed.exists_denotes
  cases denotes with
  | hex => rfl
  | plain front =>
    obtain ⟨c, tail, text, begins⟩ := Mantissa.text_begins front
    rw [BodyPieces.text, text, List.cons_append]
    exact splitSign_of_beginsMantissa _ begins
  | scaled front =>
    obtain ⟨c, tail, text, begins⟩ := Mantissa.text_begins front
    rw [BodyPieces.text, text, List.cons_append, List.cons_append]
    exact splitSign_of_beginsMantissa _ begins

theorem exists_splitSign {sign : List Char} (legal : sign ∈ Grammar.optional Grammar.sign)
    (unsigned : splitSign rest = (none, rest)) : ∃ mark, splitSign (sign ++ rest) = (mark, rest) ∧ signText mark = sign := by
  rcases Grammar.mem_optional_sign.mp legal with rfl | rfl | rfl
  · exact ⟨none, unsigned, rfl⟩
  · exact ⟨some false, rfl, rfl⟩
  · exact ⟨some true, rfl, rfl⟩

theorem signText_splitSign (text : List Char) : signText (splitSign text).1 ++ (splitSign text).2 = text := by
  unfold splitSign
  split <;> rfl

private theorem scanNodes_iff :
    scanNodes text = .ok nodes ↔ ∃ body rest behind, scanBody (splitSign text).2 = .ok (body, rest) ∧
      scanEnd rest = .ok behind ∧ nodes = [.node .literal text (signNodes (splitSign text).1 ++ body :: behind)] := by
  unfold scanNodes
  constructor
  · intro found
    cases bodyRead : scanBody (splitSign text).2 with
    | error => simp [bodyRead, bind, Except.bind] at found
    | ok result =>
      cases endRead : scanEnd result.2 with
      | error => simp [bodyRead, endRead, bind, Except.bind] at found
      | ok behind =>
        simp only [bodyRead, endRead, bind, Except.bind, pure, Except.pure] at found
        cases found
        exact ⟨result.1, result.2, behind, rfl, endRead, rfl⟩
  · rintro ⟨body, rest, behind, bodyRead, endRead, rfl⟩
    simp [bodyRead, endRead, bind, Except.bind, pure, Except.pure]

variable {pieces : Pieces} {parts : Parts}

private theorem scanNodes_text (formed : pieces.WellFormed) : scanNodes pieces.text = .ok [pieces.node] := by
  obtain ⟨mark, split, sign⟩ := exists_splitSign formed.sign (splitSign_body formed.body pieces.suffix)
  obtain ⟨kind, behind⟩ := mem_optional_typeSuffix.mp formed.suffix
  have ends : EndsBody pieces.suffix := behind ▸ endsBody_suffixText kind
  rw [← List.append_assoc, ← Pieces.text] at split
  refine scanNodes_iff.mpr ⟨pieces.body.node, pieces.suffix, endNodes pieces.suffix, ?_, ?_, ?_⟩
  · rw [split]
    exact scanBody_text formed.body ends
  · exact scanEnd_iff.mpr ⟨kind, behind, rfl⟩
  · rw [split, signNodes_eq, sign, Pieces.node]

private theorem of_scanNodes (found : scanNodes text = .ok nodes) :
    ∃ pieces : Pieces, pieces.WellFormed ∧ text = pieces.text ∧ nodes = [pieces.node] := by
  obtain ⟨body, rest, behind, bodyRead, endRead, rfl⟩ := scanNodes_iff.mp found
  obtain ⟨pieces, formed, rfl, middle⟩ := of_scanBody bodyRead
  obtain ⟨kind, suffix, rfl⟩ := scanEnd_iff.mp endRead
  have whole : text = Pieces.text ⟨signText (splitSign text).1, pieces, rest⟩ := by
    rw [Pieces.text, List.append_assoc, ← middle, signText_splitSign]
  have sign : signText (splitSign text).1 ∈ Grammar.optional Grammar.sign := Grammar.mem_optional_sign_iff.mpr ⟨_, rfl⟩
  refine ⟨_, ⟨sign, formed, mem_optional_typeSuffix.mpr ⟨kind, suffix⟩⟩, whole, ?_⟩
  rw [Pieces.node, ← whole, signNodes_eq]

theorem Pieces.WellFormed.exists_denotes (formed : pieces.WellFormed) : ∃ parts, pieces.Denotes parts := by
  obtain ⟨body, denotes⟩ := formed.body.exists_denotes
  obtain ⟨kind, behind⟩ := mem_optional_typeSuffix.mp formed.suffix
  exact ⟨⟨decide (pieces.sign = ['-']), body, kind⟩, decide_eq_true_iff, denotes, behind⟩

theorem scan_text (formed : pieces.WellFormed) (denotes : pieces.Denotes parts) : scan pieces.text = .ok parts := by
  rw [scan, scanNodes_text formed]
  exact Pieces.ofNodes_node formed denotes

theorem of_scan (found : scan text = .ok parts) :
    ∃ pieces : Pieces, pieces.WellFormed ∧ text = pieces.text ∧ pieces.Denotes parts := by
  cases scanned : scanNodes text with
  | error => rw [scan, scanned] at found; cases found
  | ok nodes =>
    obtain ⟨pieces, formed, rfl, -⟩ := of_scanNodes scanned
    obtain ⟨others, denotes⟩ := formed.exists_denotes
    have same := scan_text formed denotes
    rw [found] at same
    cases same
    exact ⟨pieces, formed, rfl, denotes⟩

private theorem scan_of_stuck (stuck : scanNodes text = .error rest) :
    scan text = .error (.unexpectedInput (column text rest)) := by
  rw [scan, stuck]

theorem scanNodes_error_iff : (∃ rest, scanNodes text = .error rest) ↔ text ∉ Grammar.literal := by
  rw [mem_literal_iff]
  constructor
  · rintro ⟨rest, stuck⟩ ⟨pieces, formed, rfl⟩
    rw [scanNodes_text formed] at stuck
    cases stuck
  · intro outside
    cases scanned : scanNodes text with
    | error rest => exact ⟨rest, rfl⟩
    | ok nodes =>
      obtain ⟨pieces, formed, whole, -⟩ := of_scanNodes scanned
      exact absurd ⟨pieces, formed, whole⟩ outside

/-- A text that is cut, as the grammar does, into pieces that denote the parts. -/
def Parts.Spells (parts : Parts) (text : String) : Prop :=
  ∃ pieces : Pieces, pieces.WellFormed ∧ pieces.Denotes parts ∧ text.toList = pieces.text

theorem spells_iff {text : String} : parts.Spells text ↔ scan text.toList = .ok parts := by
  constructor
  · rintro ⟨pieces, formed, denotes, whole⟩
    rw [whole, scan_text formed denotes]
  · intro found
    obtain ⟨pieces, formed, whole, denotes⟩ := of_scan found
    exact ⟨pieces, formed, denotes, whole⟩

private theorem exists_scan_iff : (∃ parts, scan text = .ok parts) ↔ text ∈ Grammar.literal := by
  rw [mem_literal_iff]
  constructor
  · rintro ⟨parts, found⟩
    obtain ⟨pieces, formed, whole, -⟩ := of_scan found
    exact ⟨pieces, formed, whole⟩
  · rintro ⟨pieces, formed, rfl⟩
    obtain ⟨parts, denotes⟩ := formed.exists_denotes
    exact ⟨parts, scan_text formed denotes⟩

theorem not_mem_of_scan_error {reason : Reason} (failed : scan text = .error reason) : text ∉ Grammar.literal := by
  intro legal
  obtain ⟨parts, found⟩ := exists_scan_iff.mpr legal
  rw [failed] at found
  cases found

private theorem BodyPieces.Denotes.length_eq {left right : BodyPieces} {body : Body} (one : left.Denotes body)
    (other : right.Denotes body) : left.text.length = right.text.length := by
  cases one <;> cases other <;> simp [BodyPieces.text]

private theorem BodyPieces.Denotes.eq_of_text {left right : BodyPieces} {body : Body} (one : left.Denotes body)
    (other : right.Denotes body) (same : left.text = right.text) : left = right := by
  cases one with
  | hex marker digits =>
    cases other
    cases same
    rfl
  | plain =>
    cases other
    rfl
  | scaled =>
    cases other
    rw [(List.cons.inj (List.append_cancel_left same)).1]

/-- The same parts leave a sign of the same length, so the pieces end at the same places. -/
theorem Pieces.Denotes.eq_of_text {other : Pieces} (one : pieces.Denotes parts) (two : other.Denotes parts)
    (same : pieces.text = other.text) : pieces = other := by
  have suffixes : pieces.suffix = other.suffix := one.suffix.trans two.suffix.symm
  rw [Pieces.text, Pieces.text, suffixes] at same
  obtain ⟨signs, bodies⟩ := List.append_inj' (List.append_cancel_right same) (one.body.length_eq two.body)
  have body := one.body.eq_of_text two.body bodies
  cases pieces
  cases other
  cases signs
  cases body
  cases suffixes
  rfl

private theorem denotes_of_scan (found : scan text = .ok parts) (formed : pieces.WellFormed)
    (whole : text = pieces.text) : pieces.Denotes parts := by
  obtain ⟨others, denotes⟩ := formed.exists_denotes
  have read := scan_text formed denotes
  rw [← whole, found] at read
  cases read
  exact denotes

theorem parse_of_stuck {text : String} (stuck : scanNodes text.toList = .error rest) (settings : Settings) :
    parse settings text = .error ⟨none, text, .unexpectedInput (column text.toList rest)⟩ := by
  rw [parse, read, readChars, scan_of_stuck stuck]
  rfl

/-- Scanning accepts the language of literals. There is one way to cut an accepted text as the grammar does, and the
parts are those that its pieces denote. A text outside of the language is an error of no kind, whatever the settings. -/
theorem scan_literal (text : String) :
    ((∃ parts, scan text.toList = .ok parts) ↔ text.toList ∈ Grammar.literal) ∧
      (∀ parts, scan text.toList = .ok parts →
        ∃ pieces : Pieces, (∀ other : Pieces, other.WellFormed ∧ text.toList = other.text ↔ other = pieces) ∧
          ∀ others, pieces.Denotes others ↔ others = parts) ∧
      (text.toList ∉ Grammar.literal → ∀ settings,
        ∃ column, parse settings text = .error ⟨none, text, .unexpectedInput column⟩) := by
  refine ⟨exists_scan_iff, fun parts found => ?_, fun outside settings => ?_⟩
  · obtain ⟨pieces, formed, whole, denotes⟩ := of_scan found
    refine ⟨pieces, fun other => ⟨fun ⟨otherFormed, otherWhole⟩ => ?_, ?_⟩, fun others => ⟨fun also => ?_, ?_⟩⟩
    · exact (denotes_of_scan found otherFormed otherWhole).eq_of_text denotes (otherWhole.symm.trans whole)
    · rintro rfl
      exact ⟨formed, whole⟩
    · have read := scan_text formed also
      rw [← whole, found] at read
      exact (Except.ok.inj read).symm
    · rintro rfl
      exact denotes
  · obtain ⟨rest, stuck⟩ := scanNodes_error_iff.mpr outside
    exact ⟨_, parse_of_stuck stuck settings⟩

/-- An ampersand in front and behind, and an exponent that has begun. -/
theorem scan_literal_ampersands :
    (scan "&hFe&".toList = .ok ⟨false, .hex ['F', 'e'], some .int64⟩ ∧
      ∃ pieces : Pieces, (∀ other : Pieces, other.WellFormed ∧ "&hFe&".toList = other.text ↔ other = pieces) ∧
        ∀ others, pieces.Denotes others ↔ others = ⟨false, .hex ['F', 'e'], some .int64⟩) ∧
    "1e&".toList ∉ Grammar.literal ∧
      ∃ column, parse .standard "1e&" = .error ⟨none, "1e&", .unexpectedInput column⟩ := by
  have accepted : scan "&hFe&".toList = .ok ⟨false, .hex ['F', 'e'], some .int64⟩ := by decide
  have failed : scan "1e&".toList = .error (.unexpectedInput 3) := by decide
  have outside : "1e&".toList ∉ Grammar.literal := not_mem_of_scan_error failed
  exact ⟨⟨accepted, (scan_literal "&hFe&").2.1 _ accepted⟩, outside, (scan_literal "1e&").2.2 outside .standard⟩

end ScriptNumbers.Literal
