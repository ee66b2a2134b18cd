import ScriptNumbers.Proofs.LiteralBoundaries
import ScriptNumbers.Proofs.LiteralScan

/-! The column on which a text outside of the grammar is blamed. It lies behind the longest prefix that ends where a piece
of a literal may end: every piece that the scanner takes ends there, and what such a prefix asks for the scanner has taken
when it is stuck. -/

namespace ScriptNumbers.Literal

open Numeral

variable {text rest tail : List Char}

/-- The text that a scanner has not taken, whether or not it is stuck there. -/
def leftover {α : Type} : Except (List Char) (α × List Char) → List Char
  | .error rest => rest
  | .ok (_, rest) => rest

private theorem leftover_scanHex (marker : Char) (text : List Char) :
    leftover (scanHex marker text) = text.dropWhile isHexDigit := by
  unfold scanHex
  dsimp only
  split
  next none =>
    have joined := List.takeWhile_append_dropWhile (p := isHexDigit) (l := text)
    rw [List.isEmpty_iff.mp none, List.nil_append] at joined
    exact joined.symm
  next => rfl

/-- The text behind an exponent value, and all of it if there is none in front. -/
def behindExponent (text : List Char) : List Char := ((Exponent.split? text).map Prod.snd).getD text

private theorem behindExponent_suffix (text : List Char) : behindExponent text <:+ text := by
  unfold behindExponent
  cases split : Exponent.split? text with
  | none => exact List.suffix_rfl
  | some result =>
    rw [(Exponent.of_split? split).2]
    exact List.suffix_append _ _

private theorem leftover_scanExponent_marker {letter : Char} (legal : [letter] ∈ Grammar.exponentMarker)
    (tail : List Char) : leftover (scanExponent (letter :: tail)) = behindExponent tail := by
  rw [scanExponent, behindExponent, if_pos (isMarker_iff.mpr legal)]
  cases Exponent.split? tail <;> rfl

private theorem leftover_scanExponent_suffix (text : List Char) : leftover (scanExponent text) <:+ text := by
  cases text with
  | nil => exact List.suffix_rfl
  | cons c tail =>
    by_cases marked : isMarker c
    · rw [leftover_scanExponent_marker (isMarker_iff.mp marked)]
      exact (behindExponent_suffix tail).trans (List.suffix_cons c tail)
    · rw [scanExponent, if_neg marked]
      exact List.suffix_rfl

private theorem leftover_scanDecimal {mantissa : Mantissa} (split : Mantissa.split? text = some (mantissa, rest)) :
    leftover (scanDecimal text) = leftover (scanExponent rest) := by
  simp only [scanDecimal, split]
  cases scanExponent rest <;> rfl

private theorem leftover_scanDecimal_suffix (text : List Char) : leftover (scanDecimal text) <:+ text := by
  cases split : Mantissa.split? text with
  | none => simp [scanDecimal, split, leftover]
  | some result =>
    rw [leftover_scanDecimal split, (Mantissa.of_split? split).2]
    exact (leftover_scanExponent_suffix _).trans (List.suffix_append _ _)

private theorem leftover_scanBody_suffix (text : List Char) : leftover (scanBody text) <:+ text := by
  rcases scanBody_cases text with ⟨marker, tail, -, rfl, hexadecimal⟩ | decimal
  · rw [hexadecimal, leftover_scanHex]
    exact (List.dropWhile_suffix _).trans (List.suffix_append ['&', marker] tail)
  · rw [decimal]
    exact leftover_scanDecimal_suffix text

private theorem leftover_scanBody_of_marked {mantissa : Mantissa} (formed : mantissa.WellFormed) {letter : Char}
    (legal : [letter] ∈ Grammar.exponentMarker) (tail : List Char) :
    leftover (scanBody (mantissa.text ++ letter :: tail)) = behindExponent tail := by
  have split := Mantissa.split?_text formed (endsBefore_marker legal mantissa tail)
  rw [scanBody_of_mantissa formed, leftover_scanDecimal split]
  exact leftover_scanExponent_marker legal tail

/-- A beginning of a body is taken, so what is left when scanning stops lies behind it. -/
theorem leftover_scanBody_of_start {start : List Char} (begins : Grammar.BodyStart start) (tail : List Char) :
    leftover (scanBody (start ++ tail)) <:+ tail := by
  cases begins with
  | nothing => exact leftover_scanBody_suffix tail
  | based letter =>
    rw [List.cons_append, List.singleton_append, scanBody_of_hexMarker letter, leftover_scanHex]
    exact List.dropWhile_suffix _
  | hex letter run =>
    rw [List.cons_append, List.cons_append, scanBody_of_hexMarker letter, leftover_scanHex,
      List.dropWhile_append_of_pos (Grammar.mem_hexDigits.mp run).2]
    exact List.dropWhile_suffix _
  | plain legal =>
    obtain ⟨mantissa, formed, rfl⟩ := Grammar.mem_mantissa_iff.mp legal
    obtain ⟨longer, rest, split, behind⟩ := Mantissa.split?_append formed tail
    rw [scanBody_of_mantissa formed, leftover_scanDecimal split]
    exact (leftover_scanExponent_suffix rest).trans behind
  | begun legal marked =>
    obtain ⟨mantissa, formed, rfl⟩ := Grammar.mem_mantissa_iff.mp legal
    rw [List.append_assoc, List.singleton_append, leftover_scanBody_of_marked formed marked]
    exact behindExponent_suffix tail
  | scaled legal marked power =>
    obtain ⟨mantissa, formed, rfl⟩ := Grammar.mem_mantissa_iff.mp legal
    obtain ⟨exponent, value, rfl⟩ := Grammar.mem_exponentValue_iff.mp power
    obtain ⟨longer, rest, split, behind⟩ := Exponent.split?_append value tail
    rw [List.append_assoc, List.cons_append, leftover_scanBody_of_marked formed marked, behindExponent, split]
    exact behind

/-- A text without its sign is stuck in the body or behind it. -/
def StuckAt (text rest : List Char) : Prop :=
  scanBody text = .error rest ∨ ∃ body behind, scanBody text = .ok (body, behind) ∧ scanEnd behind = .error rest

private theorem stuck_iff : scanNodes text = .error rest ↔ StuckAt (splitSign text).2 rest := by
  unfold scanNodes StuckAt
  cases bodyRead : scanBody (splitSign text).2 with
  | error => simp [bodyRead, bind, Except.bind]
  | ok result =>
    obtain ⟨body, behind⟩ := result
    cases endRead : scanEnd behind with
    | error => simp [bodyRead, endRead, bind, Except.bind]
    | ok suffix => simp [bodyRead, endRead, bind, Except.bind, pure, Except.pure]

private theorem of_scanEnd_error (stuck : scanEnd text = .error rest) : ∃ kind, text = suffixText kind ++ rest := by
  unfold scanEnd at stuck
  split at stuck
  next => cases stuck
  next c behind =>
    split at stuck
    next letter =>
      split at stuck
      next => cases stuck
      next =>
        cases stuck
        obtain ⟨kind, rfl⟩ := isSuffix_iff.mp letter
        exact ⟨some kind, rfl⟩
    next =>
      cases stuck
      exact ⟨none, rfl⟩

private theorem scanEnd_suffix (kind : Kind) (stuck : scanEnd (suffix kind :: tail) = .error rest) : rest = tail := by
  rw [scanEnd, if_pos (isSuffix_iff.mpr ⟨kind, rfl⟩)] at stuck
  split at stuck <;> cases stuck
  rfl

private theorem StuckAt.suffix_leftover (stuck : StuckAt text rest) : rest <:+ leftover (scanBody text) := by
  rcases stuck with inside | ⟨body, behind, bodyRead, endRead⟩
  · rw [inside]
    exact List.suffix_rfl
  · rw [bodyRead]
    obtain ⟨kind, rfl⟩ := of_scanEnd_error endRead
    exact List.suffix_append _ _

private theorem of_scanHex_error {marker : Char} (stuck : scanHex marker text = .error rest) : text = rest := by
  unfold scanHex at stuck
  dsimp only at stuck
  split at stuck <;> cases stuck
  rfl

private theorem of_scanExponent_error (stuck : scanExponent text = .error rest) :
    ∃ letter, [letter] ∈ Grammar.exponentMarker ∧ text = letter :: rest := by
  unfold scanExponent at stuck
  split at stuck
  next => cases stuck
  next letter tail =>
    split at stuck
    next marked =>
      split at stuck <;> cases stuck
      exact ⟨letter, isMarker_iff.mp marked, rfl⟩
    next => cases stuck

private theorem of_scanDecimal_error (stuck : scanDecimal text = .error rest) :
    ∃ front, Grammar.BodyStart front ∧ text = front ++ rest := by
  unfold scanDecimal at stuck
  split at stuck
  next =>
    cases stuck
    exact ⟨[], .nothing, rfl⟩
  next mantissa behind split =>
    obtain ⟨front, rfl⟩ := Mantissa.of_split? split
    have legal : mantissa.text ∈ Grammar.mantissa := Grammar.mem_mantissa_iff.mpr ⟨mantissa, front, rfl⟩
    cases scanned : scanExponent behind with
    | ok => rw [scanned] at stuck; cases stuck
    | error =>
      rw [scanned] at stuck
      cases stuck
      obtain ⟨letter, marked, rfl⟩ := of_scanExponent_error scanned
      exact ⟨mantissa.text ++ [letter], .begun legal marked, (List.append_assoc _ [letter] _).symm⟩

private theorem of_scanBody_error (stuck : scanBody text = .error rest) :
    ∃ front, Grammar.BodyStart front ∧ text = front ++ rest := by
  rcases scanBody_cases text with ⟨marker, tail, letter, rfl, hexadecimal⟩ | decimal
  · rw [hexadecimal] at stuck
    obtain rfl := of_scanHex_error stuck
    exact ⟨['&', marker], .based letter, rfl⟩
  · rw [decimal] at stuck
    exact of_scanDecimal_error stuck

private theorem exists_boundary_of_stuck (stuck : scanNodes text = .error rest) :
    ∃ front ∈ Grammar.boundary, text = front ++ rest := by
  have whole := signText_splitSign text
  have before : signText (splitSign text).1 ∈ Grammar.optional Grammar.sign := Grammar.mem_optional_sign_iff.mpr ⟨_, rfl⟩
  rcases stuck_iff.mp stuck with inside | ⟨body, behind, bodyRead, endRead⟩
  · obtain ⟨front, begins, middle⟩ := of_scanBody_error inside
    refine ⟨_, Or.inl (Language.append_mem_mul before (Grammar.mem_bodyStart_iff.mpr begins)), ?_⟩
    rw [List.append_assoc, ← middle, whole]
  · obtain ⟨pieces, formed, -, middle⟩ := of_scanBody bodyRead
    obtain ⟨kind, rfl⟩ := of_scanEnd_error endRead
    have ends := mem_optional_typeSuffix.mpr ⟨kind, rfl⟩
    refine ⟨_, Or.inr (mem_literal_iff.mpr ⟨⟨_, pieces, suffixText kind⟩, ⟨before, formed, ends⟩, rfl⟩), ?_⟩
    rw [Pieces.text, List.append_assoc, List.append_assoc, ← middle]
    exact whole.symm

private theorem splitSign_cons_iff {c : Char} : splitSign (c :: rest) = (none, c :: rest) ↔ c ≠ '+' ∧ c ≠ '-' := by
  unfold splitSign
  split <;> simp_all

/-- Completed, a beginning of a body is a body, which has no sign. -/
theorem splitSign_bodyStart {start : List Char} (begins : Grammar.BodyStart start) (some : start ≠ []) (tail : List Char) :
    splitSign (start ++ tail) = (none, start ++ tail) := by
  obtain ⟨behind, body, formed, complete⟩ := begins.exists_body
  have unsigned := splitSign_body formed []
  rw [← complete, List.append_nil] at unsigned
  cases start with
  | nil => exact absurd rfl some
  | cons c rest => exact splitSign_cons_iff.mpr (splitSign_cons_iff.mp unsigned)

private theorem splitSign_suffix (text : List Char) : (splitSign text).2 <:+ text := ⟨_, signText_splitSign text⟩

private theorem suffix_of_signed {sign start : List Char} (before : sign ∈ Grammar.optional Grammar.sign)
    (begins : Grammar.BodyStart start) (stuck : scanNodes (sign ++ start ++ tail) = .error rest) : rest <:+ tail := by
  have left := (stuck_iff.mp stuck).suffix_leftover
  rw [List.append_assoc] at left
  by_cases empty : start = []
  · rw [empty, List.nil_append] at left
    have behind : (splitSign (sign ++ tail)).2 <:+ tail := by
      rcases Grammar.mem_optional_sign.mp before with rfl | rfl | rfl
      · exact splitSign_suffix tail
      · exact List.suffix_rfl
      · exact List.suffix_rfl
    exact (left.trans (leftover_scanBody_suffix _)).trans behind
  · obtain ⟨mark, split, -⟩ := exists_splitSign before (splitSign_bodyStart begins empty tail)
    rw [split] at left
    exact left.trans (leftover_scanBody_of_start begins tail)

/-- A suffix is taken as well, and then only the end of the text is looked for. -/
theorem eq_of_suffixed {sign : List Char} (before : sign ∈ Grammar.optional Grammar.sign) {body : BodyPieces}
    (formed : body.WellFormed) (kind : Kind) (stuck : scanNodes (sign ++ (body.text ++ suffix kind :: tail)) = .error rest) :
    rest = tail := by
  obtain ⟨mark, split, -⟩ := exists_splitSign before (splitSign_body formed (suffix kind :: tail))
  have inside := stuck_iff.mp stuck
  have bodyRead := scanBody_text formed (endsBody_suffix kind tail)
  rw [split] at inside
  rcases inside with failed | ⟨other, behind, same, endRead⟩
  · rw [bodyRead] at failed
    cases failed
  · rw [bodyRead] at same
    cases same
    exact scanEnd_suffix kind endRead

/-- Scanning is not stuck before the end of any piece in front of the text. -/
theorem suffix_of_boundary {word : List Char} (legal : word ∈ Grammar.boundary) (stuck : scanNodes (word ++ tail) = .error rest) :
    rest <:+ tail := by
  rcases legal with ⟨sign, before, start, begins, rfl⟩ | whole
  · exact suffix_of_signed before (Grammar.mem_bodyStart_iff.mp begins) stuck
  · obtain ⟨⟨sign, body, ending⟩, ⟨before, formed, behind⟩, rfl⟩ := mem_literal_iff.mp whole
    obtain ⟨kind, rfl⟩ := mem_optional_typeSuffix.mp behind
    cases kind with
    | none =>
      rw [Pieces.text, suffixText, List.append_nil] at stuck
      exact suffix_of_signed before (Grammar.bodyStart_of_body formed) stuck
    | some kind =>
      rw [Pieces.text, suffixText, List.append_assoc, List.append_assoc] at stuck
      obtain rfl := eq_of_suffixed before formed kind stuck
      exact List.suffix_rfl

private theorem exists_longest_of_error (stuck : scanNodes text = .error rest) :
    ∃ front, IsLongestPrefix Grammar.boundary text front ∧ text = front ++ rest := by
  obtain ⟨front, legal, rfl⟩ := exists_boundary_of_stuck stuck
  refine ⟨front, ⟨legal, List.prefix_append front rest, ?_⟩, rfl⟩
  rintro word boundary ⟨tail, whole⟩
  rw [← whole] at stuck
  have behind := (suffix_of_boundary boundary stuck).length_le
  have lengths := congrArg List.length whole
  simp only [List.length_append] at lengths
  omega

/-- A text outside of the grammar is blamed on the character behind its longest prefix that ends where a piece of a literal
may end, whatever the settings. That prefix can be completed to a literal, no literal in front of the text is longer, and
what stands from a character on that is not plain does not matter to it. -/
theorem parse_column {text : String} (outside : text.toList ∉ Grammar.literal) :
    ∃ front, IsLongestPrefix Grammar.boundary text.toList front ∧
      (∀ settings, parse settings text = .error ⟨none, text, .unexpectedInput (1 + front.length)⟩) ∧
      front.length ≤ text.length ∧
      (∃ behind, front ++ behind ∈ Grammar.literal) ∧
      (∀ word ∈ Grammar.literal, word <+: text.toList → word.length ≤ front.length) ∧
      ∀ before c after, text.toList = before ++ c :: after → ¬Grammar.IsPlain c →
        IsLongestPrefix Grammar.boundary before front := by
  obtain ⟨rest, stuck⟩ := scanNodes_error_iff.mpr outside
  obtain ⟨front, longest, whole⟩ := exists_longest_of_error stuck
  have place : column text.toList rest = 1 + front.length := by
    rw [column, whole, List.length_append, Nat.add_sub_cancel, Nat.add_comm]
  refine ⟨front, longest, fun settings => ?_, ?_, Grammar.exists_mem_literal longest.legal, fun word legal => ?_, ?_⟩
  · rw [parse_of_stuck stuck, place]
  · rw [← String.length_toList]
    exact longest.inFront.length_le
  · exact longest.longest word (Or.inr legal)
  · intro before c after split other
    rw [split] at longest
    exact longest.of_foreign (not_mem_of_boundary other)

/-- An exponent that has begun, and behind its sign a letter that is not plain. -/
theorem parse_column_exponent :
    "-1.5e+é#".toList ∉ Grammar.literal ∧
    ∃ front, IsLongestPrefix Grammar.boundary "-1.5e+é#".toList front ∧ front.length = 5 ∧
      parse .standard "-1.5e+é#" = .error ⟨none, "-1.5e+é#", .unexpectedInput 6⟩ ∧
      IsLongestPrefix Grammar.boundary "-1.5e+".toList front := by
  have failed : scan "-1.5e+é#".toList = .error (.unexpectedInput 6) := by decide
  have read : parse .standard "-1.5e+é#" = .error ⟨none, "-1.5e+é#", .unexpectedInput 6⟩ := by decide
  have outside : "-1.5e+é#".toList ∉ Grammar.literal := not_mem_of_scan_error failed
  obtain ⟨front, longest, blamed, -, -, -, unread⟩ := parse_column outside
  have length : front.length = 5 := by
    have same := (blamed .standard).symm.trans read
    simp only [Except.error.injEq, ParseError.mk.injEq, Reason.unexpectedInput.injEq] at same
    omega
  exact ⟨outside, front, longest, length, read, unread "-1.5e+".toList 'é' ['#'] (by decide) (by decide)⟩

end ScriptNumbers.Literal
