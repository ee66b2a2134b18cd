import ScriptNumbers.Numeral.Floating
import ScriptNumbers.Numeral.Integer
import ScriptNumbers.Text.Blank

/-! Numerals read from left to right. A run of digits is taken whole, so what matters of the text behind a piece
is only that it does not go on with the piece. -/

namespace ScriptNumbers.Numeral

/-- A run of digits, possibly empty. -/
def Digits (text : List Char) : Prop := ∀ c ∈ text, c.isDigit

/-- The text does not begin with a digit. -/
def EndsDigits (text : List Char) : Prop := ∀ c ∈ text.head?, ¬c.isDigit

theorem Digits.append {left right : List Char} (leftDigits : Digits left) (rightDigits : Digits right) :
    Digits (left ++ right) := by
  intro c member
  exact (List.mem_append.mp member).elim (leftDigits c) (rightDigits c)

theorem digits_toDigits (value : Nat) : Digits (Decimal.toDigits value) :=
  fun _ member => Decimal.isDigit_of_mem_toDigits member

theorem digits_zeros (count : Nat) : Digits (List.replicate count '0') := by
  intro c member
  rw [List.eq_of_mem_replicate member]
  rfl

theorem endsDigits_nil : EndsDigits [] := nofun

theorem endsDigits_cons {c : Char} {rest : List Char} (other : ¬c.isDigit) : EndsDigits (c :: rest) := by
  intro first member
  cases member
  exact other

theorem takeWhile_run {p : Char → Bool} {run rest : List Char} (inside : ∀ c ∈ run, p c)
    (stops : ∀ c ∈ rest.head?, ¬p c) : (run ++ rest).takeWhile p = run := by
  rw [List.takeWhile_append_of_pos inside]
  cases rest with
  | nil => exact List.append_nil run
  | cons c rest => rw [List.takeWhile_cons_of_neg (stops c rfl), List.append_nil]

theorem dropWhile_run {p : Char → Bool} {run rest : List Char} (inside : ∀ c ∈ run, p c)
    (stops : ∀ c ∈ rest.head?, ¬p c) : (run ++ rest).dropWhile p = rest := by
  rw [List.dropWhile_append_of_pos inside]
  cases rest with
  | nil => rfl
  | cons c rest => exact List.dropWhile_cons_of_neg (stops c rfl)

theorem takeWhile_digits {digits rest : List Char} (run : Digits digits) (stops : EndsDigits rest) :
    (digits ++ rest).takeWhile Char.isDigit = digits :=
  takeWhile_run run stops

theorem dropWhile_digits {digits rest : List Char} (run : Digits digits) (stops : EndsDigits rest) :
    (digits ++ rest).dropWhile Char.isDigit = rest :=
  dropWhile_run run stops

theorem digits_takeWhile (text : List Char) : Digits (text.takeWhile Char.isDigit) :=
  fun _ member => List.all_eq_true.mp List.all_takeWhile _ member

theorem isDigit_ne {c other : Char} (digit : c.isDigit) (foreign : ¬other.isDigit) : c ≠ other :=
  fun same => foreign (same ▸ digit)

/-- A mantissa as the grammar has it: digits, and at least one of them. -/
structure Mantissa.WellFormed (mantissa : Mantissa) : Prop where
  whole : Digits mantissa.whole
  fraction : Digits (mantissa.fraction.getD [])
  some : mantissa.whole ++ mantissa.fraction.getD [] ≠ []

/-- A text behind which a mantissa ends. A second point does not go on with a mantissa that has one. -/
def Mantissa.EndsBefore (mantissa : Mantissa) (rest : List Char) : Prop :=
  EndsDigits rest ∧ (mantissa.fraction = none → ∀ c ∈ rest.head?, c ≠ '.')

private theorem Mantissa.endsBefore_nil (mantissa : Mantissa) :
    mantissa.EndsBefore [] :=
  ⟨endsDigits_nil, fun _ => nofun⟩

theorem Mantissa.split?_text {mantissa : Mantissa} {rest : List Char} (formed : mantissa.WellFormed)
    (ends : mantissa.EndsBefore rest) : Mantissa.split? (mantissa.text ++ rest) = .some (mantissa, rest) := by
  obtain ⟨whole, fraction⟩ := mantissa
  obtain ⟨wholeDigits, fractionDigits, some⟩ := formed
  cases fraction with
  | none =>
    have nonempty : whole.isEmpty = false := by simpa using some
    simp only [Mantissa.text, List.append_nil, Mantissa.split?, takeWhile_digits wholeDigits ends.1,
      dropWhile_digits wholeDigits ends.1]
    split
    next point => exact absurd rfl (ends.2 rfl '.' rfl)
    next => simp [nonempty]
  | some fraction =>
    have nonempty : (whole.isEmpty && fraction.isEmpty) = false := by
      simp only [Option.getD_some, ne_eq, List.append_eq_nil_iff] at some
      simpa using some
    have point : EndsDigits ('.' :: (fraction ++ rest)) := endsDigits_cons (by decide)
    have digits : Digits fraction := fractionDigits
    simp only [Mantissa.text, List.append_assoc, List.cons_append, Mantissa.split?, takeWhile_digits wholeDigits point,
      dropWhile_digits wholeDigits point, takeWhile_digits digits ends.1, dropWhile_digits digits ends.1, nonempty]
    rfl

theorem Mantissa.of_split? {mantissa : Mantissa} {text rest : List Char}
    (found : Mantissa.split? text = .some (mantissa, rest)) :
    mantissa.WellFormed ∧ text = mantissa.text ++ rest := by
  have whole := digits_takeWhile text
  have joined := List.takeWhile_append_dropWhile (p := Char.isDigit) (l := text)
  unfold Mantissa.split? at found
  dsimp only at found
  split at found
  next behind point =>
    rw [point] at joined
    have fraction := digits_takeWhile behind
    have fractionJoined := List.takeWhile_append_dropWhile (p := Char.isDigit) (l := behind)
    split at found
    next => cases found
    next some =>
      cases found
      refine ⟨⟨whole, fraction, by simpa using some⟩, ?_⟩
      rw [Mantissa.text, List.append_assoc, List.cons_append, fractionJoined, joined]
  next behind =>
    split at found
    next => cases found
    next some =>
      cases found
      refine ⟨⟨whole, nofun, by simpa using some⟩, ?_⟩
      rw [Mantissa.text, List.append_nil, joined]

theorem Mantissa.ofText_of_wellFormed {mantissa : Mantissa} (formed : mantissa.WellFormed) :
    ofText mantissa.text = mantissa := by
  obtain ⟨whole, fraction⟩ := mantissa
  have before : ∀ c ∈ whole, c != '.' := by
    intro c member
    simpa using isDigit_ne (formed.whole c member) (show ¬ '.'.isDigit by decide)
  cases fraction with
  | none =>
    have ends : ∀ c ∈ ([] : List Char).head?, ¬(c != '.') := nofun
    rw [ofText, Mantissa.text, takeWhile_run before ends, dropWhile_run before ends]
  | some fraction =>
    have point : ∀ c ∈ ('.' :: fraction).head?, ¬(c != '.') := by
      intro c first
      cases first
      decide
    rw [ofText, Mantissa.text, takeWhile_run before point, dropWhile_run before point]

/-- A mantissa in front is taken, and more only if the text goes on with it. -/
theorem Mantissa.split?_append {mantissa : Mantissa} (formed : mantissa.WellFormed) (tail : List Char) :
    ∃ longer rest, Mantissa.split? (mantissa.text ++ tail) = .some (longer, rest) ∧ rest <:+ tail := by
  have shorter : tail.dropWhile Char.isDigit <:+ tail := List.dropWhile_suffix _
  obtain ⟨whole, fraction⟩ := mantissa
  obtain ⟨wholeDigits, fractionDigits, some⟩ := formed
  cases fraction with
  | none =>
    have nonempty (more : List Char) : (whole ++ more).isEmpty = false := by
      simpa using fun none => absurd none (by simpa using some)
    simp only [Mantissa.text, List.append_nil, Mantissa.split?, List.takeWhile_append_of_pos wholeDigits,
      List.dropWhile_append_of_pos wholeDigits, nonempty, Bool.false_and]
    split
    next rest point =>
      have behind : rest <:+ tail := (List.suffix_cons '.' rest).trans (point ▸ shorter)
      exact ⟨_, _, rfl, (List.dropWhile_suffix _).trans behind⟩
    next => exact ⟨_, _, rfl, shorter⟩
  | some fraction =>
    have point : EndsDigits ('.' :: (fraction ++ tail)) := endsDigits_cons (by decide)
    have digits : Digits fraction := fractionDigits
    have nonempty (more : List Char) : (whole.isEmpty && (fraction ++ more).isEmpty) = false := by
      simp only [Option.getD_some, ne_eq, List.append_eq_nil_iff] at some
      simpa using fun none other => absurd ⟨none, other⟩ some
    simp only [Mantissa.text, List.append_assoc, List.cons_append, Mantissa.split?, takeWhile_digits wholeDigits point,
      dropWhile_digits wholeDigits point, List.takeWhile_append_of_pos digits, List.dropWhile_append_of_pos digits,
      nonempty]
    exact ⟨_, _, rfl, shorter⟩

def withSign (negative : Bool) (magnitude : Nat) : Int := if negative then -magnitude else magnitude

theorem le_ofDigitChars (digits : List Char) (start : Nat) : start ≤ Nat.ofDigitChars 10 digits start := by
  rw [Nat.ofDigitChars_eq_ofDigitChars_zero]
  have power : 0 < 10 ^ digits.length := Nat.pow_pos (by decide)
  exact Nat.le_trans (Nat.le_mul_of_pos_left start power) (Nat.le_add_right _ _)

/-- Digits grow away from zero, so a value that has left the bounds stays outside on the same side. -/
theorem checkRange_of_error {low high : Int} (around : low ≤ 0 ∧ 0 ≤ high) {negative : Bool} {early late : Nat}
    (grows : early ≤ late) {reason : Reason} (left : checkRange low high (withSign negative early) = .error reason) :
    checkRange low high (withSign negative late) = .error reason := by
  cases negative with
  | false =>
    simp only [checkRange, withSign, Bool.false_eq_true, if_false] at left ⊢
    rw [if_neg (by omega)] at left ⊢
    split at left
    next => rwa [if_pos (by omega)]
    next => cases left
  | true =>
    simp only [checkRange, withSign, if_true] at left ⊢
    split at left
    next => rwa [if_pos (by omega)]
    next =>
      rw [if_neg (by omega)] at left
      cases left

/-- Reading digits within bounds is one check of the final value. -/
theorem accumulate_digits {low high : Int} (around : low ≤ 0 ∧ 0 ≤ high) (negative : Bool) {digits : List Char}
    (run : Digits digits) {start : Nat}
    (inside : checkRange low high (withSign negative start) = .ok (withSign negative start)) :
    accumulate low high negative (withSign negative start) digits =
      checkRange low high (withSign negative (Nat.ofDigitChars 10 digits start)) := by
  induction digits generalizing start with
  | nil => rw [accumulate, Nat.ofDigitChars_nil, inside]
  | cons c rest ih =>
    have digit : c.isDigit := run c List.mem_cons_self
    have next : 10 * withSign negative start +
        (if negative then -(Decimal.digitValue c : Int) else (Decimal.digitValue c : Int)) =
        withSign negative (10 * start + Decimal.digitValue c) := by
      cases negative
      · simp [withSign]
      · simp only [withSign, if_true]
        omega
    rw [accumulate, if_pos digit]
    dsimp only
    rw [next, Nat.ofDigitChars_cons]
    change _ = checkRange low high (withSign negative (Nat.ofDigitChars 10 rest (10 * start + Decimal.digitValue c)))
    cases checked : checkRange low high (withSign negative (10 * start + Decimal.digitValue c)) with
    | error reason => exact (checkRange_of_error around (le_ofDigitChars rest _) checked).symm
    | ok value =>
      have same : value = withSign negative (10 * start + Decimal.digitValue c) := by
        unfold checkRange at checked
        split at checked
        next => cases checked
        next =>
          split at checked
          next => cases checked
          next => exact (Except.ok.inj checked).symm
      subst same
      exact ih (fun other member => run other (List.mem_cons_of_mem c member)) checked

private theorem unsigned_digits {low high : Int} (around : low ≤ 0 ∧ 0 ≤ high) (negative : Bool) {digits : List Char}
    (run : Digits digits) (some : digits ≠ []) :
    unsigned low high negative digits = checkRange low high (withSign negative (Decimal.ofDigits digits)) := by
  have zero : withSign negative 0 = 0 := by cases negative <;> rfl
  have inside : checkRange low high (withSign negative 0) = .ok (withSign negative 0) := by
    rw [zero, checkRange, if_neg (by omega), if_neg (by omega)]
  have start := accumulate_digits around negative run inside
  rw [zero] at start
  cases digits with
  | nil => exact absurd rfl some
  | cons c rest => exact start

theorem integer_negative {low high : Int} (around : low ≤ 0 ∧ 0 ≤ high) {digits : List Char} (run : Digits digits)
    (some : digits ≠ []) :
    integer low high ('-' :: digits) = checkRange low high (withSign true (Decimal.ofDigits digits)) :=
  unsigned_digits around true run some

theorem integer_digits {low high : Int} (around : low ≤ 0 ∧ 0 ≤ high) {digits : List Char} (run : Digits digits)
    (some : digits ≠ []) :
    integer low high digits = checkRange low high (withSign false (Decimal.ofDigits digits)) := by
  rw [← unsigned_digits around false run some]
  cases digits with
  | nil => exact absurd rfl some
  | cons c rest =>
    have digit : c.isDigit := run c List.mem_cons_self
    have plus := isDigit_ne digit (show ¬ '+'.isDigit by decide)
    have minus := isDigit_ne digit (show ¬ '-'.isDigit by decide)
    rw [integer]
    · exact nofun
    · exact fun tail same => plus (List.cons.inj same).1
    · exact fun tail same => minus (List.cons.inj same).1

/-- A character with which a mantissa may begin. -/
def BeginsMantissa (c : Char) : Prop := c.isDigit ∨ c = '.'

private theorem toLower_of_beginsMantissa {c : Char} (begins : BeginsMantissa c) : c.toLower = c := by
  rcases begins with digit | rfl
  · have upper := (Char.isDigit_iff_toNat.mp digit).2
    have small : ¬(c.val ≥ 'A'.val ∧ c.val ≤ 'Z'.val) := by
      rintro ⟨letter, -⟩
      rw [ge_iff_le, UInt32.le_iff_toNat_le] at letter
      exact absurd (Nat.le_trans letter upper) (by decide)
    exact dif_neg small
  · rfl

private theorem named?_eq_none {format : Format} (negative : Bool) {c : Char} (rest : List Char)
    (begins : BeginsMantissa c) : (named? negative (c :: rest) : Option (Binary format)) = none := by
  have other {letter : Char} (foreign : ¬BeginsMantissa letter) : c ≠ letter := fun same => foreign (same ▸ begins)
  have infinite : c ≠ 'i' := other (by unfold BeginsMantissa; decide)
  have unordered : c ≠ 'n' := other (by unfold BeginsMantissa; decide)
  simp [named?, toLower_of_beginsMantissa begins, infinite, unordered]

theorem splitSign_of_beginsMantissa {c : Char} (rest : List Char) (begins : BeginsMantissa c) :
    splitSign (c :: rest) = (none, c :: rest) := by
  have other {letter : Char} (foreign : ¬BeginsMantissa letter) : c ≠ letter := fun same => foreign (same ▸ begins)
  rw [splitSign]
  · exact fun tail same => other (by unfold BeginsMantissa; decide) (List.cons.inj same).1
  · exact fun tail same => other (by unfold BeginsMantissa; decide) (List.cons.inj same).1

/-- An exponent as the grammar has it: a sign or none, and at least one digit. -/
structure Exponent.WellFormed (exponent : Exponent) : Prop where
  digits : Digits exponent.digits
  some : exponent.digits ≠ []

theorem splitSign_text {exponent : Exponent} {rest : List Char} (digit : Digits exponent.digits)
    (some : exponent.digits ≠ []) :
    splitSign (exponent.text ++ rest) = (exponent.sign, exponent.digits ++ rest) := by
  obtain ⟨sign, run⟩ := exponent
  rcases sign with _ | _ | _
  · cases run with
    | nil => exact absurd rfl some
    | cons c run => exact splitSign_of_beginsMantissa _ (Or.inl (digit c List.mem_cons_self))
  · rfl
  · rfl

theorem Exponent.split?_text {exponent : Exponent} {rest : List Char} (formed : exponent.WellFormed)
    (stops : EndsDigits rest) : Exponent.split? (exponent.text ++ rest) = .some (exponent, rest) := by
  have nonempty : exponent.digits.isEmpty = false := by simpa using formed.some
  simp [Exponent.split?, splitSign_text formed.digits formed.some, takeWhile_digits formed.digits stops,
    dropWhile_digits formed.digits stops, nonempty]

theorem Exponent.ofText_of_wellFormed {exponent : Exponent} (formed : exponent.WellFormed) :
    ofText exponent.text = exponent := by
  have split : splitSign (exponent.text ++ []) = _ := splitSign_text formed.digits formed.some
  rw [List.append_nil, List.append_nil] at split
  rw [ofText, split]

theorem text_splitSign (text : List Char) : Exponent.text ⟨(splitSign text).1, (splitSign text).2⟩ = text := by
  unfold splitSign
  split <;> rfl

theorem Exponent.text_append (sign : Option Bool) (digits rest : List Char) :
    Exponent.text ⟨sign, digits ++ rest⟩ = Exponent.text ⟨sign, digits⟩ ++ rest := by
  rcases sign with _ | _ | _ <;> rfl

theorem Exponent.of_split? {exponent : Exponent} {text rest : List Char}
    (found : Exponent.split? text = .some (exponent, rest)) :
    exponent.WellFormed ∧ text = exponent.text ++ rest := by
  have joined := text_splitSign text
  unfold Exponent.split? at found
  dsimp only at found
  split at found
  next => cases found
  next some =>
    cases found
    refine ⟨⟨digits_takeWhile _, by simpa using some⟩, ?_⟩
    rw [← Exponent.text_append, List.takeWhile_append_dropWhile, joined]

theorem Exponent.split?_append {exponent : Exponent} (formed : exponent.WellFormed) (tail : List Char) :
    ∃ longer rest, Exponent.split? (exponent.text ++ tail) = .some (longer, rest) ∧ rest <:+ tail := by
  have nonempty (more : List Char) : (exponent.digits ++ more).isEmpty = false := by
    simpa using fun none => absurd none formed.some
  simp only [Exponent.split?, splitSign_text formed.digits formed.some, List.takeWhile_append_of_pos formed.digits,
    List.dropWhile_append_of_pos formed.digits, nonempty]
  exact ⟨_, _, rfl, List.dropWhile_suffix _⟩

theorem Mantissa.text_begins {mantissa : Mantissa} (formed : mantissa.WellFormed) :
    ∃ c rest, mantissa.text = c :: rest ∧ BeginsMantissa c := by
  obtain ⟨whole, fraction⟩ := mantissa
  cases whole with
  | cons c whole => exact ⟨c, _, rfl, Or.inl (formed.whole c List.mem_cons_self)⟩
  | nil =>
    cases fraction with
    | none => exact absurd rfl formed.some
    | some fraction => exact ⟨'.', fraction, rfl, Or.inr rfl⟩

theorem decimal?_text {mantissa : Mantissa} (formed : mantissa.WellFormed) :
    decimal? mantissa.text = some (mantissa.scaled 0) := by
  have split := Mantissa.split?_text formed mantissa.endsBefore_nil
  rw [List.append_nil] at split
  rw [decimal?, split]
  rfl

/-- A sign as it is written. -/
def signText : Option Bool → List Char
  | none => []
  | some false => ['+']
  | some true => ['-']

theorem Exponent.text_eq_append (exponent : Exponent) : exponent.text = signText exponent.sign ++ exponent.digits := by
  obtain ⟨sign, digits⟩ := exponent
  rcases sign with _ | _ | _ <;> rfl

/-- A text that begins as a mantissa is not a name, so it is read as a decimal. -/
theorem floating_signed {format : Format} (sign : Option Bool) {c : Char} {rest : List Char} (begins : BeginsMantissa c)
    {decimal : Decimal} (found : decimal? (c :: rest) = some decimal) :
    (floating (signText sign ++ c :: rest) : Except Reason (Binary format)) =
      .ok (.ofDecimal (sign == some true) decimal) := by
  have unnamed (negative : Bool) : (named? negative (c :: rest) : Option (Binary format)) = none :=
    named?_eq_none negative rest begins
  rcases sign with _ | _ | _
  · simp [floating, signText, splitSign_of_beginsMantissa rest begins, unnamed, found]
  · simp [floating, signText, splitSign, unnamed, found]
  · simp [floating, signText, splitSign, unnamed, found]

theorem floating_text {format : Format} (negative : Bool) {mantissa : Mantissa} (formed : mantissa.WellFormed) :
    (floating (if negative then '-' :: mantissa.text else mantissa.text) : Except Reason (Binary format)) =
      .ok (.ofDecimal negative (mantissa.scaled 0)) := by
  have decimal := decimal?_text formed
  obtain ⟨c, rest, text, begins⟩ := Mantissa.text_begins formed
  rw [text] at decimal ⊢
  cases negative with
  | false => exact floating_signed none begins decimal
  | true => exact floating_signed (some true) begins decimal

theorem isBlank_of_isDigit {c : Char} (digit : c.isDigit) : Text.isBlank c = false := by
  rw [Char.isDigit_iff_toNat] at digit
  have lower : 48 ≤ c.toNat := digit.1
  have upper : c.toNat ≤ 57 := digit.2
  simp only [Text.isBlank, Bool.or_eq_false_iff, Bool.and_eq_false_iff, decide_eq_false_iff_not, beq_eq_false_iff_ne]
  omega

theorem isBlank_of_mem_signText {sign : Option Bool} : ∀ c ∈ signText sign, Text.isBlank c = false := by
  rcases sign with _ | _ | _
  · exact List.forall_mem_nil _
  · exact List.forall_mem_singleton.mpr rfl
  · exact List.forall_mem_singleton.mpr rfl

theorem trim_blanks {before text behind : List Char} (blankBefore : ∀ c ∈ before, Text.isBlank c)
    (blankBehind : ∀ c ∈ behind, Text.isBlank c) (some : text ≠ []) (solid : ∀ c ∈ text, Text.isBlank c = false) :
    Text.trim (before ++ text ++ behind) = text := by
  have first : ∀ c ∈ (text ++ behind).head?, ¬Text.isBlank c := by
    intro c head
    rw [List.head?_append, List.head?_eq_some_head some] at head
    cases head
    simp [solid _ (List.head_mem some)]
  have last : ∀ c ∈ text.reverse.head?, ¬Text.isBlank c := by
    intro c head
    simp [solid c (List.mem_reverse.mp (List.mem_of_mem_head? head))]
  have blankReverse : ∀ c ∈ behind.reverse, Text.isBlank c := fun c member => blankBehind c (List.mem_reverse.mp member)
  rw [Text.trim, List.append_assoc, dropWhile_run blankBefore first, List.reverse_append,
    dropWhile_run blankReverse last, List.reverse_reverse]

theorem trim_eq_self {text : List Char} (solid : ∀ c ∈ text, Text.isBlank c = false) : Text.trim text = text := by
  cases text with
  | nil => rfl
  | cons c rest =>
    have trimmed : Text.trim ([] ++ c :: rest ++ []) = c :: rest := trim_blanks nofun nofun nofun solid
    rwa [List.nil_append, List.append_nil] at trimmed

end ScriptNumbers.Numeral
