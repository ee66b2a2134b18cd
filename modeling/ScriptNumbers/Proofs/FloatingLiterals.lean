import ScriptNumbers.Proofs.LiteralText

/-! Literals of floating numbers: decimals with a point, an exponent or a floating suffix. All of them are numbers, and
the number is the one that the decimal is rounded to, just as if its numeral had been read. -/

namespace ScriptNumbers.Literal

open Numeral

structure FloatingLiteral where
  negative : Bool
  mantissa : Mantissa
  exponent : Option (Marker × Exponent)
  suffix : Option Kind
  formed : mantissa.WellFormed
  behind : ∀ power ∈ exponent, power.2.WellFormed
  fractional : mantissa.fraction ≠ none ∨ exponent ≠ none ∨ suffix ≠ none
  suffixed : ∀ kind ∈ suffix, kind.isFloating

namespace FloatingLiteral

def parts (literal : FloatingLiteral) : Parts :=
  ⟨literal.negative, .decimal literal.mantissa literal.exponent, literal.suffix⟩

/-- A suffix decides on the kind. Without one, the letter in front of the exponent does. -/
def kind (literal : FloatingLiteral) : Kind :=
  literal.suffix.getD (if literal.exponent.map Prod.fst = some .d then .double else .float)

def power (literal : FloatingLiteral) : Int := (literal.exponent.map (·.2.toInt)).getD 0

def toRat (literal : FloatingLiteral) : ℚ := scientific literal.negative literal.mantissa literal.power

/-- The literal as a numeral: without a suffix, and with the same letter for every exponent. -/
def numeral (literal : FloatingLiteral) : FloatingNumeral :=
  floatingNumeral literal.negative literal.formed literal.behind

variable (literal : FloatingLiteral)

/-- Every decimal with a point, an exponent or a suffix, and without the suffix of an integer kind, is among them. -/
theorem exists_spells_iff {text : String} :
    (∃ literal : FloatingLiteral, literal.parts.Spells text) ↔
      ∃ negative mantissa exponent suffix, Parts.Spells ⟨negative, .decimal mantissa exponent, suffix⟩ text ∧
        (mantissa.fraction ≠ none ∨ exponent ≠ none ∨ suffix ≠ none) ∧ ∀ kind ∈ suffix, kind.isFloating := by
  constructor
  · rintro ⟨literal, spells⟩
    exact ⟨_, _, _, _, spells, literal.fractional, literal.suffixed⟩
  · rintro ⟨negative, mantissa, exponent, suffix, spells, fractional, suffixed⟩
    obtain ⟨pieces, formed, denotes, whole⟩ := spells
    cases denotes.body.wellFormed formed.body with
    | decimal front behind =>
      exact ⟨⟨negative, mantissa, exponent, suffix, front, behind, fractional, suffixed⟩, pieces, formed, denotes, whole⟩

private theorem kind_isFloating : literal.kind.isFloating := by
  obtain ⟨negative, mantissa, exponent, suffix, formed, behind, fractional, suffixed⟩ := literal
  cases suffix with
  | some kind => exact suffixed kind rfl
  | none =>
    rw [kind, Option.getD_none]
    split <;> rfl

private theorem readDecimal_eq (oversized : Oversized) :
    readDecimal oversized literal.negative literal.mantissa literal.exponent literal.suffix =
      .ok ⟨Number.ofDecimal literal.kind literal.negative (literal.mantissa.scaled literal.power), false⟩ := by
  have floating := literal.kind_isFloating
  obtain ⟨negative, mantissa, exponent, suffix, formed, behind, fractional, suffixed⟩ := literal
  cases suffix with
  | some kind => exact readDecimal_floating oversized negative formed behind (suffixed kind rfl)
  | none =>
    have integral : isIntegral mantissa exponent = false := by
      rw [isIntegral, Bool.and_eq_false_iff, Option.isNone_eq_false_iff, Option.isNone_eq_false_iff]
      simpa [Option.isSome_iff_ne_none] using fractional
    have same : floatingKind exponent = if exponent.map Prod.fst = some .d then .double else .float := by
      rcases exponent with _ | ⟨_ | _, _⟩ <;> rfl
    rw [readDecimal]
    dsimp only
    rw [integral, if_neg Bool.false_ne_true, same]
    exact congrArg (Except.map _) (readNumeral_floating negative formed behind floating)

/-- Reading the literal is reading its numeral. -/
theorem ofText_numeral : Number.ofText literal.kind (String.ofList literal.numeral.text) =
    .ok (Number.ofDecimal literal.kind literal.negative (literal.mantissa.scaled literal.power)) := by
  rw [Number.ofText_numeral literal.numeral literal.kind_isFloating, numeral, floatingNumeral_isNegative,
    floatingNumeral_exponent]
  rfl

section Parse

variable {literal} {text : String} (spells : literal.parts.Spells text) {settings : Settings}
  (enabled : literal.suffix ≠ none → settings.typeSuffixes)
include spells enabled

private theorem parse_eq : parse settings text = Number.ofText literal.kind (String.ofList literal.numeral.text) := by
  rw [parse_of_scan (spells_iff.mp spells), parts, ofParts_decimal enabled, literal.readDecimal_eq, literal.ofText_numeral]
  rfl

/-- A literal of a floating number is read as the one number of its kind that its value is rounded to. It is never "not
a number", the numeral of the literal stands for it too, and so does every literal with that numeral and the same
suffix. -/
theorem parse_floatingLiteral :
    ∃ number, parse settings text = .ok number ∧ number.isNan = false ∧
      (∀ other, Number.IsRounded literal.negative literal.toRat literal.kind other ↔ other = number) ∧
      Number.ofText literal.kind (String.ofList literal.numeral.text) = .ok number ∧
      ∀ (other : FloatingLiteral) (respelled : String), other.parts.Spells respelled → other.numeral = literal.numeral →
        other.suffix = literal.suffix → literal.suffix ≠ none → parse settings respelled = .ok number := by
  have rounded := Number.isRounded_ofDecimal literal.negative literal.kind_isFloating (literal.mantissa.scaled literal.power)
  rw [← scientific_eq] at rounded
  refine ⟨_, (parse_eq spells enabled).trans literal.ofText_numeral, rounded.not_isNan, fun other => rounded.iff_eq,
    literal.ofText_numeral, ?_⟩
  intro other respelled otherSpells numerals suffixes some
  have kinds : other.kind = literal.kind := by
    obtain ⟨named, present⟩ := Option.ne_none_iff_exists'.mp some
    rw [FloatingLiteral.kind, FloatingLiteral.kind, suffixes, present, Option.getD_some, Option.getD_some]
  rw [parse_eq otherSpells (suffixes ▸ enabled), kinds, numerals]
  exact literal.ofText_numeral

end Parse

/-- A double for its suffix, whatever the letter is, and a double for its letter. -/
theorem parse_floatingLiteral_letters :
    (∃ number, parse .standard "-.5D-00#" = .ok number ∧ Number.IsRounded true (-1 / 2) .double number ∧
      Number.ofText .double "-.5e-00" = .ok number ∧ parse .standard "-.5E-00#" = .ok number) ∧
    ∃ number, parse .standard "5.d+3" = .ok number ∧ Number.IsRounded false 5000 .double number := by
  let half (marker : Marker) : FloatingLiteral :=
    { negative := true
      mantissa := ⟨[], some ['5']⟩
      exponent := some (marker, ⟨some true, ['0', '0']⟩)
      suffix := some .double
      formed := ⟨List.forall_mem_nil _, List.all_eq_true.mp (by decide), List.cons_ne_nil _ _⟩
      behind := by simpa using (⟨List.all_eq_true.mp (by decide), by decide⟩ : Exponent.WellFormed ⟨some true, ['0', '0']⟩)
      fractional := Or.inl (Option.some_ne_none _)
      suffixed := by decide }
  let thousands : FloatingLiteral :=
    { negative := false
      mantissa := ⟨['5'], some []⟩
      exponent := some (.d, ⟨some false, ['3']⟩)
      suffix := none
      formed := ⟨List.all_eq_true.mp (by decide), List.forall_mem_nil _, List.cons_ne_nil _ _⟩
      behind := by simpa using (⟨List.all_eq_true.mp (by decide), by decide⟩ : Exponent.WellFormed ⟨some false, ['3']⟩)
      fractional := Or.inl (Option.some_ne_none _)
      suffixed := by decide }
  have halfValue : (half .d).toRat = -1 / 2 := by
    have exponent : (half .d).power = 0 := by decide
    have mantissa : (half .d).mantissa.toRat = 1 / 2 := by decide +kernel
    rw [toRat, scientific, mantissa, exponent]
    norm_num [half]
  have thousandsValue : thousands.toRat = 5000 := by
    have exponent : thousands.power = 3 := by decide
    have mantissa : thousands.mantissa.toRat = 5 := by decide +kernel
    rw [toRat, scientific, mantissa, exponent]
    norm_num [thousands]
  have spells : (half .d).parts.Spells "-.5D-00#" := spells_iff.mpr (by decide)
  have respelled : (half .e).parts.Spells "-.5E-00#" := spells_iff.mpr (by decide)
  have unsuffixed : thousands.parts.Spells "5.d+3" := spells_iff.mpr (by decide)
  have enabled (literal : FloatingLiteral) : literal.suffix ≠ none → Settings.standard.typeSuffixes := fun _ => rfl
  constructor
  · obtain ⟨number, read, -, rounded, numeral, letters⟩ := parse_floatingLiteral spells (enabled _)
    rw [halfValue] at rounded
    exact ⟨number, read, (rounded number).mpr rfl, numeral, letters (half .e) _ respelled rfl rfl (Option.some_ne_none _)⟩
  · obtain ⟨number, read, -, rounded, -⟩ := parse_floatingLiteral unsuffixed (enabled _)
    rw [thousandsValue] at rounded
    exact ⟨number, read, (rounded number).mpr rfl⟩

end FloatingLiteral

end ScriptNumbers.Literal
