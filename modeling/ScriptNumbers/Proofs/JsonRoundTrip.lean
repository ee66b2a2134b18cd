import ScriptNumbers.Proofs.JsonDecimals
import ScriptNumbers.Proofs.JsonTexts
import ScriptNumbers.Proofs.Narrowing
import ScriptNumbers.Proofs.Scaling

/-! Single-precision numbers come back from their JSON form. The text has the digits of the shortest decimal, which
are scaled in double precision and then narrowed, so there are up to three roundings on the way. -/

namespace ScriptNumbers

open Format Proofs.NearMisses

namespace Decimal

variable {tie : Tie} {rank : Nat}

theorem digits_shortest_single_le (finite : rank < single.limit) : (shortest single tie rank).digits ≤ 10 ^ 9 :=
  digits_shortest_le tie (show 2 * single.binadeSize < 10 ^ 8 by decide) finite

theorem natAbs_exponent_shortest_le (positive : 0 < rank) (finite : rank < single.limit) :
    (shortest single tie rank).exponent.natAbs ≤ 54 := by
  have digits : (shortest single tie rank).digits ≤ 10 ^ 9 := digits_shortest_single_le finite
  have small : (10 : ℚ) ^ ((9 : Nat) + -55 : Int) < single.midpoint 0 := by decide +kernel
  have large : single.magnitude single.limit ≤ 10 ^ (55 : Int) := by decide +kernel
  have low := lt_exponent_shortest tie digits small positive finite
  have high := exponent_shortest_lt tie large positive finite
  omega

end Decimal

namespace Json

open Decimal

/-- The decimals that come closest to midpoints are narrowed as they are read in single precision. -/
theorem convert_scale_misses : misses.all fun decimal =>
    decide ((scale decimal).convert = (Binary.ofDecimal false decimal : Single)) := by
  decide +kernel

variable {tie : Tie}

private theorem scale_of_mem_misses {rank : Fin single.limit} (miss : shortest single tie rank ∈ misses)
    {wide : Fin double.limit} (scaled : scale (shortest single tie rank) = .finite false wide) :
    single.rankOfRat (double.magnitude wide) = rank := by
  have row := of_decide_eq_true (List.all_eq_true.mp convert_scale_misses _ miss)
  rw [scaled, Binary.convert_finite, Binary.ofDecimal_shortest] at row
  exact Binary.rank_eq_of_ofRank_eq row

/-- The digits and the power of ten that a token has of the shortest decimal of a magnitude. -/
structure Spells (tie : Tie) (rank : Nat) (leading : Decimal) : Prop where
  same : leading.toRat = (shortest single tie rank).toRat
  form : leading = shortest single tie rank ∨
    0 ≤ (shortest single tie rank).exponent ∧ leading.exponent = -1 ∧ leading.digits < 10 ^ 14

private theorem Spells.bounds {rank : Nat} {leading : Decimal} (spells : Spells tie rank leading) (positive : 0 < rank)
    (finite : rank < single.limit) :
    0 < leading.digits ∧ leading.digits < 2 ^ 53 ∧ leading.exponent.natAbs ≤ 54 := by
  have few : (shortest single tie rank).digits ≤ 10 ^ 9 := digits_shortest_single_le finite
  have some := digits_shortest_pos tie positive finite
  rcases spells.form with same | ⟨-, exponent, short⟩
  · rw [same]
    exact ⟨some, by omega, natAbs_exponent_shortest_le positive finite⟩
  · refine ⟨Nat.pos_of_ne_zero fun zero => ?_, by omega, by omega⟩
    have reads := rankOfRat_shortest tie finite
    rw [← spells.same, toRat_of_digits_eq_zero _ zero, single.rankOfRat_zero] at reads
    omega

private theorem Spells.scale_zero {leading : Decimal} (spells : Spells tie 0 leading) :
    scale leading = .zero false := by
  have shortest : shortest single tie 0 = ⟨0, 0⟩ := if_pos rfl
  obtain ⟨same, form⟩ := spells
  obtain ⟨digits, exponent⟩ := leading
  rw [shortest] at same form
  rcases form with zero | ⟨-, tenth, -⟩
  · rw [zero]
    decide +kernel
  · dsimp only at tenth
    subst tenth
    have none : digits = 0 := by
      rw [toRat, toRat] at same
      norm_num at same
      exact same
    rw [none]
    decide +kernel

private theorem exponent_neg_of_mem_misses {decimal : Decimal} (miss : decimal ∈ misses) : decimal.exponent < 0 := by
  simp only [misses, List.mem_cons, List.not_mem_nil, or_false] at miss
  rcases miss with rfl | rfl | rfl
  · decide
  · decide
  · decide

/-- However the shortest decimal is spelled, scaling and narrowing lead back to the magnitude. -/
theorem Spells.narrows {rank : Fin single.limit} {leading : Decimal} (spells : Spells tie rank leading) :
    ∃ wide, scale leading = .finite false wide ∧ single.rankOfRat (double.magnitude wide) = rank := by
  rcases Nat.eq_zero_or_pos rank.val with none | positive
  · obtain ⟨rank, finite⟩ := rank
    dsimp only at none
    subst none
    refine ⟨⟨0, double.limit_pos⟩, spells.scale_zero.trans (Binary.ofRank_of_lt false double.limit_pos), ?_⟩
    rw [double.magnitude_zero, single.rankOfRat_zero]
  · obtain ⟨some, short, inside⟩ := spells.bounds positive rank.isLt
    obtain ⟨wide, scaled, scales⟩ := scale_scales some short inside
    refine ⟨wide, scaled, ?_⟩
    -- The known misses are settled by computation; every other decimal is too far from the midpoints.
    by_cases miss : shortest single tie rank ∈ misses
    · rcases spells.form with same | ⟨coarse, -, -⟩
      · rw [same] at scaled
        exact scale_of_mem_misses miss scaled
      · have := exponent_neg_of_mem_misses miss
        omega
    · have error := scales.error
      have exact := scales.exact
      rw [spells.same] at error exact
      refine rankOfRat_eq_of_near positive rank.isLt miss error fun small level => exact ?_ ?_
      · rcases spells.form with same | ⟨-, exponent, -⟩
        · rwa [same]
        · rw [exponent]
          decide
      · obtain ⟨middle, level⟩ := level
        rw [level]
        exact exists_magnitude_eq_midpoint middle

private theorem spells_decimalToken (negative : Bool) {rank : Nat} (finite : rank < single.limit) :
    Spells tie rank (decimalToken singleRange negative (shortest single tie rank)).leading := by
  have fits : (shortest single tie rank).digits < UInt64.size := (digits_shortest_single_le finite).trans_lt (by decide)
  rcases decimalToken_leading singleRange negative _ fits (by decide) with same | ⟨coarse, exponent, short, same⟩
  · exact ⟨congrArg toRat same, Or.inl same⟩
  · exact ⟨same, Or.inr ⟨coarse, exponent, short⟩⟩

theorem NumberToken.value_of_scale {token : NumberToken} (broken : token.isInteger = false) {wide : Fin double.limit}
    (scaled : scale token.leading = .finite false wide) :
    token.value = .ok (.floating (.finite token.negative wide)) := by
  rw [NumberToken.value, broken]
  exact floating_of_finite scaled

/-- A finite number in single precision is read from its JSON form as itself, with its sign and its rank. -/
theorem readNumber_json_float {value : Single} (finite : value.isFinite) :
    readNumber (Number.float value).json = .ok (.float value) := by
  cases value with
  | nan => cases finite
  | infinity => cases finite
  | finite negative rank =>
    have text := decimalToken_text singleRange negative (shortest single .toEven rank)
    have formed := decimalToken_wellFormed singleRange negative (shortest single .toEven rank)
      (exponent_eq_zero_of_shortest rank.isLt)
    have broken := decimalToken_isInteger singleRange negative (shortest single .toEven rank)
    have sign := decimalToken_negative singleRange negative (shortest single .toEven rank)
    have spells : Spells .toEven rank _ := spells_decimalToken negative rank.isLt
    obtain ⟨wide, scaled, narrowed⟩ := spells.narrows
    refine readNumber_json text.symm formed (NumberToken.value_of_scale broken scaled) ?_
    rw [sign, Number.kind, Value.toNumber, Binary.convert_finite, narrowed, Binary.ofRank_of_lt negative rank.isLt]

theorem readNumber_json_nearMiss : (Binary.ofBits 0x95ae43fd : Single).isFinite ∧
    readNumber (Number.float (.ofBits 0x95ae43fd)).json = .ok (.float (.ofBits 0x95ae43fd)) := by
  have finite : (Binary.ofBits 0x95ae43fd : Single).isFinite := by decide +kernel
  exact ⟨finite, readNumber_json_float finite⟩

end Json

end ScriptNumbers
