import ScriptNumbers.Proofs.FloatingCasts
import ScriptNumbers.Proofs.JsonIntegers
import ScriptNumbers.Proofs.JsonRoundTrip

/-! Single-precision numbers in JSON form, had they been read by way of the nearest double. That is not how numbers are
read, and it would lose two of them: the decimal of one magnitude is so close to a midpoint between floats that the double
nearest to it is the midpoint itself, and the midpoint is narrowed to the other side. -/

namespace ScriptNumbers.Json

open Format Decimal Proofs.NearMisses

variable {tie : Tie}

/-- A number that a token is rounded to by way of the nearest double. -/
def NumberToken.RoundsTwice (token : NumberToken) (result : Single) : Prop :=
  ∃ (wide : Double) (exact : ℚ), wide.IsRounded token.negative token.toRat ∧ wide.toRat? = some exact ∧
    result.IsRounded token.negative exact

/-- The double nearest to what a token writes. -/
def NumberToken.nearest (token : NumberToken) : Double :=
  .ofDecimal token.negative (token.mantissa.scaled token.exactExponent)

private theorem NumberToken.isRounded_nearest (token : NumberToken) :
    token.nearest.IsRounded token.negative token.toRat := by
  rw [toRat, Numeral.scientific_eq]
  exact Binary.isRounded_ofDecimal token.negative _

private theorem NumberToken.roundsTwice_convert {token : NumberToken} {exact : ℚ}
    (finite : token.nearest.toRat? = some exact) : token.RoundsTwice token.nearest.convert := by
  have rounded := token.isRounded_nearest
  exact ⟨_, _, rounded, finite, rounded.sign ▸ Binary.isRounded_convert finite⟩

private theorem moderate_shortest {rank : Nat} (positive : 0 < rank) (finite : rank < single.limit) :
    Moderate (shortest single tie rank).toRat := by
  have inside : (shortest single tie rank).exponent.natAbs ≤ 54 := natAbs_exponent_shortest_le positive finite
  have digits : (shortest single tie rank).digits ≤ 10 ^ 9 := digits_shortest_single_le finite
  have some := digits_shortest_pos tie positive finite
  generalize shortest single tie rank = decimal at inside digits some ⊢
  have few : (decimal.digits : ℚ) ≤ 10 ^ 9 := by exact_mod_cast digits
  have one : (1 : ℚ) ≤ decimal.digits := by exact_mod_cast some
  have least : (10 : ℚ) ^ (-54 : Int) ≤ 10 ^ decimal.exponent := zpow_le_zpow_right₀ (by norm_num) (by omega)
  have most : (10 : ℚ) ^ decimal.exponent ≤ 10 ^ (54 : Int) := zpow_le_zpow_right₀ (by norm_num) (by omega)
  refine ⟨?_, ?_⟩
  · calc (2 : ℚ) ^ (-240 : Int) ≤ 1 * 10 ^ (-54 : Int) := by norm_num
      _ ≤ decimal.toRat := mul_le_mul one least (ten_zpow_pos _).le (by linarith)
  · calc decimal.toRat ≤ 10 ^ 9 * 10 ^ (54 : Int) := mul_le_mul few most (ten_zpow_pos _).le (by norm_num)
      _ ≤ 2 ^ (240 : Int) := by norm_num

private theorem nearest_misses (tie : Tie) : misses.all fun decimal =>
    decide (shortest single tie (single.rankOfRat decimal.toRat) = decimal →
      (single.rankOfRat (double.magnitude (double.rankOfRat decimal.toRat)) = single.rankOfRat decimal.toRat ↔
        decimal ≠ ⟨7038531, -32⟩)) := by
  cases tie
  · decide +kernel
  · decide +kernel

/-- Of all magnitudes, one has a decimal whose nearest double narrows to another. -/
theorem rankOfRat_nearest_iff {rank : Nat} (finite : rank < single.limit) :
    single.rankOfRat (double.magnitude (double.rankOfRat (shortest single tie rank).toRat)) = rank ↔
      shortest single tie rank ≠ ⟨7038531, -32⟩ := by
  rcases Nat.eq_zero_or_pos rank with rfl | positive
  · have zero : shortest single tie 0 = ⟨0, 0⟩ := if_pos rfl
    rw [zero, toRat_of_digits_eq_zero _ rfl, double.rankOfRat_zero, double.magnitude_zero, single.rankOfRat_zero]
    decide
  have moderate : Moderate (shortest single tie rank).toRat := moderate_shortest positive finite
  obtain ⟨wide, same, rounds⟩ := rounds_of_moderate moderate
  have nearest := Binary.rank_eq_of_ofRank_eq same
  by_cases miss : shortest single tie rank ∈ misses
  · have row := of_decide_eq_true (List.all_eq_true.mp (nearest_misses tie) _ miss)
    rw [rankOfRat_shortest tie finite] at row
    exact row rfl
  · have error : |double.magnitude wide - (shortest single tie rank).toRat| ≤
        9 / 2 ^ 55 * (shortest single tie rank).toRat := by
      have error := rounds.error
      have positive := moderate.pos
      linarith
    rw [nearest]
    refine ⟨fun _ known => miss (known ▸ by decide), fun _ => ?_⟩
    refine rankOfRat_eq_of_near positive finite miss error fun _ level => rounds.exact ?_
    obtain ⟨middle, level⟩ := level
    rw [level]
    exact exists_magnitude_eq_midpoint middle

private theorem NumberToken.RoundsTwice.eq_ofRank {token : NumberToken} {result : Single}
    (twice : token.RoundsTwice result) {decimal : Decimal} (written : |token.toRat| = decimal.toRat) :
    result = .ofRank token.negative (single.rankOfRat (double.magnitude (double.rankOfRat decimal.toRat))) := by
  obtain ⟨wide, exact, first, finite, second⟩ := twice
  have nearest : wide = .ofRank token.negative (double.rankOfRat decimal.toRat) := by
    rw [first.unique token.isRounded_nearest, NumberToken.nearest, Binary.ofDecimal_eq,
      ← Numeral.abs_scientific token.negative, ← NumberToken.toRat, written]
  have narrowed : result = wide.convert := second.unique (first.sign ▸ Binary.isRounded_convert finite)
  rcases Nat.lt_or_ge (double.rankOfRat decimal.toRat) double.limit with inside | beyond
  · rw [narrowed, nearest, Binary.ofRank_of_lt _ inside, Binary.convert_finite]
  · rw [nearest, Binary.ofRank_of_limit_le _ beyond] at finite
    cases finite

/-- A token with the digits of the shortest decimal of a float comes back as that float, but for one magnitude. -/
theorem NumberToken.RoundsTwice.eq_finite_iff {token : NumberToken} {result : Single} (twice : token.RoundsTwice result)
    {rank : Fin single.limit} (written : |token.toRat| = (shortest single tie rank).toRat) :
    result = .finite token.negative rank ↔ shortest single tie rank ≠ ⟨7038531, -32⟩ := by
  rw [twice.eq_ofRank written, ← rankOfRat_nearest_iff rank.isLt]
  constructor
  · exact Binary.rank_eq_of_ofRank_eq
  · intro same
    rw [same, Binary.ofRank_of_lt _ rank.isLt]

/-- What is written for this float is read as the one behind it by way of the nearest double. -/
theorem roundsTwice_ne_float : (Binary.ofBits 0x95ae43fd : Single).isFinite ∧
    ∃ token : NumberToken, Lexes (Number.float (.ofBits 0x95ae43fd)).json.toList (markedTokens .float token) ∧
      (∃ result, token.RoundsTwice result) ∧ ∀ result, token.RoundsTwice result →
        result ≠ .ofBits 0x95ae43fd ∧ result = .ofBits 0x95ae43fe := by
  let rank : Fin single.limit := ⟨0x15ae43fd, by decide⟩
  let token : NumberToken := decimalToken singleRange true (Decimal.shortest single .toEven rank)
  have bits : (Binary.ofBits 0x95ae43fd : Single) = .finite true rank := by decide +kernel
  have shortest : shortest single .toEven rank = ⟨7038531, -32⟩ := by decide +kernel
  have formed : token.WellFormed := decimalToken_wellFormed singleRange true _ (exponent_eq_zero_of_shortest rank.isLt)
  have text : bareText (.float (.finite true rank)) = token.text := (decimalToken_text singleRange true _).symm
  have written : |token.toRat| = (Decimal.shortest single .toEven rank).toRat := by decide +kernel
  have sign : token.negative = true := decimalToken_negative singleRange true _
  have finite : ∃ exact, token.nearest.toRat? = some exact := Option.isSome_iff_exists.mp (by decide +kernel)
  rw [bits]
  refine ⟨rfl, token, lexes_json text formed, ?_, fun result twice => ⟨fun same => ?_, ?_⟩⟩
  · obtain ⟨exact, finite⟩ := finite
    exact ⟨_, NumberToken.roundsTwice_convert finite⟩
  · exact (twice.eq_finite_iff written).mp (by rw [same, sign]) shortest
  · rw [twice.eq_ofRank written, sign]
    decide +kernel

end ScriptNumbers.Json
