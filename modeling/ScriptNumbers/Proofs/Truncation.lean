import Mathlib.Data.Rat.Floor
import ScriptNumbers.Binary.Arithmetic
import ScriptNumbers.Proofs.DecimalRounding

/-! Values that are cut off. The format holds every whole number of the spacings of a magnitude that is not above it, so
what is left of a value without its fraction, or without a multiple of another value, is held exactly. -/

namespace ScriptNumbers

/-- The integer next to a rational on the side of zero. -/
def truncated (value : ℚ) : Int := if 0 ≤ value then ⌊value⌋ else ⌈value⌉

theorem truncated_neg (value : ℚ) : truncated (-value) = -truncated value := by
  unfold truncated
  rcases lt_trichotomy value 0 with negative | zero | positive
  · rw [if_pos (by linarith), if_neg (by linarith), Int.floor_neg]
  · simp [zero]
  · rw [if_neg (by linarith), if_pos positive.le, Int.ceil_neg]

theorem truncated_intCast (value : Int) : truncated (value : ℚ) = value := by
  rw [truncated, Int.floor_intCast, Int.ceil_intCast, ite_self]

theorem abs_truncated_le (value : ℚ) : |(truncated value : ℚ)| ≤ |value| := by
  unfold truncated
  split
  next nonneg =>
    have floor : (0 : ℚ) ≤ ⌊value⌋ := by exact_mod_cast Int.floor_nonneg.mpr nonneg
    rw [abs_of_nonneg floor, abs_of_nonneg nonneg]
    exact Int.floor_le value
  next negative =>
    have ceil : (⌈value⌉ : ℚ) ≤ 0 := by exact_mod_cast Int.ceil_nonpos.mpr (not_le.mp negative).le
    rw [abs_of_nonpos ceil, abs_of_neg (not_le.mp negative), neg_le_neg_iff]
    exact Int.le_ceil value

theorem truncated_natCast_div (dividend divisor : Nat) :
    truncated ((dividend : ℚ) / divisor) = (dividend / divisor : Nat) := by
  have nonneg : (0 : ℚ) ≤ dividend / divisor := by positivity
  rw [truncated, if_pos nonneg, Rat.floor_natCast_div_natCast, Int.natCast_div]

private theorem twoPow_dvd {left right : Nat} (order : left ≤ right) : twoPow left ∣ twoPow right := pow_dvd_pow 2 order

namespace Format

variable (format : Format)

theorem nearestRank_units (rank : Nat) : format.nearestRank (format.units rank) 1 = rank := by
  have next := format.units_strictMono (Nat.lt_add_one rank)
  apply Nat.le_antisymm
  · rw [format.nearestRank_le_iff Nat.one_pos]
    omega
  · cases rank with
    | zero => exact Nat.zero_le _
    | succ rank =>
      have before := format.units_strictMono (Nat.lt_add_one rank)
      by_contra less
      have earlier := (format.nearestRank_le_iff Nat.one_pos).mp (Nat.le_of_lt_succ (Nat.not_le.mp less))
      omega

private theorem spacing_dvd_units {lower upper : Nat} (order : lower ≤ upper) :
    format.spacing lower ∣ format.units upper :=
  (twoPow_dvd (format.doublings_mono order)).mul_left _

/-- What is a whole number of the spacings of a magnitude, and not above it, is a magnitude itself. -/
theorem exists_units_eq_of_dvd {rank value : Nat} (divides : format.spacing rank ∣ value)
    (below : value ≤ format.units rank) : ∃ lower ≤ rank, format.units lower = value := by
  obtain ⟨count, rfl⟩ := divides
  rw [units_eq, Nat.mul_comm] at below
  have fits : count < 2 * format.binadeSize :=
    (Nat.le_of_mul_le_mul_right below (format.spacing_pos rank)).trans_lt (format.significand_lt rank)
  obtain ⟨lower, same⟩ := format.exists_units_eq fits (format.doublings rank)
  rw [Nat.mul_comm]
  refine ⟨lower, ?_, same⟩
  rw [← format.units_strictMono.le_iff_le, same, units_eq]
  exact below

theorem exists_units_eq_mod {dividend divisor : Nat} (positive : 0 < divisor) :
    ∃ rank ≤ dividend, format.units rank = format.units dividend % format.units divisor := by
  have some : 0 < format.units divisor := format.units_zero ▸ format.units_strictMono positive
  have lower := Nat.min_le_left dividend divisor
  have upper := Nat.min_le_right dividend divisor
  have divides : format.spacing (min dividend divisor) ∣ format.units dividend % format.units divisor :=
    (Nat.dvd_mod_iff (format.spacing_dvd_units upper)).mpr (format.spacing_dvd_units lower)
  have below : format.units dividend % format.units divisor ≤ format.units (min dividend divisor) := by
    rw [format.units_strictMono.monotone.map_min]
    exact le_min (Nat.mod_le _ _) (Nat.mod_lt _ some).le
  obtain ⟨rank, order, same⟩ := format.exists_units_eq_of_dvd divides below
  exact ⟨rank, order.trans lower, same⟩

private theorem exists_units_eq_whole (rank : Nat) :
    ∃ lower ≤ rank, format.units lower = format.units rank / format.one * format.one := by
  rcases le_total (format.doublings rank) format.unitBits with fine | coarse
  · exact format.exists_units_eq_of_dvd ((twoPow_dvd fine).mul_left _) (Nat.div_mul_le_self _ _)
  · have whole : format.one ∣ format.units rank := (twoPow_dvd coarse).mul_left _
    exact ⟨rank, le_rfl, (Nat.div_mul_cancel whole).symm⟩

end Format

namespace Binary

variable {format : Format}

private theorem truncate_finite (negative : Bool) (rank : Fin format.limit) :
    ∃ whole : Fin format.limit, truncate (.finite negative rank) = .finite negative whole ∧
      format.units whole = format.units rank / format.one * format.one := by
  obtain ⟨whole, order, same⟩ := format.exists_units_eq_whole rank
  have inside : whole < format.limit := order.trans_lt rank.isLt
  refine ⟨⟨whole, inside⟩, ?_, same⟩
  rw [truncate, ← same, Format.nearestRank_units, ofRank_of_lt negative inside]

private theorem truncated_magnitude (rank : Nat) :
    truncated (format.magnitude rank) = (format.units rank / format.one : Nat) := by
  rw [format.magnitude_eq, truncated_natCast_div]

/-- Truncation is exact. -/
theorem toRat?_truncate {value : Binary format} {exact : ℚ} (finite : value.toRat? = some exact) :
    value.truncate.toRat? = some (truncated exact : ℚ) := by
  cases value with
  | nan | infinity => cases finite
  | finite negative rank =>
    cases finite
    obtain ⟨whole, cut, same⟩ := truncate_finite negative rank
    have unit := format.one_pos'
    have magnitude : format.magnitude whole = (format.units rank / format.one : Nat) := by
      rw [format.magnitude_eq, same, Nat.cast_mul, mul_div_cancel_right₀ _ unit.ne']
    have cutMagnitude : truncated (format.magnitude rank) = (format.units rank / format.one : Nat) :=
      truncated_magnitude rank
    rw [cut, toRat?, signedMagnitude, signedMagnitude, magnitude]
    cases negative with
    | false => rw [if_neg Bool.false_ne_true, if_neg Bool.false_ne_true, cutMagnitude, Int.cast_natCast]
    | true => rw [if_pos rfl, if_pos rfl, truncated_neg, cutMagnitude, Int.cast_neg, Int.cast_natCast]

/-- A conversion into an integer cuts off the fraction, whether or not it was cut off before. -/
theorem truncateInto_truncate (low high : Int) (value : Binary format) :
    value.truncate.truncateInto low high = value.truncateInto low high := by
  cases value with
  | nan | infinity => rfl
  | finite negative rank =>
    obtain ⟨whole, cut, same⟩ := truncate_finite negative rank
    have unit : (format.one : Int) ≠ 0 := by exact_mod_cast format.one_pos.ne'
    rw [cut, truncateInto, truncateInto, same, Nat.cast_mul, Int.mul_ediv_cancel _ unit, Int.natCast_div]

/-- The integer that a conversion clamps to its bounds is the exact value without its fraction. -/
theorem truncateInto_of_toRat? {value : Binary format} {exact : ℚ} (finite : value.toRat? = some exact) (low high : Int) :
    value.truncateInto low high = max low (min high (truncated exact)) := by
  cases value with
  | nan | infinity => cases finite
  | finite negative rank =>
    cases finite
    cases negative with
    | false => simp [truncateInto, signedMagnitude, truncated_magnitude]
    | true => simp [truncateInto, signedMagnitude, truncated_neg, truncated_magnitude]

theorem truncateInto_mem {low high : Int} (below : low ≤ 0) (above : 0 ≤ high) (value : Binary format) :
    low ≤ value.truncateInto low high ∧ value.truncateInto low high ≤ high := by
  cases value with
  | nan => exact ⟨below, above⟩
  | infinity negative =>
    rw [truncateInto]
    split <;> omega
  | finite negative rank =>
    rw [truncateInto]
    omega

end Binary

end ScriptNumbers
