import Mathlib.Algebra.Order.Field.Rat
import Mathlib.Order.Monotone.Basic
import Mathlib.Tactic.FieldSimp
import Mathlib.Tactic.Linarith
import Mathlib.Tactic.Positivity
import Mathlib.Tactic.Ring
import ScriptNumbers.Binary.Basic

/-! The magnitudes of a format as one increasing sequence. All that is used of the layout of a format is the
distance from each magnitude to the next. -/

namespace ScriptNumbers

theorem natCast_twoPow (bits : Nat) : ((twoPow bits : Nat) : ℚ) = 2 ^ bits := by
  rw [twoPow, Nat.pow_eq]
  push_cast
  rfl

namespace Format

variable (format : Format)

/-- How often the spacing of the magnitudes has doubled at a rank. -/
def doublings (rank : Nat) : Nat := rank / format.binadeSize - 1

/-- Distance to the next magnitude, in units. -/
def spacing (rank : Nat) : Nat := twoPow (format.doublings rank)

/-- The magnitude of a rank, measured in its spacing. -/
def significand (rank : Nat) : Nat := rank - format.doublings rank * format.binadeSize

theorem units_eq (rank : Nat) : format.units rank = format.significand rank * format.spacing rank := rfl

theorem spacing_pos (rank : Nat) : 0 < format.spacing rank := twoPow_pos _

theorem doublings_mul_le (rank : Nat) : format.doublings rank * format.binadeSize ≤ rank :=
  (Nat.mul_le_mul_right _ (Nat.sub_le _ _)).trans (Nat.div_mul_le_self rank format.binadeSize)

theorem doublings_mono {lower upper : Nat} (order : lower ≤ upper) :
    format.doublings lower ≤ format.doublings upper :=
  Nat.sub_le_sub_right (Nat.div_le_div_right order) 1

theorem spacing_mono {lower upper : Nat} (order : lower ≤ upper) : format.spacing lower ≤ format.spacing upper :=
  twoPow_le (format.doublings_mono order)

theorem significand_lt (rank : Nat) : format.significand rank < 2 * format.binadeSize := by
  have positive := format.binadeSize_pos
  have inside := Nat.lt_div_mul_add positive (a := rank)
  unfold significand doublings
  rcases Nat.eq_zero_or_pos (rank / format.binadeSize) with none | some
  · simp only [none, Nat.zero_mul, Nat.zero_add] at inside ⊢
    omega
  · rw [Nat.sub_mul]
    have := Nat.le_mul_of_pos_left format.binadeSize some
    omega

private theorem binadeSize_le_significand {rank : Nat} (normal : format.binadeSize ≤ rank) :
    format.binadeSize ≤ format.significand rank := by
  have positive := format.binadeSize_pos
  have some := (Nat.one_le_div_iff positive).mpr normal
  have below := Nat.div_mul_le_self rank format.binadeSize
  have first := Nat.le_mul_of_pos_left format.binadeSize some
  unfold significand doublings
  rw [Nat.sub_mul]
  omega

/-- The step from one magnitude to the next, also where the spacing doubles: the last magnitude of a binade
is one step below twice its first. -/
theorem units_succ (rank : Nat) : format.units (rank + 1) = format.units rank + format.spacing rank := by
  have positive := format.binadeSize_pos
  have inside := format.doublings_mul_le rank
  by_cases last : format.binadeSize ∣ rank + 1
  · obtain ⟨binades, total⟩ := last
    rcases binades with _ | _ | binades
    · omega
    · have fits : rank / format.binadeSize = 0 := Nat.div_eq_of_lt (by omega)
      have full : (rank + 1) / format.binadeSize = 1 := by rw [total]; exact Nat.mul_div_cancel_left 1 positive
      simp [units, spacing, doublings, fits, full]
    · have lower : format.doublings rank = binades := by
        have split : rank = format.binadeSize * (binades + 1) + (format.binadeSize - 1) := by
          rw [Nat.mul_succ] at total
          omega
        have quotient : rank / format.binadeSize = binades + 1 := by
          rw [split, Nat.mul_add_div positive, Nat.div_eq_of_lt (by omega), Nat.add_zero]
        rw [doublings, quotient, Nat.add_sub_cancel]
      have upper : format.doublings (rank + 1) = binades + 1 := by
        rw [doublings, total, Nat.mul_div_cancel_left _ positive]
        rfl
      have expanded : rank + 1 = (binades + 1) * format.binadeSize + format.binadeSize := by
        rw [total, Nat.mul_succ, Nat.mul_comm]
      have first : rank + 1 - (binades + 1) * format.binadeSize = format.binadeSize := by omega
      have top : rank - binades * format.binadeSize + 1 = 2 * format.binadeSize := by
        rw [Nat.succ_mul] at expanded
        omega
      rw [units_eq, units_eq, spacing, spacing, significand, significand, lower, upper, first, twoPow_succ,
        ← Nat.succ_mul, Nat.succ_eq_add_one, top]
      ring
  · have same : format.doublings (rank + 1) = format.doublings rank := by
      rw [doublings, Nat.succ_div_of_not_dvd last, doublings]
    rw [units_eq, units_eq, spacing, same, significand, significand, same, Nat.sub_add_comm inside, Nat.succ_mul,
      spacing]

theorem units_strictMono : StrictMono format.units :=
  strictMono_nat_of_lt_succ fun rank => by
    rw [units_succ]
    exact Nat.lt_add_of_pos_right (format.spacing_pos rank)

theorem units_succ_le (rank : Nat) : format.units (rank + 1) ≤ 2 * format.binadeSize * format.spacing rank := by
  rw [units_succ, units_eq, ← Nat.succ_mul]
  exact Nat.mul_le_mul_right _ (format.significand_lt rank)

theorem binadeSize_mul_spacing_le {rank : Nat} (normal : format.binadeSize ≤ rank) :
    format.binadeSize * format.spacing rank ≤ format.units rank := by
  rw [units_eq]
  exact Nat.mul_le_mul_right _ (format.binadeSize_le_significand normal)

theorem units_mul_binadeSize (binades : Nat) :
    format.units ((binades + 1) * format.binadeSize) = format.binadeSize * twoPow binades := by
  have positive := format.binadeSize_pos
  have whole : format.doublings ((binades + 1) * format.binadeSize) = binades := by
    rw [doublings, Nat.mul_div_cancel _ positive, Nat.add_sub_cancel]
  rw [units_eq, spacing, significand, whole, Nat.succ_mul, Nat.add_sub_cancel_left]

theorem magnitude_eq (rank : Nat) : format.magnitude rank = (format.units rank : ℚ) / format.one := by
  rw [magnitude, Rat.mkRat_eq_div]
  push_cast
  rfl

theorem one_pos' : (0 : ℚ) < format.one := by exact_mod_cast format.one_pos

/-- Halfway between a magnitude and the next. -/
def midpoint (rank : Nat) : ℚ := (format.magnitude rank + format.magnitude (rank + 1)) / 2

theorem magnitude_zero : format.magnitude 0 = 0 := by
  rw [magnitude_eq, units_zero, Nat.cast_zero, zero_div]

theorem magnitude_strictMono : StrictMono format.magnitude := by
  intro lower upper order
  rw [magnitude_eq, magnitude_eq]
  have positive := format.one_pos'
  have units : (format.units lower : ℚ) < format.units upper := by exact_mod_cast format.units_strictMono order
  exact div_lt_div_of_pos_right units positive

theorem magnitude_nonneg (rank : Nat) : 0 ≤ format.magnitude rank := by
  rw [magnitude_eq]
  positivity

theorem magnitude_pos {rank : Nat} (positive : 0 < rank) : 0 < format.magnitude rank := by
  have order := format.magnitude_strictMono positive
  rwa [magnitude_zero] at order

theorem ne_zero_of_magnitude_pos {rank : Nat} (positive : 0 < format.magnitude rank) : rank ≠ 0 := by
  rintro rfl
  rw [magnitude_zero] at positive
  exact positive.false

private theorem magnitude_succ (rank : Nat) :
    format.magnitude (rank + 1) = format.magnitude rank + (format.spacing rank : ℚ) / format.one := by
  rw [magnitude_eq, magnitude_eq, units_succ]
  push_cast
  ring

theorem midpoint_eq_add (rank : Nat) :
    format.midpoint rank = format.magnitude rank + (format.spacing rank : ℚ) / format.one / 2 := by
  rw [midpoint, magnitude_succ]
  ring

theorem midpoint_eq_sub (rank : Nat) :
    format.midpoint rank = format.magnitude (rank + 1) - (format.spacing rank : ℚ) / format.one / 2 := by
  rw [midpoint, magnitude_succ]
  ring

theorem magnitude_lt_midpoint (rank : Nat) : format.magnitude rank < format.midpoint rank := by
  have order := format.magnitude_strictMono (Nat.lt_add_one rank)
  rw [midpoint]
  linarith

theorem midpoint_lt_magnitude (rank : Nat) : format.midpoint rank < format.magnitude (rank + 1) := by
  have order := format.magnitude_strictMono (Nat.lt_add_one rank)
  rw [midpoint]
  linarith

end Format

end ScriptNumbers
