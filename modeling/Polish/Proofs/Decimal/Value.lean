import Mathlib.Algebra.Order.Field.Power
import Polish.Decimal
import Polish.Proofs.Binary64.Nearest

/-!
# The value of a decimal

A decimal denotes a rational number, `units` rounds that number, and a number has one canonical decimal: the one
whose coefficient does not end in a zero, or zero with exponent zero.
-/

namespace Polish

open scoped Binary64

/-- The number of units in one, as a rational number. -/
def Binary64.unitsInOne : ℚ := 2 ^ 1074

theorem Binary64.unitsInOne_pos : 0 < unitsInOne := by
  rw [unitsInOne]
  positivity

theorem Binary64.unitsInOne_eq : unitsInOne = (2 ^ (1074 : Nat) : Nat) := by
  simp only [unitsInOne, Nat.cast_pow, Nat.cast_ofNat]

/-- A number with a sign. -/
def signed (negative : Bool) (q : ℚ) : ℚ := if negative then -q else q

theorem signed_sub (negative : Bool) (p q : ℚ) : |signed negative p - signed negative q| = |p - q| := by
  cases negative with
  | true => rw [signed, signed, if_pos rfl, if_pos rfl, ← abs_sub_comm, neg_sub_neg]
  | false => rfl

theorem signed_sub_of_ne {negative negative' : Bool} (opposite : negative ≠ negative') (p q : ℚ) :
    |signed negative p - signed negative' q| = |p + q| := by
  cases negative with
  | true =>
    rw [ne_eq, eq_comm, Bool.not_eq_true] at opposite
    rw [opposite, signed, signed, if_pos rfl, if_neg Bool.false_ne_true, ← neg_add', abs_neg]
  | false =>
    rw [ne_eq, eq_comm, Bool.not_eq_false] at opposite
    rw [opposite, signed, signed, if_neg Bool.false_ne_true, if_pos rfl, sub_neg_eq_add]

/-- Signs do not bring numbers closer to each other. -/
theorem abs_sub_le_signed {p q : ℚ} (nonneg : 0 ≤ p) (nonneg' : 0 ≤ q) (negative negative' : Bool) :
    |p - q| ≤ |signed negative p - signed negative' q| := by
  by_cases same : negative = negative'
  · rw [same, signed_sub]
  · rw [signed_sub_of_ne same, abs_of_nonneg (add_nonneg nonneg nonneg')]
    exact abs_le.mpr ⟨by linarith, by linarith⟩

namespace Decimal

open Binary64 (Rounds unitsInOne unitsInOne_pos unitsInOne_eq)

variable {d d' : Decimal}

/-- The number that the decimal denotes. -/
def toRat (d : Decimal) : ℚ := d.coefficient * 10 ^ d.exponent

theorem toRat_nonneg (d : Decimal) : 0 ≤ d.toRat := by
  rw [toRat]
  positivity

theorem den_pos (d : Decimal) : 0 < d.den := Nat.pow_pos (by decide)

/-- A power of ten as a fraction. -/
theorem ten_zpow (exponent : Int) : (10 : ℚ) ^ exponent = 10 ^ exponent.toNat / 10 ^ (-exponent).toNat := by
  rw [← zpow_natCast, ← zpow_natCast, ← zpow_sub₀ (by norm_num)]
  congr 1
  omega

theorem num_div_den (d : Decimal) : (d.num : ℚ) / d.den = d.toRat := by
  rw [num, den, toRat, ten_zpow, ← mul_div_assoc]
  push_cast
  rfl

/-- The same number on a finer grid. -/
theorem toRat_refine (coefficient : Nat) (exponent : Int) (k : Nat) :
    toRat ⟨coefficient * 10 ^ k, exponent⟩ = toRat ⟨coefficient, exponent + k⟩ := by
  rw [toRat, toRat, zpow_add₀ (by norm_num), zpow_natCast]
  push_cast
  ring

/-- A last zero of the coefficient counts as much as one in the exponent. -/
theorem toRat_of_multiple (multiple : d.coefficient % 10 = 0) :
    toRat ⟨d.coefficient / 10, d.exponent + 1⟩ = d.toRat := by
  have refined := toRat_refine (d.coefficient / 10) d.exponent 1
  rw [Nat.pow_one, Nat.div_mul_cancel (Nat.dvd_of_mod_eq_zero multiple)] at refined
  exact refined.symm

theorem toRat_le_of_le {coefficient coefficient' : Nat} (exponent : Int) (le : coefficient ≤ coefficient') :
    toRat ⟨coefficient, exponent⟩ ≤ toRat ⟨coefficient', exponent⟩ := by
  have le' : (coefficient : ℚ) ≤ coefficient' := by exact_mod_cast le
  exact mul_le_mul_of_nonneg_right le' (by positivity)

theorem toRat_ten_pow_le {k : Nat} (long : 10 ^ k ≤ d.coefficient) : toRat ⟨1, d.exponent + k⟩ ≤ d.toRat := by
  rw [← toRat_refine, Nat.one_mul]
  exact toRat_le_of_le d.exponent long

/-- Different points of a grid are at least its step apart. -/
theorem ten_pow_le_distance (coarse : d.exponent ≤ d'.exponent) (differ : d'.toRat ≠ d.toRat) :
    10 ^ d.exponent ≤ |d'.toRat - d.toRat| := by
  obtain ⟨k, exponent⟩ : ∃ k : Nat, d'.exponent = d.exponent + k := ⟨(d'.exponent - d.exponent).toNat, by omega⟩
  have refined : d'.toRat = toRat ⟨d'.coefficient * 10 ^ k, d.exponent⟩ := by rw [toRat_refine, ← exponent]
  have step : (0 : ℚ) < 10 ^ d.exponent := by positivity
  rw [refined] at differ ⊢
  generalize d'.coefficient * 10 ^ k = c at differ ⊢
  have other : c ≠ d.coefficient := by
    rintro rfl
    exact differ rfl
  have apart := Binary64.le_distance_of_dvd (one_dvd c) (one_dvd d.coefficient) other
  rw [toRat, toRat, ← sub_mul, abs_mul, abs_of_pos step]
  exact le_mul_of_one_le_left step.le (by exact_mod_cast apart)

/-! ## Rounding -/

theorem units_den (d : Decimal) : ((d.num * 2 ^ (1074 : Nat) : Nat) : ℚ) / d.den = d.toRat * unitsInOne := by
  rw [← num_div_den, unitsInOne_eq, Nat.cast_mul, mul_div_right_comm]

/-- The units are those of the double nearest to the decimal. -/
theorem rounds_units (d : Decimal) : Rounds (d.toRat * unitsInOne) d.units := by
  rw [← units_den]
  exact Binary64.rounds_roundUnits _ d.den_pos

theorem units_eq_zero (zero : d.toRat = 0) : d.units = 0 := by
  have rounds := d.rounds_units
  rw [zero, zero_mul] at rounds
  exact rounds.eq_zero

theorem units_congr (same : d.toRat = d'.toRat) : d.units = d'.units :=
  Binary64.roundUnits_congr d.den_pos d'.den_pos (by rw [units_den, units_den, same])

theorem units_mono (le : d.toRat ≤ d'.toRat) : d.units ≤ d'.units := by
  rcases eq_or_lt_of_le le with same | less
  · rw [units_congr same]
  · exact d.rounds_units.le_of_lt d'.rounds_units (mul_lt_mul_of_pos_right less unitsInOne_pos)

/-! ## Canonical decimals -/

/-- The coefficient does not end in a zero, or the decimal is zero and has exponent zero. -/
def Canonical (d : Decimal) : Prop := d.coefficient % 10 = 0 → d = ⟨0, 0⟩

/-- A decimal whose coefficient does not end in a zero has the largest exponent of all with its value. -/
theorem exponent_le_of_toRat_eq (digit : d.coefficient % 10 ≠ 0) (same : d.toRat = d'.toRat) :
    d'.exponent ≤ d.exponent := by
  by_contra less
  obtain ⟨k, exponent⟩ : ∃ k : Nat, d'.exponent = d.exponent + (k + 1 : Nat) :=
    ⟨(d'.exponent - d.exponent).toNat - 1, by omega⟩
  have refined : d.toRat = toRat ⟨d'.coefficient * 10 ^ (k + 1), d.exponent⟩ := by
    rw [same, toRat_refine, ← exponent]
  rw [toRat, toRat, mul_left_inj' (by positivity), Nat.cast_inj, Nat.pow_succ, ← Nat.mul_assoc] at refined
  rw [refined, Nat.mul_mod_left] at digit
  exact digit rfl

theorem eq_of_exponent_eq (exponent : d.exponent = d'.exponent) (same : d.toRat = d'.toRat) : d = d' := by
  rw [toRat, toRat, exponent, mul_left_inj' (by positivity), Nat.cast_inj] at same
  cases d
  cases d'
  cases exponent
  cases same
  rfl

theorem Canonical.eq_of_toRat_eq (canonical : d.Canonical) (canonical' : d'.Canonical) (same : d.toRat = d'.toRat) :
    d = d' := by
  have zero_iff (d : Decimal) : d.toRat = 0 ↔ d.coefficient = 0 := by
    rw [toRat, mul_eq_zero_iff_right (by positivity), Nat.cast_eq_zero]
  by_cases zero : d.toRat = 0
  · have zero' := same ▸ zero
    rw [zero_iff] at zero zero'
    rw [canonical (by rw [zero]), canonical' (by rw [zero'])]
  · have digit : d.coefficient % 10 ≠ 0 := by
      intro multiple
      rw [canonical multiple] at zero
      exact zero (by norm_num [toRat])
    have digit' : d'.coefficient % 10 ≠ 0 := by
      intro multiple
      rw [same, canonical' multiple] at zero
      exact zero (by norm_num [toRat])
    have exponent : d.exponent = d'.exponent :=
      le_antisymm (exponent_le_of_toRat_eq digit' same.symm) (exponent_le_of_toRat_eq digit same)
    exact eq_of_exponent_eq exponent same

end Decimal

end Polish
