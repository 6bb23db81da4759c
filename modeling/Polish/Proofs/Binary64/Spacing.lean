import Mathlib.Algebra.Order.Ring.Abs
import Mathlib.Data.Nat.Log
import Mathlib.Data.Rat.Cast.Order
import Mathlib.Tactic.Linarith
import Mathlib.Tactic.Positivity
import Polish.Binary64.Rounding

/-!
# The spacing of doubles

A number of units is representable if it is a multiple of its own spacing (`IsUnits`). The spacing doubles from one
power of two to the next, so a representable number is a multiple of every smaller spacing, and two of them are at
least `2 ^ (-53)` of either one apart (`le_mul_distance`). The distance is that short only below a power of two.
-/

namespace Polish.Binary64

/-- Whether a finite double has this many units, overflow aside. -/
def IsUnits (u : Nat) : Prop := ulp u ∣ u

theorem Magnitude.isUnits (m : Magnitude) : IsUnits m.units := m.ulp_dvd

theorem log2_mono {u v : Nat} (le : u ≤ v) : u.log2 ≤ v.log2 := by
  rw [Nat.log2_eq_log_two, Nat.log2_eq_log_two]
  exact Nat.log_mono_right le

/-- Spacings are powers of two, so the smaller one divides the larger one. -/
theorem ulp_dvd_ulp {u v : Nat} (le : u ≤ v) : ulp u ∣ ulp v := by
  have := log2_mono le
  exact Nat.pow_dvd_pow 2 (by omega)

theorem ulp_two_pow (k : Nat) : ulp (2 ^ k) = 2 ^ (k - 52) := by
  rw [ulp, Nat.log2_two_pow]

theorem isUnits_mul_two_pow {significand : Nat} (shift : Nat) (few : significand < 2 ^ 53) :
    IsUnits (significand * 2 ^ shift) :=
  ulp_dvd_mul_two_pow shift few

theorem isUnits_two_pow (k : Nat) : IsUnits (2 ^ k) := by
  have := @isUnits_mul_two_pow 1 k (by decide)
  rwa [Nat.one_mul] at this

theorem isUnits_of_lt {u : Nat} (small : u < 2 ^ 53) : IsUnits u := by
  have := isUnits_mul_two_pow 0 small
  rwa [Nat.pow_zero, Nat.mul_one] at this

/-- A representable number is a multiple of the spacing at a power of two, or smaller than that power. -/
theorem IsUnits.two_pow_dvd_or_lt {u : Nat} (units : IsUnits u) (k : Nat) : 2 ^ (k - 52) ∣ u ∨ u < 2 ^ k := by
  rcases Nat.lt_or_ge u (2 ^ k) with below | above
  · exact .inr below
  · have divides := ulp_dvd_ulp above
    rw [ulp_two_pow] at divides
    exact .inl (divides.trans units)

/-- Doubling keeps a number representable. -/
theorem IsUnits.two_mul {u : Nat} (units : IsUnits u) : IsUnits (2 * u) := by
  by_cases zero : u = 0
  · simp [zero, IsUnits]
  · have log : (2 * u).log2 = u.log2 + 1 := by
      have positive : 2 * u ≠ 0 := by omega
      have lower := Nat.log2_self_le zero
      have upper := @Nat.lt_log2_self u
      rw [Nat.log2_eq_iff positive, Nat.pow_succ, Nat.pow_succ]
      rw [Nat.pow_succ] at upper
      omega
    have spacing : ulp (2 * u) ∣ 2 * ulp u := by
      rw [ulp, ulp, log, ← Nat.pow_succ']
      exact Nat.pow_dvd_pow 2 (by omega)
    exact spacing.trans (Nat.mul_dvd_mul_left 2 units)

/-- The next larger number is representable, also if it is a power of two. -/
theorem IsUnits.add_ulp {u : Nat} (units : IsUnits u) : IsUnits (u + ulp u) := by
  have few := div_ulp_lt u
  have sum : u + ulp u = (u / ulp u + 1) * 2 ^ (u.log2 - 52) := by
    rw [← ulp, Nat.succ_mul, Nat.div_mul_cancel units]
  rw [sum]
  have le : u / ulp u + 1 ≤ 2 ^ 53 := few
  rcases Nat.lt_or_eq_of_le le with fewer | carry
  · exact isUnits_mul_two_pow _ fewer
  · rw [carry, ← Nat.pow_add]
    exact isUnits_two_pow _

theorem IsUnits.sub_ulp {u : Nat} (units : IsUnits u) : IsUnits (u - ulp u) := by
  have few := div_ulp_lt u
  have difference : u - ulp u = (u / ulp u - 1) * 2 ^ (u.log2 - 52) := by
    rw [← ulp, Nat.sub_mul, Nat.div_mul_cancel units, Nat.one_mul]
  rw [difference]
  exact isUnits_mul_two_pow _ (by omega)

/-- Less than `2 ^ 53` spacings make a number. -/
theorem lt_mul_ulp (u : Nat) : u < 2 ^ 53 * ulp u := by
  have := div_ulp_lt u
  rwa [Nat.div_lt_iff_lt_mul (ulp_pos u)] at this

/-- From `2 ^ 52` on at least `2 ^ 52` spacings make a number. -/
theorem mul_ulp_le {u : Nat} (large : 2 ^ 52 ≤ u) : 2 ^ 52 * ulp u ≤ u := by
  have nonzero : u ≠ 0 := by omega
  have log : 52 ≤ u.log2 := (Nat.le_log2 nonzero).mpr large
  have lower := Nat.log2_self_le nonzero
  rwa [ulp, ← Nat.pow_add, Nat.add_sub_cancel' log]

/-! ## Distances -/

/-- Different multiples of a number are at least that number apart. -/
theorem le_distance_of_dvd {gap u v : Nat} (first : gap ∣ u) (second : gap ∣ v) (differ : u ≠ v) :
    (gap : ℚ) ≤ |(u : ℚ) - v| := by
  have divides : (gap : ℤ) ∣ u - v := dvd_sub (by exact_mod_cast first) (by exact_mod_cast second)
  have nonzero : (u : ℤ) - v ≠ 0 := by omega
  have le := Int.le_of_dvd (abs_pos.mpr nonzero) ((dvd_abs _ _).mpr divides)
  exact_mod_cast le

/-- Below the power of two under a representable number `m` the spacing may be half as large as at `m`. -/
theorem le_mul_sub_of_lt_two_pow {u m k : Nat} (units : IsUnits u) (units' : IsUnits m) (log : m.log2 = k + 53)
    (below : u < 2 ^ (k + 53)) : m ≤ 2 ^ 53 * (m - u) := by
  have nonzero : m ≠ 0 := by
    rintro rfl
    simp at log
  have lower := Nat.log2_self_le nonzero
  have upper := @Nat.lt_log2_self m
  have spacing : 2 ^ (k + 1) ∣ m := by
    have divides : 2 ^ (m.log2 - 52) ∣ m := units'
    rwa [log, show k + 53 - 52 = k + 1 from rfl] at divides
  rw [log] at lower upper
  -- All the powers are multiples of the spacing `2 ^ k` below the power of two.
  have power : 2 ^ (k + 53) = 2 ^ 53 * 2 ^ k := by rw [Nat.pow_add, Nat.mul_comm]
  have power' : 2 ^ (k + 53 + 1) = 2 ^ 54 * 2 ^ k := by rw [Nat.add_assoc, Nat.pow_add, Nat.mul_comm]
  have half : 2 ^ (k + 52) = 2 ^ 52 * 2 ^ k := by rw [Nat.pow_add, Nat.mul_comm]
  have step : 2 ^ (k + 1) = 2 * 2 ^ k := Nat.pow_succ'
  obtain ⟨multiple, rfl⟩ := spacing
  rcases units.two_pow_dvd_or_lt (k + 52) with divides | far
  · rw [Nat.add_sub_cancel] at divides
    obtain ⟨multiple', rfl⟩ := divides
    rw [step] at lower upper ⊢
    rw [power] at lower below
    rw [power'] at upper
    have positive := Nat.two_pow_pos k
    generalize 2 ^ k = gap at *
    rw [Nat.mul_comm gap] at below ⊢
    rw [Nat.mul_right_comm] at lower upper ⊢
    have few := Nat.lt_of_mul_lt_mul_right below
    have many := Nat.le_of_mul_le_mul_right lower positive
    have some := Nat.lt_of_mul_lt_mul_right upper
    rw [← Nat.sub_mul, ← Nat.mul_assoc]
    exact Nat.mul_le_mul_right gap (by omega)
  · rw [half] at far
    rw [power] at lower
    rw [power'] at upper
    omega

/-- Different representable numbers are at least `2 ^ (-53)` of one of them apart. -/
theorem le_mul_distance {u m : Nat} (units : IsUnits u) (units' : IsUnits m) (differ : u ≠ m) :
    (m : ℚ) ≤ 2 ^ 53 * |(u : ℚ) - m| := by
  rcases units.two_pow_dvd_or_lt m.log2 with divides | below
  · have apart := le_distance_of_dvd divides units' differ
    have few : (m : ℚ) < 2 ^ 53 * (2 ^ (m.log2 - 52) : Nat) := by exact_mod_cast lt_mul_ulp m
    linarith
  · rcases Nat.lt_or_ge m.log2 53 with small | large
    · -- Here the spacing is one unit.
      have apart := le_distance_of_dvd (one_dvd u) (one_dvd m) differ
      have few : m < 2 ^ 53 := Nat.lt_of_lt_of_le Nat.lt_log2_self (Nat.pow_le_pow_right (by decide) small)
      have few' : (m : ℚ) < 2 ^ 53 := by exact_mod_cast few
      rw [Nat.cast_one] at apart
      linarith
    · obtain ⟨k, log⟩ := Nat.exists_eq_add_of_le' large
      rw [log] at below
      have nonzero : m ≠ 0 := by
        rintro rfl
        simp at log
      have lower := Nat.log2_self_le nonzero
      rw [log] at lower
      have apart := le_mul_sub_of_lt_two_pow units units' log below
      have less : u ≤ m := by omega
      have apart' : (m : ℚ) ≤ 2 ^ 53 * ((m : ℚ) - u) := by
        rw [← Nat.cast_sub less]
        exact_mod_cast apart
      have distance : (m : ℚ) - u ≤ |(u : ℚ) - m| := by
        rw [abs_sub_comm]
        exact le_abs_self _
      linarith

end Polish.Binary64
