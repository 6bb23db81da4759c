/-!
# Finite magnitudes of binary64

A finite double is a whole number of units of `2 ^ (-1074)`, the smallest positive double. Written in those
units, the representable magnitudes are the multiples of their own spacing `ulp` below `2 ^ 2098`, with
no case for subnormal numbers: below `2 ^ 53` units the spacing is one unit. `ulp_dvd_mul_two_pow` is the reason
that every significand of 53 bits, shifted, is representable.
-/

namespace Polish

namespace Binary64

/-- Powers of natural numbers are here those of the core library, also where there are powers in monoids. An exponent
that is a numeral needs its type for that. -/
scoped instance (priority := 20000) natPow : Pow Nat Nat := instPowNat

/-- The spacing of the doubles at a magnitude, in units of `2 ^ (-1074)`. -/
def ulp (units : Nat) : Nat := 2 ^ (units.log2 - 52)

theorem ulp_pos (units : Nat) : 0 < ulp units := Nat.two_pow_pos _

/-- A significand of at most 53 bits, shifted left, is a multiple of its spacing. -/
theorem ulp_dvd_mul_two_pow {significand : Nat} (shift : Nat) (h : significand < 2 ^ (53 : Nat)) :
    ulp (significand * 2 ^ shift) ∣ significand * 2 ^ shift := by
  by_cases zero : significand = 0
  · simp [zero]
  · have product : significand * 2 ^ shift ≠ 0 := Nat.mul_ne_zero zero (Nat.ne_of_gt (Nat.two_pow_pos shift))
    have bits : (significand * 2 ^ shift).log2 < 53 + shift := by
      rw [Nat.log2_lt product, Nat.pow_add]
      exact Nat.mul_lt_mul_of_pos_right h (Nat.two_pow_pos _)
    exact Nat.dvd_trans (Nat.pow_dvd_pow 2 (by omega)) (Nat.dvd_mul_left _ _)

/-- The least magnitude beyond the finite doubles: `2 ^ 1024`, in units. -/
def overflowLimit : Nat := 2 ^ (2098 : Nat)

theorem two_pow_le_overflowLimit {k : Nat} (h : k ≤ 2098) : 2 ^ k ≤ overflowLimit := by
  rw [overflowLimit]
  apply Nat.pow_le_pow_right
  · decide
  · exact h

/-- A non-negative finite double, counted in units of `2 ^ (-1074)`. -/
structure Magnitude where
  units : Nat
  ulp_dvd : ulp units ∣ units
  lt_limit : units < overflowLimit
deriving DecidableEq

namespace Magnitude

theorem ext_units {a b : Magnitude} (h : a.units = b.units) : a = b := by
  cases a; cases b; simp_all

/-- The magnitude with the given significand, shifted left by `shift` binary places. -/
def ofSignificand (significand shift : Nat) (hs : significand < 2 ^ (53 : Nat)) (hk : shift ≤ 2045) : Magnitude where
  units := significand * 2 ^ shift
  ulp_dvd := ulp_dvd_mul_two_pow shift hs
  lt_limit := by
    have below := Nat.mul_lt_mul_of_pos_right hs (Nat.two_pow_pos shift)
    rw [← Nat.pow_add] at below
    exact Nat.lt_of_lt_of_le below (two_pow_le_overflowLimit (by omega))

/-- Zero. -/
def zero : Magnitude := ofSignificand 0 0 (by decide) (by decide)

end Magnitude

end Binary64

end Polish
