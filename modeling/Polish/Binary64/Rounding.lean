import Polish.Binary64.Magnitude

/-!
# Rounding to binary64

`roundHalfEven` rounds a quotient of natural numbers to a whole number, and `roundUnits` rounds a quotient of
units to a multiple of the spacing at its size, ties to the even multiple. A carry into the next power of two
needs no case of its own: `ulp_dvd_roundUnits` says the result is representable either way. A result at or
above the limit is an overflow.
-/

namespace Polish.Binary64

/-- The quotient rounded to the nearest whole number, a tie to the even one. -/
def roundHalfEven (num den : Nat) : Nat :=
  if 2 * (num % den) < den ∨ (2 * (num % den) = den ∧ num / den % 2 = 0) then num / den else num / den + 1

theorem roundHalfEven_le_succ (num den : Nat) : roundHalfEven num den ≤ num / den + 1 := by
  unfold roundHalfEven; split <;> omega

/-- The quotient rounded to the doubles' spacing at its size, a tie to the even multiple of that spacing. -/
def roundUnits (num den : Nat) : Nat :=
  let gap := ulp (num / den)
  roundHalfEven num (den * gap) * gap

theorem div_ulp_lt (units : Nat) : units / ulp units < 2 ^ (53 : Nat) := by
  rw [Nat.div_lt_iff_lt_mul (ulp_pos units), ulp, ← Nat.pow_add]
  exact Nat.lt_of_lt_of_le Nat.lt_log2_self (Nat.pow_le_pow_right (by decide) (by omega))

theorem roundHalfEven_ulp_le (num den : Nat) : roundHalfEven num (den * ulp (num / den)) ≤ 2 ^ (53 : Nat) := by
  have h := roundHalfEven_le_succ num (den * ulp (num / den))
  rw [← Nat.div_div_eq_div_mul] at h
  have := div_ulp_lt (num / den)
  omega

/-- A rounded quotient is a multiple of the spacing at the size of the result. -/
theorem ulp_dvd_roundUnits (num den : Nat) : ulp (roundUnits num den) ∣ roundUnits num den := by
  have h := roundHalfEven_ulp_le num den
  simp only [roundUnits]
  generalize roundHalfEven num (den * ulp (num / den)) = n at h ⊢
  unfold ulp
  generalize (num / den).log2 - 52 = k
  rcases Nat.lt_or_eq_of_le h with h | rfl
  · exact ulp_dvd_mul_two_pow k h
  · have carry : 2 ^ (53 : Nat) * 2 ^ k = 2 ^ (52 : Nat) * 2 ^ (k + 1) := by
      rw [← Nat.pow_add, ← Nat.pow_add]
      congr 1
      omega
    rw [carry]
    exact ulp_dvd_mul_two_pow (k + 1) (by decide)

/-- The double nearest to a quotient of units, ties to even; nothing if it overflows. -/
def Magnitude.nearest? (num den : Nat) : Option Magnitude :=
  if h : roundUnits num den < overflowLimit then some ⟨roundUnits num den, ulp_dvd_roundUnits num den, h⟩
  else none

end Polish.Binary64
