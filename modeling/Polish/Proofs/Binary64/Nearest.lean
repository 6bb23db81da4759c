import Mathlib.Algebra.Order.Field.Basic
import Mathlib.Algebra.Order.Floor.Semifield
import Mathlib.Data.Nat.Cast.Order.Field
import Mathlib.Data.Rat.Floor
import Mathlib.Tactic.Ring
import Polish.Proofs.Binary64.Spacing

/-!
# The nearest double

`roundHalfEven` gives the whole number nearest to a quotient and `roundUnits` the representable number nearest to it,
both the even one of two that are equally near (`HalfEven`, `Rounds`). All that is said about rounding elsewhere
follows from that: it is monotone, it keeps what is representable, and its error is small.
-/

namespace Polish.Binary64

/-! ## Whole numbers -/

/-- The whole number is nearest to `q`, and even if another one is as near. -/
structure HalfEven (q : ℚ) (n : Nat) : Prop where
  near : |(n : ℚ) - q| ≤ 1 / 2
  even : |(n : ℚ) - q| = 1 / 2 → Even n

/-- Two whole numbers are not both close to a number between them. -/
theorem one_le_distances {k n : Nat} (differ : k ≠ n) (q : ℚ) : 1 ≤ |(k : ℚ) - q| + |(n : ℚ) - q| := by
  have apart := le_distance_of_dvd (one_dvd k) (one_dvd n) differ
  have between := abs_sub_le (k : ℚ) q n
  rw [abs_sub_comm q] at between
  rw [Nat.cast_one] at apart
  linarith

namespace HalfEven

variable {q : ℚ} {n k : Nat}

theorem nearest (half : HalfEven q n) (k : Nat) : |(n : ℚ) - q| ≤ |(k : ℚ) - q| := by
  by_cases same : k = n
  · rw [same]
  · have apart := one_le_distances same q
    have near := half.near
    linarith

theorem even_of_tie (half : HalfEven q n) (differ : k ≠ n) (tie : |(k : ℚ) - q| = |(n : ℚ) - q|) : Even n := by
  have apart := one_le_distances differ q
  have near := half.near
  exact half.even (by linarith)

theorem unique (half : HalfEven q n) (other : HalfEven q k) : n = k := by
  by_contra differ
  have apart := one_le_distances differ q
  have near := half.near
  have near' := other.near
  have even := half.even (by linarith)
  have even' := other.even (by linarith)
  -- Two even numbers are farther apart than one.
  have gap := le_distance_of_dvd even.two_dvd even'.two_dvd differ
  have between := abs_sub_le (n : ℚ) q k
  rw [abs_sub_comm q] at between
  norm_num at gap
  linarith

end HalfEven

theorem div_eq_half_iff {r den : Nat} (positive : 0 < den) : (r : ℚ) / den = 1 / 2 ↔ 2 * r = den := by
  have positive' : (0 : ℚ) < den := by exact_mod_cast positive
  rw [div_eq_div_iff positive'.ne' two_ne_zero, mul_comm, one_mul]
  exact_mod_cast Iff.rfl

theorem div_le_half_iff {r den : Nat} (positive : 0 < den) : (r : ℚ) / den ≤ 1 / 2 ↔ 2 * r ≤ den := by
  have positive' : (0 : ℚ) < den := by exact_mod_cast positive
  rw [div_le_div_iff₀ positive' two_pos, mul_comm, one_mul]
  exact_mod_cast Iff.rfl

theorem halfEven_roundHalfEven (num : Nat) {den : Nat} (positive : 0 < den) :
    HalfEven (num / den) (roundHalfEven num den) := by
  have positive' : (0 : ℚ) < den := by exact_mod_cast positive
  have quotient : (num : ℚ) / den = (num / den : Nat) + (num % den : Nat) / den := by
    have sum : ((num / den : Nat) : ℚ) * den + (num % den : Nat) = num := by exact_mod_cast Nat.div_add_mod' num den
    rw [← sum, add_div, mul_div_cancel_right₀ _ positive'.ne']
  have rest := Nat.mod_lt num positive
  rw [quotient, roundHalfEven]
  generalize num / den = f
  generalize num % den = r at rest ⊢
  have below : ((r : ℚ) / den < 1) := by
    rw [div_lt_one positive']
    exact_mod_cast rest
  have nonneg : (0 : ℚ) ≤ r / den := by positivity
  split
  · next down =>
    have distance : |(f : ℚ) - (f + r / den)| = r / den := by
      rw [sub_add_cancel_left, abs_neg, abs_of_nonneg nonneg]
    refine ⟨?_, ?_⟩
    · rw [distance, div_le_half_iff positive]
      omega
    · rw [distance, div_eq_half_iff positive]
      intro tie
      exact Nat.even_iff.mpr (by omega)
  · next up =>
    have distance : |((f + 1 : Nat) : ℚ) - (f + r / den)| = 1 - r / den := by
      rw [Nat.cast_succ, add_sub_add_left_eq_sub, abs_of_pos (by linarith)]
    refine ⟨?_, ?_⟩
    · have large : ¬ (r : ℚ) / den < 1 / 2 := by
        rw [lt_iff_le_and_ne, div_le_half_iff positive, ne_eq, div_eq_half_iff positive]
        omega
      rw [distance]
      linarith
    · intro tie
      have half : (r : ℚ) / den = 1 / 2 := by
        rw [distance] at tie
        linarith
      rw [div_eq_half_iff positive] at half
      exact Nat.even_iff.mpr (by omega)

/-! ## Representable numbers -/

/-- The units are those of the double nearest to `q` units, overflow aside, and its significand is even if another
double is as near. -/
structure Rounds (q : ℚ) (u : Nat) : Prop where
  isUnits : IsUnits u
  nearest : ∀ v, IsUnits v → |(u : ℚ) - q| ≤ |(v : ℚ) - q|
  even : ∀ v, IsUnits v → v ≠ u → |(v : ℚ) - q| = |(u : ℚ) - q| → Even (u / ulp u)

/-- An even multiple of a spacing has an even significand, also if it is carried to the next power of two. -/
theorem even_significand {n : Nat} (even : Even n) (few : n ≤ 2 ^ 53) (shift : Nat) :
    Even (n * 2 ^ shift / ulp (n * 2 ^ shift)) := by
  rcases Nat.lt_or_eq_of_le few with fewer | rfl
  · have divides : ulp (n * 2 ^ shift) ∣ 2 ^ shift := by
      have below : n * 2 ^ shift ≤ 2 ^ 53 * 2 ^ shift - 1 :=
        Nat.le_sub_one_of_lt (Nat.mul_lt_mul_of_pos_right fewer (Nat.two_pow_pos shift))
      have log : (2 ^ 53 * 2 ^ shift - 1).log2 < 53 + shift := by
        have positive : 1 ≤ 2 ^ shift := Nat.two_pow_pos shift
        rw [Nat.log2_lt (by omega), Nat.pow_add]
        omega
      have bits := log2_mono below
      exact Nat.pow_dvd_pow 2 (by omega)
    rw [Nat.mul_div_assoc n divides]
    exact even.mul_right _
  · have carry : 2 ^ 53 * 2 ^ shift = 2 ^ 52 * 2 ^ (shift + 1) := by
      rw [← Nat.pow_add, ← Nat.pow_add]
      congr 1
      omega
    rw [carry, ← Nat.pow_add, ulp_two_pow, Nat.add_sub_cancel_left, Nat.pow_add,
      Nat.mul_div_cancel _ (Nat.two_pow_pos _)]
    decide

section

variable {num den : Nat}

/-- A representable number is a multiple of the spacing at a number, or it lies below a power of two up to there. -/
theorem IsUnits.ulp_dvd_or_lt {v : Nat} (units : IsUnits v) (f : Nat) :
    ulp f ∣ v ∨ (v < 2 ^ f.log2 ∧ 2 ^ f.log2 ≤ f) := by
  by_cases zero : f = 0
  · rw [zero]
    exact .inl (one_dvd v)
  · exact (units.two_pow_dvd_or_lt f.log2).imp_right fun below => ⟨below, Nat.log2_self_le zero⟩

theorem ulp_dvd_two_pow_log2 (f : Nat) : ulp f ∣ 2 ^ f.log2 := Nat.pow_dvd_pow 2 (by omega)

/-- Of two numbers below a third one the larger is the nearer. -/
theorem distance_lt_of_lt {p q v : ℚ} (below : v < p) (le : p ≤ q) : |p - q| < |v - q| := by
  rw [abs_of_nonpos (by linarith), abs_of_nonpos (by linarith)]
  linarith

/-- Distances from a quotient, counted in spacings. -/
theorem distance_mul (num den k : Nat) {gap : Nat} (positive : 0 < gap) :
    |((k * gap : Nat) : ℚ) - num / den| = |(k : ℚ) - num / (den * gap : Nat)| * gap := by
  have positive' : (0 : ℚ) < gap := by exact_mod_cast positive
  have product : ((k * gap : Nat) : ℚ) - num / den = ((k : ℚ) - num / (den * gap : Nat)) * gap := by
    rw [sub_mul, Nat.cast_mul, Nat.cast_mul, ← div_div, div_mul_cancel₀ _ positive'.ne']
  rw [product, abs_mul, abs_of_pos positive']

/-- Rounding depends on the value of the quotient alone. -/
theorem roundUnits_congr {num den num' den' : Nat} (positive : 0 < den) (positive' : 0 < den')
    (same : (num : ℚ) / den = num' / den') : roundUnits num den = roundUnits num' den' := by
  have floor : num / den = num' / den' := by rw [← Nat.floor_div_eq_div (K := ℚ), same, Nat.floor_div_eq_div]
  have solid := ulp_pos (num' / den')
  have half := halfEven_roundHalfEven num (Nat.mul_pos positive solid)
  have half' := halfEven_roundHalfEven num' (Nat.mul_pos positive' solid)
  rw [Nat.cast_mul, ← div_div, same, div_div, ← Nat.cast_mul] at half
  rw [roundUnits, roundUnits, floor, half.unique half']

/-- Among the multiples of a spacing the rounded one is nearest. -/
theorem nearest_multiple (num : Nat) (positive : 0 < den) {gap : Nat} (solid : 0 < gap) (k : Nat) :
    |((roundHalfEven num (den * gap) * gap : Nat) : ℚ) - num / den| ≤ |((k * gap : Nat) : ℚ) - num / den| := by
  have half := halfEven_roundHalfEven num (Nat.mul_pos positive solid)
  rw [distance_mul num den _ solid, distance_mul num den k solid]
  exact mul_le_mul_of_nonneg_right (half.nearest k) (Nat.cast_nonneg gap)

theorem even_of_equal_distance (num : Nat) (positive : 0 < den) {gap : Nat} (solid : 0 < gap) {k : Nat}
    (differ : k ≠ roundHalfEven num (den * gap))
    (tie : |((k * gap : Nat) : ℚ) - num / den| = |((roundHalfEven num (den * gap) * gap : Nat) : ℚ) - num / den|) :
    Even (roundHalfEven num (den * gap)) := by
  have solid' : (gap : ℚ) ≠ 0 := by exact_mod_cast solid.ne'
  rw [distance_mul num den k solid, distance_mul num den _ solid, mul_left_inj' solid'] at tie
  exact (halfEven_roundHalfEven num (Nat.mul_pos positive solid)).even_of_tie differ tie

/-- What lies below the power of two at the size of the quotient is farther away than that power, which is one of the
multiples. -/
theorem distance_lt_of_lt_two_pow (num : Nat) (positive : 0 < den) {v : Nat} (below : v < 2 ^ (num / den).log2)
    (le : 2 ^ (num / den).log2 ≤ num / den) :
    |((roundUnits num den : Nat) : ℚ) - num / den| < |(v : ℚ) - num / den| := by
  obtain ⟨k, multiple⟩ := ulp_dvd_two_pow_log2 (num / den)
  have least := nearest_multiple num positive (ulp_pos (num / den)) k
  have floor : ((num / den : Nat) : ℚ) ≤ num / den := Nat.cast_div_le
  have below' : (v : ℚ) < (2 ^ (num / den).log2 : Nat) := by exact_mod_cast below
  have le' : ((2 ^ (num / den).log2 : Nat) : ℚ) ≤ (num / den : Nat) := by exact_mod_cast le
  rw [Nat.mul_comm k, ← multiple] at least
  exact least.trans_lt (distance_lt_of_lt below' (le'.trans floor))

/-- Rounding a quotient gives the double nearest to it. -/
theorem rounds_roundUnits (num : Nat) (positive : 0 < den) : Rounds (num / den) (roundUnits num den) := by
  have solid := ulp_pos (num / den)
  refine ⟨ulp_dvd_roundUnits num den, ?_, ?_⟩
  · intro v units
    rcases units.ulp_dvd_or_lt (num / den) with ⟨k, rfl⟩ | ⟨below, le⟩
    · rw [Nat.mul_comm _ k]
      exact nearest_multiple num positive solid k
    · exact (distance_lt_of_lt_two_pow num positive below le).le
  · intro v units differ tie
    rcases units.ulp_dvd_or_lt (num / den) with ⟨k, rfl⟩ | ⟨below, le⟩
    · rw [Nat.mul_comm _ k] at tie differ
      have even := even_of_equal_distance num positive solid (fun same => differ (by rw [same, roundUnits])) tie
      exact even_significand even (roundHalfEven_ulp_le num den) _
    · exact absurd tie (distance_lt_of_lt_two_pow num positive below le).ne'

end

/-! ## What follows from being nearest -/

section

variable {q u v : ℚ}

/-- The middle of two numbers is at most `q` if the larger one is nearer to `q`. -/
theorem le_two_mul_of_nearer (less : v < u) (nearer : |u - q| ≤ |v - q|) : u + v ≤ 2 * q := by
  have squares := sq_le_sq.mpr nearer
  nlinarith

/-- The middle of two numbers is at least `q` if the smaller one is nearer to `q`. -/
theorem two_mul_le_of_nearer (less : v < u) (nearer : |v - q| ≤ |u - q|) : 2 * q ≤ u + v := by
  have squares := sq_le_sq.mpr nearer
  nlinarith

end

theorem IsUnits.rounds {u : Nat} (units : IsUnits u) : Rounds u u where
  isUnits := units
  nearest v _ := by
    rw [sub_self, abs_zero]
    exact abs_nonneg _
  even v _ differ tie := by
    rw [sub_self, abs_zero, abs_eq_zero, sub_eq_zero, Nat.cast_inj] at tie
    exact absurd tie differ

namespace Rounds

variable {q q' : ℚ} {u u' : Nat}

/-- What is representable is its own nearest double. -/
theorem eq_of_isUnits {v : Nat} (rounds : Rounds v u) (units : IsUnits v) : u = v := by
  have least := rounds.nearest v units
  rw [sub_self, abs_zero, abs_nonpos_iff, sub_eq_zero] at least
  exact_mod_cast least

theorem eq_zero (rounds : Rounds 0 u) : u = 0 := by
  rw [← Nat.cast_zero] at rounds
  exact rounds.eq_of_isUnits (isUnits_of_lt (by decide))

theorem le_of_lt (rounds : Rounds q u) (rounds' : Rounds q' u') (less : q < q') : u ≤ u' := by
  by_contra above
  have above' : (u' : ℚ) < u := by exact_mod_cast Nat.lt_of_not_le above
  have least := rounds.nearest u' rounds'.isUnits
  have least' := rounds'.nearest u rounds.isUnits
  have middle := le_two_mul_of_nearer above' least
  have middle' := two_mul_le_of_nearer above' least'
  linarith

theorem le_of_le_isUnits {v : Nat} (rounds : Rounds q u) (units : IsUnits v) (le : q ≤ v) : u ≤ v := by
  rcases eq_or_lt_of_le le with same | less
  · exact (eq_of_isUnits (same ▸ rounds) units).le
  · exact rounds.le_of_lt units.rounds less

theorem isUnits_le {v : Nat} (rounds : Rounds q u) (units : IsUnits v) (le : v ≤ q) : v ≤ u := by
  rcases eq_or_lt_of_le le with same | less
  · exact (eq_of_isUnits (same ▸ rounds) units).ge
  · exact units.rounds.le_of_lt rounds less

/-- A representable number so close to `q` that no other one is closer. -/
theorem eq_of_near {m : Nat} (rounds : Rounds q u) (units : IsUnits m) (near : 2 ^ 54 * |(m : ℚ) - q| < m) : u = m := by
  by_contra differ
  have apart := le_mul_distance rounds.isUnits units differ
  have least := rounds.nearest m units
  have between := abs_sub_le (u : ℚ) q m
  rw [abs_sub_comm q] at between
  linarith

/-- The error is at most half the spacing at the result. -/
theorem error_le (rounds : Rounds q u) (nonneg : 0 ≤ q) : |(u : ℚ) - q| ≤ ulp u / 2 := by
  have positive : (0 : ℚ) < ulp u := by exact_mod_cast ulp_pos u
  have above := rounds.nearest _ rounds.isUnits.add_ulp
  rw [Nat.cast_add] at above
  have upper := two_mul_le_of_nearer (by linarith) above
  have lower : (u : ℚ) - ulp u / 2 ≤ q := by
    by_cases zero : u = 0
    · subst zero
      rw [Nat.cast_zero]
      linarith
    · have fits : ulp u ≤ u := Nat.le_of_dvd (Nat.pos_of_ne_zero zero) rounds.isUnits
      have below := rounds.nearest _ rounds.isUnits.sub_ulp
      rw [Nat.cast_sub fits] at below
      have middle := le_two_mul_of_nearer (by linarith) below
      linarith
  rw [abs_le]
  constructor
  · linarith
  · linarith

end Rounds

end Polish.Binary64
