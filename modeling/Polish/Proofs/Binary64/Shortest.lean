import Polish.Binary64.Shortest
import Polish.Proofs.Decimal.Value

/-!
# The shortest decimal

The shortest decimal of a magnitude reads back as it, no decimal on a coarser grid does, and it has at most seventeen
digits. From the spacing of doubles it follows that a decimal of at most fifteen digits is the shortest one of its
double (`shortest_eq_of_few_digits`).
-/

namespace Polish.Binary64.Magnitude

variable {m : Magnitude} {d : Decimal}

/-- The number that the magnitude is. -/
def toRat (m : Magnitude) : ℚ := m.units / unitsInOne

theorem toRat_mul (m : Magnitude) : m.toRat * unitsInOne = m.units := by
  rw [toRat, div_mul_cancel₀ _ unitsInOne_pos.ne']

theorem toRat_nonneg (m : Magnitude) : 0 ≤ m.toRat := div_nonneg (Nat.cast_nonneg _) unitsInOne_pos.le

theorem toRat_pos (positive : 0 < m.units) : 0 < m.toRat := by
  have positive' : (0 : ℚ) < m.units := by exact_mod_cast positive
  exact div_pos positive' unitsInOne_pos

/-- A decimal up to the magnitude is read as one up to the magnitude. -/
theorem units_le_of_toRat_le (le : d.toRat ≤ m.toRat) : d.units ≤ m.units := by
  apply d.rounds_units.le_of_le_isUnits m.isUnits
  rw [← toRat_mul]
  exact mul_le_mul_of_nonneg_right le unitsInOne_pos.le

theorem le_units_of_le_toRat (le : m.toRat ≤ d.toRat) : m.units ≤ d.units := by
  apply d.rounds_units.isUnits_le m.isUnits
  rw [← toRat_mul]
  exact mul_le_mul_of_nonneg_right le unitsInOne_pos.le

/-! ## One grid -/

section

variable (m) (exponent : Int)

/-- The grid point below the magnitude. -/
def below : Decimal := ⟨m.stepsBelow exponent, exponent⟩

/-- The grid point above the magnitude. -/
def above : Decimal := ⟨m.stepsBelow exponent + 1, exponent⟩

theorem quotient_stepsBelow :
    ((m.units * 10 ^ (-exponent).toNat : Nat) : ℚ) / (2 ^ (1074 : Nat) * 10 ^ exponent.toNat : Nat) =
      m.toRat / 10 ^ exponent := by
  rw [toRat, unitsInOne, Decimal.ten_zpow, div_div_eq_mul_div, ← mul_div_right_comm, div_div]
  simp only [Nat.cast_mul, Nat.cast_pow, Nat.cast_ofNat]

theorem toRat_below_le : (m.below exponent).toRat ≤ m.toRat := by
  have floor : (m.stepsBelow exponent : ℚ) ≤ _ := Nat.cast_div_le
  rwa [quotient_stepsBelow, le_div_iff₀ (by positivity)] at floor

theorem lt_toRat_above : m.toRat < (m.above exponent).toRat := by
  have floor := Nat.lt_floor_add_one (m.toRat / 10 ^ exponent)
  rw [← quotient_stepsBelow, Nat.floor_div_eq_div, quotient_stepsBelow, div_lt_iff₀ (by positivity)] at floor
  rw [above, Decimal.toRat, Nat.cast_succ]
  exact floor

theorem toRat_above : (m.above exponent).toRat = (m.below exponent).toRat + 10 ^ exponent := by
  rw [above, below, Decimal.toRat, Decimal.toRat, Nat.cast_succ, add_one_mul]

end

theorem onGrid?_eq_some {exponent : Int} (found : m.onGrid? exponent = some d) :
    d.exponent = exponent ∧ d.units = m.units := by
  simp only [onGrid?] at found
  split at found
  · next below =>
    split at found
    · next above =>
      cases found
      exact ⟨rfl, above.1⟩
    · cases found
      exact ⟨rfl, below⟩
  · split at found
    · next above =>
      cases found
      exact ⟨rfl, above⟩
    · cases found

/-- Every grid that has a point which reads back is found to have one: the neighbours of the magnitude lie between it
and that point. -/
theorem onGrid?_ne_none (reads : d.units = m.units) : m.onGrid? d.exponent ≠ none := by
  intro missing
  have neither : ¬ (m.below d.exponent).units = m.units ∧ ¬ (m.above d.exponent).units = m.units := by
    simp only [onGrid?] at missing
    split at missing
    · split at missing
      · cases missing
      · cases missing
    · next below =>
      split at missing
      · cases missing
      · next above => exact ⟨below, above⟩
  rcases Nat.lt_or_ge (m.stepsBelow d.exponent) d.coefficient with larger | smaller
  · have upper : (m.above d.exponent).units ≤ d.units := Decimal.units_mono (Decimal.toRat_le_of_le d.exponent larger)
    have lower := le_units_of_le_toRat (m.lt_toRat_above d.exponent).le
    exact neither.2 (by omega)
  · have lower : d.units ≤ (m.below d.exponent).units := Decimal.units_mono (Decimal.toRat_le_of_le d.exponent smaller)
    have upper := units_le_of_toRat_le (m.toRat_below_le d.exponent)
    exact neither.1 (by omega)

/-! ## The search -/

theorem toRat_exact (m : Magnitude) : m.exact.toRat = m.toRat := by
  have power : (10 : ℚ) ^ 1074 = 2 ^ 1074 * 5 ^ 1074 := by
    rw [← mul_pow]
    congr 1
    norm_num
  rw [exact, Decimal.toRat, toRat, unitsInOne, zpow_neg, zpow_ofNat, power, Nat.cast_mul, Nat.cast_pow, Nat.cast_ofNat,
    ← div_eq_mul_inv, mul_div_mul_right _ _ (by positivity)]

theorem units_exact (m : Magnitude) : m.exact.units = m.units :=
  le_antisymm (units_le_of_toRat_le m.toRat_exact.le) (le_units_of_le_toRat m.toRat_exact.ge)

theorem units_coarsest (m : Magnitude) (exponent : Int) (grids : Nat) :
    (m.coarsest exponent grids).units = m.units := by
  induction grids generalizing exponent with
  | zero => exact m.units_exact
  | succ grids ih =>
    rw [coarsest]
    cases found : m.onGrid? exponent with
    | some d => exact (onGrid?_eq_some found).2
    | none => exact ih (exponent - 1)

/-- The search does not pass a grid with a point that reads back. -/
theorem exponent_le_coarsest (reads : d.units = m.units) {exponent : Int} {grids : Nat}
    (searched : exponent < d.exponent + grids) (start : d.exponent ≤ exponent) :
    d.exponent ≤ (m.coarsest exponent grids).exponent := by
  induction grids generalizing exponent with
  | zero => omega
  | succ grids ih =>
    rw [coarsest]
    cases found : m.onGrid? exponent with
    | some point =>
      rw [Option.getD_some, (onGrid?_eq_some found).1]
      exact start
    | none =>
      have other : d.exponent ≠ exponent := by
        rintro rfl
        exact onGrid?_ne_none reads found
      exact ih (by omega) (by omega)

/-! ## The first and the last grid -/

/-- A quotient has about the size that the digits of its whole part say. -/
theorem ten_pow_length_quotient {a b : Nat} (positive : 0 < b) (le : b ≤ a) :
    a ≤ 10 ^ (Nat.toDigits 10 (a / b)).length * b ∧ 10 ^ (Nat.toDigits 10 (a / b)).length * b ≤ 10 * a := by
  have whole : 0 < a / b := Nat.div_pos le positive
  have upper : a / b < 10 ^ (Nat.toDigits 10 (a / b)).length :=
    (Nat.length_toDigits_le_iff (by decide) Nat.length_toDigits_pos).mp le_rfl
  have lower : 10 ^ (Nat.toDigits 10 (a / b)).length ≤ 10 * (a / b) := by
    obtain ⟨k, length⟩ := Nat.exists_eq_add_of_le' (@Nat.length_toDigits_pos 10 (a / b))
    rw [length, Nat.pow_succ']
    rcases Nat.eq_zero_or_pos k with rfl | more
    · omega
    · by_contra small
      have less : a / b < 10 ^ k := by omega
      have few := (Nat.length_toDigits_le_iff (by decide) more).mpr less
      omega
  have floor := Nat.div_mul_le_self a b
  have ceiling : a < (a / b + 1) * b := Nat.lt_mul_of_div_lt (Nat.lt_succ_self _) positive
  constructor
  · exact ceiling.le.trans (Nat.mul_le_mul_right b upper)
  · calc 10 ^ (Nat.toDigits 10 (a / b)).length * b ≤ 10 * (a / b) * b := Nat.mul_le_mul_right b lower
      _ = 10 * (a / b * b) := Nat.mul_assoc ..
      _ ≤ 10 * a := Nat.mul_le_mul_left 10 floor

/-- The first grid's step for any size of a unit. -/
theorem ten_pow_firstStep {units unit : Nat} (positive : 0 < units) (solid : (0 : ℚ) < unit) (top : Int)
    (first : top = if unit ≤ units then ((Nat.toDigits 10 (units / unit)).length : Int)
      else 1 - (Nat.toDigits 10 (unit / units)).length) :
    (units : ℚ) / unit ≤ 10 ^ top ∧ (10 : ℚ) ^ top ≤ 10 * (units / unit) := by
  have positive' : (0 : ℚ) < units := by exact_mod_cast positive
  have whole : 0 < unit := by exact_mod_cast solid
  split at first
  · next large =>
    obtain ⟨upper, lower⟩ := ten_pow_length_quotient whole large
    rw [first, zpow_natCast, div_le_iff₀ solid, ← mul_div_assoc, le_div_iff₀ solid]
    exact ⟨by exact_mod_cast upper, by exact_mod_cast lower⟩
  · next small =>
    obtain ⟨upper, lower⟩ := ten_pow_length_quotient positive (Nat.le_of_not_le small)
    rw [first, zpow_sub₀ (by norm_num), zpow_one, zpow_natCast, div_le_div_iff₀ solid (by positivity),
      ← mul_div_assoc, div_le_div_iff₀ (by positivity) solid]
    constructor
    · rw [mul_comm]
      exact_mod_cast lower
    · rw [mul_assoc, mul_comm (units : ℚ)]
      exact mul_le_mul_of_nonneg_left (by exact_mod_cast upper) (by norm_num)

/-- The step of the first grid is at least the magnitude and at most ten times as large. -/
theorem ten_pow_topExponent (positive : 0 < m.units) :
    m.toRat ≤ 10 ^ m.topExponent ∧ (10 : ℚ) ^ m.topExponent ≤ 10 * m.toRat := by
  have solid := unitsInOne_pos
  rw [unitsInOne_eq] at solid
  have first := ten_pow_firstStep positive solid m.topExponent (by rw [topExponent])
  rwa [← unitsInOne_eq] at first

/-- No grid before the first one has a point that reads back: all its points but zero are far above the magnitude. -/
theorem exponent_le_topExponent (positive : 0 < m.units) (reads : d.units = m.units) : d.exponent ≤ m.topExponent := by
  by_contra coarse
  have nonzero : d.coefficient ≠ 0 := by
    intro zero
    have none : d.units = 0 := Decimal.units_eq_zero (by rw [Decimal.toRat, zero, Nat.cast_zero, zero_mul])
    omega
  have one : (1 : ℚ) ≤ d.coefficient := by exact_mod_cast Nat.pos_of_ne_zero nonzero
  have double : 2 * m.units ≤ d.units := by
    apply d.rounds_units.isUnits_le m.isUnits.two_mul
    have steps : (10 : ℚ) ^ (m.topExponent + 1) ≤ 10 ^ d.exponent := zpow_le_zpow_right₀ (by norm_num) (by omega)
    have top := (ten_pow_topExponent positive).1
    have large : 2 * m.toRat ≤ d.toRat := by
      calc 2 * m.toRat ≤ 10 * m.toRat := mul_le_mul_of_nonneg_right (by norm_num) m.toRat_nonneg
        _ ≤ 10 * 10 ^ m.topExponent := mul_le_mul_of_nonneg_left top (by norm_num)
        _ = 10 ^ (m.topExponent + 1) := by rw [zpow_add_one₀ (by norm_num), mul_comm]
        _ ≤ 10 ^ d.exponent := steps
        _ ≤ d.coefficient * 10 ^ d.exponent := le_mul_of_one_le_left (by positivity) one
    rw [Nat.cast_mul, Nat.cast_ofNat, ← toRat_mul, ← mul_assoc]
    exact mul_le_mul_of_nonneg_right large unitsInOne_pos.le
  omega

/-- The last grid has a point that reads back, because it is finer than the doubles are spaced. -/
theorem exists_reads_on_last (positive : 0 < m.units) :
    ∃ d : Decimal, d.exponent = m.topExponent - 17 ∧ d.units = m.units := by
  -- The nearer neighbour is at most half a step away.
  obtain ⟨point, exponent, near⟩ : ∃ d : Decimal, d.exponent = m.topExponent - 17 ∧
      2 * |m.toRat - d.toRat| ≤ 10 ^ (m.topExponent - 17) := by
    have low := m.toRat_below_le (m.topExponent - 17)
    have high := m.lt_toRat_above (m.topExponent - 17)
    have step := m.toRat_above (m.topExponent - 17)
    rcases le_total (2 * (m.toRat - (m.below (m.topExponent - 17)).toRat)) (10 ^ (m.topExponent - 17)) with near | far
    · exact ⟨m.below _, rfl, by rwa [abs_of_nonneg (by linarith)]⟩
    · refine ⟨m.above _, rfl, ?_⟩
      rw [abs_of_neg (by linarith)]
      linarith
  refine ⟨point, exponent, point.rounds_units.eq_of_near m.isUnits ?_⟩
  have size := (ten_pow_topExponent positive).2
  have fine : (10 : ℚ) ^ (m.topExponent - 17) = 10 ^ m.topExponent / 10 ^ 17 := zpow_sub₀ (by norm_num) _ _
  have solid := toRat_pos positive
  rw [← toRat_mul, ← sub_mul, abs_mul, abs_of_pos unitsInOne_pos, ← mul_assoc]
  apply mul_lt_mul_of_pos_right _ unitsInOne_pos
  linarith

/-! ## The shortest decimal -/

/-- The shortest decimal reads back. -/
theorem units_shortest (m : Magnitude) : m.shortest.units = m.units := m.units_coarsest _ _

theorem last_le_exponent_shortest (positive : 0 < m.units) : m.topExponent - 17 ≤ m.shortest.exponent := by
  obtain ⟨last, exponent, reads⟩ := exists_reads_on_last positive
  rw [← exponent]
  exact exponent_le_coarsest reads (by omega) (by omega)

/-- No decimal on a coarser grid reads back. -/
theorem exponent_le_shortest (positive : 0 < m.units) (reads : d.units = m.units) :
    d.exponent ≤ m.shortest.exponent := by
  rcases Int.lt_or_le m.topExponent (d.exponent + 18) with searched | fine
  · exact exponent_le_coarsest reads searched (exponent_le_topExponent positive reads)
  · have last := last_le_exponent_shortest positive
    omega

theorem shortest_of_units_eq_zero (zero : m.units = 0) : m.shortest = ⟨0, 0⟩ := by
  have least : m = .zero := ext_units zero
  rw [least]
  decide +kernel

theorem canonical_shortest (m : Magnitude) : m.shortest.Canonical := by
  intro multiple
  rcases Nat.eq_zero_or_pos m.units with zero | positive
  · exact shortest_of_units_eq_zero zero
  · -- Without the last zero the decimal would be on a coarser grid.
    have reads := (Decimal.units_congr (Decimal.toRat_of_multiple multiple)).trans m.units_shortest
    have coarser := exponent_le_shortest positive reads
    exact absurd coarser (Int.not_le.mpr (Int.lt_succ _))

theorem coefficient_shortest_lt (m : Magnitude) : m.shortest.coefficient < 10 ^ 17 := by
  rcases Nat.eq_zero_or_pos m.units with zero | positive
  · rw [shortest_of_units_eq_zero zero]
    decide
  · by_contra long
    -- A power of ten would lie between the magnitude and its shortest decimal.
    have below := Decimal.toRat_ten_pow_le (Nat.le_of_not_lt long)
    have above : m.toRat ≤ Decimal.toRat ⟨1, m.shortest.exponent + (17 : Nat)⟩ := by
      have last := last_le_exponent_shortest positive
      refine (ten_pow_topExponent positive).1.trans ?_
      rw [Decimal.toRat, Nat.cast_one, one_mul]
      exact zpow_le_zpow_right₀ (by norm_num) (Int.sub_right_le_iff_le_add.mp last)
    have upper := Decimal.units_mono below
    have lower := le_units_of_le_toRat above
    rw [units_shortest] at upper
    have coarser := exponent_le_shortest positive (le_antisymm upper lower)
    exact absurd coarser (Int.not_le.mpr (Int.lt_add_of_pos_right _ (by decide)))

/-- A decimal of at most fifteen digits is the shortest one of its double, if that is no subnormal number: doubles are
spaced more finely there than decimals of fifteen digits. -/
theorem shortest_eq_of_few_digits (canonical : d.Canonical) (few : d.coefficient < 10 ^ 15)
    (normal : 2 ^ 52 ≤ d.toRat * unitsInOne) (reads : d.units = m.units) : m.shortest = d := by
  have normal' : 2 ^ 52 ≤ m.units := by
    rw [← reads]
    exact d.rounds_units.isUnits_le (Binary64.isUnits_two_pow 52) (by exact_mod_cast normal)
  have coarse := exponent_le_shortest (Nat.lt_of_lt_of_le (Nat.two_pow_pos 52) normal') reads
  have reads' := m.units_shortest
  have canonical' := m.canonical_shortest
  generalize m.shortest = s at *
  apply canonical'.eq_of_toRat_eq canonical
  by_contra differ
  -- Both decimals are within half a spacing of the magnitude, but at least one grid step from each other.
  have error := d.rounds_units.error_le (mul_nonneg d.toRat_nonneg unitsInOne_pos.le)
  have error' := s.rounds_units.error_le (mul_nonneg s.toRat_nonneg unitsInOne_pos.le)
  have between := abs_sub_le (s.toRat * unitsInOne) m.units (d.toRat * unitsInOne)
  have apart := mul_le_mul_of_nonneg_right (Decimal.ten_pow_le_distance coarse differ) unitsInOne_pos.le
  have size : d.toRat * unitsInOne < 10 ^ 15 * (10 ^ d.exponent * unitsInOne) := by
    have few' : (d.coefficient : ℚ) < 10 ^ 15 := by exact_mod_cast few
    have step : (0 : ℚ) < 10 ^ d.exponent * unitsInOne := mul_pos (by positivity) unitsInOne_pos
    rw [Decimal.toRat, mul_assoc]
    exact mul_lt_mul_of_pos_right few' step
  have spacing : 2 ^ 52 * (Binary64.ulp m.units : ℚ) ≤ m.units := by exact_mod_cast Binary64.mul_ulp_le normal'
  rw [← sub_mul, abs_mul, abs_of_pos unitsInOne_pos, abs_sub_comm (s.toRat * _)] at between
  rw [reads] at error
  rw [reads'] at error'
  have lower := (abs_le.mp error).2
  generalize d.toRat * unitsInOne = decimal at *
  generalize |s.toRat - d.toRat| * unitsInOne = distance at *
  generalize (10 : ℚ) ^ d.exponent * unitsInOne = step at *
  linarith

end Polish.Binary64.Magnitude
