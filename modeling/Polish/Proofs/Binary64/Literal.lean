import Polish.Proofs.Binary64.Shortest
import Polish.Proofs.Decimal.PlainNumber
import Polish.Proofs.Lexer.NumberText

/-!
# Doubles and plain numbers

A plain number is read as the double nearest to it (`nearestTo_of_units`). Every finite double is written as a plain
number of at most seventeen significant digits and read back from it, and a plain number of at most fifteen significant
digits is the one that is written for its double, unless it is too small or too large.
-/

namespace Polish

namespace Binary64

/-! ## Doubles as numbers -/

/-- The number that a finite double is. -/
def toRat : Binary64 → ℚ
  | finite negative m => signed negative m.toRat
  | _ => 0

/-- Whether the significand of a finite double ends in a zero bit. -/
def HasEvenSignificand : Binary64 → Prop
  | finite _ m => Even (m.units / ulp m.units)
  | _ => False

/-- The double is the finite one nearest to the number, and that with the even significand if two are as near. -/
structure NearestTo (x : Binary64) (q : ℚ) : Prop where
  isFinite : x.isFinite
  nearest : ∀ y : Binary64, y.isFinite → |x.toRat - q| ≤ |y.toRat - q|
  even : ∀ y : Binary64, y.isFinite → y.toRat ≠ x.toRat → |y.toRat - q| = |x.toRat - q| → x.HasEvenSignificand

section

variable {m m' : Magnitude} {q : ℚ}

theorem Magnitude.distance_mul (m : Magnitude) (q : ℚ) :
    |m.toRat - q| * unitsInOne = |(m.units : ℚ) - q * unitsInOne| := by
  rw [← m.toRat_mul, ← sub_mul, abs_mul, abs_of_pos unitsInOne_pos]

theorem Magnitude.nearest (rounds : Rounds (q * unitsInOne) m.units) (m' : Magnitude) :
    |m.toRat - q| ≤ |m'.toRat - q| := by
  have least := rounds.nearest m'.units m'.isUnits
  rw [← m.distance_mul, ← m'.distance_mul] at least
  exact le_of_mul_le_mul_right least unitsInOne_pos

theorem Magnitude.even_of_tie (rounds : Rounds (q * unitsInOne) m.units) (differ : m'.units ≠ m.units)
    (tie : |m'.toRat - q| = |m.toRat - q|) : Even (m.units / ulp m.units) := by
  apply rounds.even m'.units m'.isUnits differ
  rw [← m.distance_mul, ← m'.distance_mul, tie]

/-- The opposite of a double other than zero is not as near to what the double is nearest to. -/
theorem opposite_is_farther (nonneg : 0 ≤ q) (rounds : Rounds (q * unitsInOne) m.units) {negative negative' : Bool}
    (differ : signed negative' m.toRat ≠ signed negative m.toRat) :
    |signed negative' m.toRat - signed negative q| ≠ |m.toRat - q| := by
  have opposite : negative' ≠ negative := fun same => differ (by rw [same])
  have nonzero : m.toRat ≠ 0 := by
    intro zero
    apply differ
    rw [zero, signed, signed, neg_zero, ite_self, ite_self]
  have positive : 0 < m.toRat := lt_of_le_of_ne m.toRat_nonneg nonzero.symm
  have positive' : 0 < q := by
    apply lt_of_le_of_ne nonneg
    rintro rfl
    rw [zero_mul] at rounds
    rw [Magnitude.toRat, rounds.eq_zero, Nat.cast_zero, zero_div] at nonzero
    exact nonzero rfl
  rw [signed_sub_of_ne opposite, abs_of_pos (by linarith)]
  refine (abs_lt.mpr ⟨?_, ?_⟩).ne'
  · linarith
  · linarith

/-- Rounding without the sign gives the nearest double with the sign. -/
theorem nearestTo_of_rounds (nonneg : 0 ≤ q) (rounds : Rounds (q * unitsInOne) m.units) (negative : Bool) :
    (finite negative m).NearestTo (signed negative q) := by
  refine ⟨rfl, ?_, ?_⟩
  · rintro (_ | _ | ⟨negative', m'⟩) isFinite
    · cases isFinite
    · cases isFinite
    · rw [toRat, toRat, signed_sub]
      exact (Magnitude.nearest rounds m').trans (abs_sub_le_signed m'.toRat_nonneg nonneg _ _)
  · rintro (_ | _ | ⟨negative', m'⟩) isFinite differ tie
    · cases isFinite
    · cases isFinite
    · rw [toRat, toRat] at differ tie
      rw [signed_sub] at tie
      by_cases same : m' = m
      · subst same
        exact absurd tie (opposite_is_farther nonneg rounds differ)
      · have near := Magnitude.nearest rounds m'
        have far := abs_sub_le_signed m'.toRat_nonneg nonneg negative' negative
        exact Magnitude.even_of_tie rounds (fun units => same (Magnitude.ext_units units)) (by linarith)

end

/-! ## Plain numbers as text -/

variable {x : Binary64} {p : PlainNumber} {m : Magnitude}

theorem toMagnitude?_eq_some_iff {d : Decimal} : d.toMagnitude? = some m ↔ d.units = m.units := by
  rw [Decimal.toMagnitude?, Magnitude.nearest?, Decimal.units]
  split
  · next fits =>
    constructor
    · intro rounded
      cases rounded
      rfl
    · intro units
      exact congrArg some (Magnitude.ext_units units)
  · next beyond =>
    constructor
    · intro rounded
      cases rounded
    · intro units
      rw [units] at beyond
      exact absurd m.lt_limit beyond

/-- A digit in front keeps a text from being taken for a signed one. -/
theorem splitSign_body (p : PlainNumber) : Decimal.splitSign p.body = (false, p.body) := by
  obtain ⟨c, rest, whole⟩ := List.exists_cons_of_ne_nil p.whole_ne_nil
  have digit := p.isDigit_of_mem_whole c (whole ▸ List.mem_cons_self)
  rw [PlainNumber.body, whole, List.cons_append, Decimal.splitSign]
  · intro _ sign
    rw [(List.cons.inj sign).1] at digit
    simp at digit
  · intro _ sign
    rw [(List.cons.inj sign).1] at digit
    simp at digit

theorem ofDecimal_eq_finite {d : Decimal} (units : d.units = m.units) (negative : Bool) :
    ofDecimal negative d = finite negative m := by
  have rounded : d.toMagnitude? = some m := toMagnitude?_eq_some_iff.mpr units
  -- Unfolded where it is applied, the match would be evaluated up to the comparison with the overflow limit.
  have unfolded : ∀ read, read = ofDecimal → read negative d = finite negative m := by
    intro read same
    delta ofDecimal at same
    simp only [same, rounded]
  exact unfolded ofDecimal rfl

theorem ofChars?_body (p : PlainNumber) : Decimal.ofChars? p.body = some p.decimal := by
  have digits : ¬ p.digits = [] := by
    intro none
    exact p.whole_ne_nil (List.append_eq_nil_iff.mp none).1
  have rest : Decimal.splitFraction (if p.fraction = [] then [] else '.' :: p.fraction) = (p.fraction, []) := by
    split
    · next none => rw [none, Decimal.splitFraction.eq_2 _ (by rintro _ ⟨⟩)]
    · have inside := p.isDigit_of_mem_fraction
      rw [Decimal.splitFraction, List.takeWhile_eq_self_iff.mpr inside, List.dropWhile_eq_nil_iff.mpr inside]
  have stop : (if p.fraction = [] then [] else '.' :: p.fraction).takeWhile Char.isDigit = [] ∧
      (if p.fraction = [] then [] else '.' :: p.fraction).dropWhile Char.isDigit =
        if p.fraction = [] then [] else '.' :: p.fraction := by
    split
    · exact ⟨rfl, rfl⟩
    · exact ⟨rfl, rfl⟩
  have whole := p.isDigit_of_mem_whole
  rw [Decimal.ofChars?, PlainNumber.body, List.takeWhile_append_of_pos whole, List.dropWhile_append_of_pos whole,
    stop.1, stop.2, rest, List.append_nil]
  exact (if_neg digits).trans (congrArg some (congrArg _ (Int.zero_sub _)))

theorem ofText?_chars (p : PlainNumber) : ofText? p.chars = some (ofDecimal p.negative p.decimal) := by
  have sign : Decimal.splitSign p.chars = (p.negative, p.body) := by
    rw [PlainNumber.chars]
    cases p.negative with
    | true => rfl
    | false => exact splitSign_body p
  rw [ofText?, sign]
  simp only [ofChars?_body]

theorem chars_finite (negative : Bool) (m : Magnitude) :
    (finite negative m).chars = if negative then '-' :: m.shortest.positional else m.shortest.positional := by
  cases negative with
  | true => rw [chars, if_pos rfl]
  | false => rw [chars, if_neg Bool.false_ne_true]

/-- A plain number is read as the double nearest to it. -/
theorem nearestTo_of_units (units : p.decimal.units = m.units) : (finite p.negative m).NearestTo p.toRat :=
  nearestTo_of_rounds p.decimal.toRat_nonneg (units ▸ p.decimal.rounds_units) p.negative

theorem ofText?_eq_some_of_units (units : p.decimal.units = m.units) :
    ofText? p.chars = some (finite p.negative m) := by
  rw [ofText?_chars, ofDecimal_eq_finite units]

/-! ## Doubles as text -/

/-- Every finite double is written as a plain number that is read as the double, and whose digits are those of the
shortest decimal. -/
theorem exists_plain_chars (negative : Bool) (m : Magnitude) :
    ∃ p : PlainNumber, p.negative = negative ∧ (finite negative m).chars = p.chars ∧ p.decimal.units = m.units ∧
      p.significant.length ≤ 17 := by
  obtain ⟨p, sign, value, body⟩ := m.canonical_shortest.exists_plain negative
  obtain ⟨d, canonical, same, length⟩ := p.exists_canonical
  have shortest : d = m.shortest := canonical.eq_of_toRat_eq m.canonical_shortest (same.symm.trans value)
  refine ⟨p, sign, ?_, (Decimal.units_congr value).trans m.units_shortest, ?_⟩
  · rw [chars_finite, PlainNumber.chars, sign, body]
  · rw [length 17 (by decide), shortest]
    exact m.coefficient_shortest_lt

/-- Every finite double is read back from its text. -/
theorem readsBack_of_isFinite (isFinite : x.isFinite) : x.ReadsBack := by
  refine ⟨isFinite, ?_⟩
  cases x with
  | nan => cases isFinite
  | infinity negative => cases isFinite
  | finite negative m =>
    obtain ⟨p, rfl, chars, units, -⟩ := exists_plain_chars negative m
    rw [text, String.toList_ofList, chars]
    exact ofText?_eq_some_of_units units

end Binary64

/-! ## Ordinary numbers -/

/-- At most fifteen significant digits, and neither too small nor too large for them all to count. -/
structure PlainNumber.Ordinary (p : PlainNumber) : Prop where
  fewDigits : p.significant.length ≤ 15
  inRange : p.toRat = 0 ∨ (10 : ℚ) ^ (-307 : ℤ) ≤ |p.toRat| ∧ |p.toRat| < 10 ^ 308

namespace PlainNumber

open Binary64 (Magnitude unitsInOne unitsInOne_pos unitsInOne_eq)

open scoped Binary64

variable {p : PlainNumber}

theorem abs_toRat (p : PlainNumber) : |p.toRat| = p.decimal.toRat := by
  have distance := signed_sub p.negative p.decimal.toRat 0
  rw [sub_zero, abs_of_nonneg p.decimal.toRat_nonneg, signed.eq_def p.negative 0, neg_zero, ite_self,
    sub_zero] at distance
  exact distance

/-- What is less than `10 ^ 308` does not overflow. -/
theorem units_lt_overflowLimit {d : Decimal} (below : d.toRat < 10 ^ 308) : d.units < Binary64.overflowLimit := by
  have bound : 10 ^ (308 : Nat) * 2 ^ (1074 : Nat) ≤ 3 * 2 ^ (2096 : Nat) := by decide +kernel
  have limit : 3 * 2 ^ (2096 : Nat) < Binary64.overflowLimit := by decide +kernel
  refine Nat.lt_of_le_of_lt ?_ limit
  apply d.rounds_units.le_of_le_isUnits (Binary64.isUnits_mul_two_pow 2096 (by decide))
  calc d.toRat * unitsInOne ≤ 10 ^ 308 * unitsInOne := mul_le_mul_of_nonneg_right below.le unitsInOne_pos.le
    _ = (10 ^ (308 : Nat) * 2 ^ (1074 : Nat) : Nat) := by
      rw [unitsInOne_eq, Nat.cast_mul, Nat.cast_pow 10, Nat.cast_ofNat]
    _ ≤ (3 * 2 ^ (2096 : Nat) : Nat) := Nat.cast_le.mpr bound

/-- What is at least `10 ^ (-307)` is no subnormal number. -/
theorem normal_of_le {d : Decimal} (above : (10 : ℚ) ^ (-307 : ℤ) ≤ d.toRat) : 2 ^ 52 ≤ d.toRat * unitsInOne := by
  have bound : 2 ^ (52 : Nat) * 10 ^ (307 : Nat) ≤ 2 ^ (1074 : Nat) := by decide +kernel
  have bound' : (2 : ℚ) ^ 52 * 10 ^ 307 ≤ unitsInOne := by
    rw [unitsInOne_eq]
    refine le_of_eq_of_le ?_ (Nat.cast_le.mpr bound)
    simp only [Nat.cast_mul, Nat.cast_pow, Nat.cast_ofNat]
  calc (2 : ℚ) ^ 52 ≤ unitsInOne / 10 ^ 307 := (le_div_iff₀ (by positivity)).mpr bound'
    _ = 10 ^ (-307 : ℤ) * unitsInOne := by rw [zpow_neg, zpow_ofNat, div_eq_mul_inv, mul_comm]
    _ ≤ d.toRat * unitsInOne := mul_le_mul_of_nonneg_right above unitsInOne_pos.le

/-- An ordinary number is the text of the double nearest to it. -/
theorem Ordinary.exists_chars (ordinary : p.Ordinary) :
    ∃ m : Magnitude, p.decimal.units = m.units ∧ (Binary64.finite p.negative m).chars = p.chars := by
  obtain ⟨d, canonical, same, length⟩ := p.exists_canonical
  have units := Decimal.units_congr same
  have written (m : Magnitude) (shortest : m.shortest = d) : (Binary64.finite p.negative m).chars = p.chars := by
    rw [Binary64.chars_finite, shortest, canonical.positional_eq same, chars]
  rcases ordinary.inRange with zero | ⟨above, below⟩
  · rw [← abs_eq_zero, abs_toRat] at zero
    have least : Magnitude.zero.units = 0 := Nat.zero_mul _
    have nothing : Decimal.Canonical ⟨0, 0⟩ := fun _ => rfl
    refine ⟨.zero, (Decimal.units_eq_zero zero).trans least.symm, written .zero ?_⟩
    rw [Magnitude.shortest_of_units_eq_zero least]
    exact nothing.eq_of_toRat_eq canonical (by rw [← same, zero, Decimal.toRat, Nat.cast_zero, zero_mul])
  · rw [abs_toRat] at above below
    let m : Magnitude := ⟨p.decimal.units, p.decimal.rounds_units.isUnits, units_lt_overflowLimit below⟩
    refine ⟨m, rfl, written m ?_⟩
    have few := (length 15 (by decide)).mp ordinary.fewDigits
    exact Magnitude.shortest_eq_of_few_digits canonical few (normal_of_le (same ▸ above)) units.symm

end PlainNumber

end Polish
