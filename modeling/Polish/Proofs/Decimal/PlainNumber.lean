import Polish.Binary64.Literal
import Polish.Proofs.Decimal.Digits
import Polish.Proofs.Decimal.Value

/-!
# Plain numbers

A plain number is a number as people write it, without an exponent and without superfluous zeros or signs. The
positional notation of a canonical decimal is a plain number, and the only one that denotes the same.
-/

namespace Polish

open scoped Binary64

/-- A sign only if it is a minus, then zero or digits that do not start with zero, then maybe a point and digits that
do not end in zero. -/
structure PlainNumber where
  negative : Bool
  /-- The digits before the point. -/
  whole : List Char
  /-- The digits behind the point; without any there is no point. -/
  fraction : List Char
  whole_ne_nil : whole ≠ []
  isDigit : ∀ c ∈ whole ++ fraction, c.isDigit
  noLeadingZero : NoLeadingZero whole
  noTrailingZero : fraction.getLast? ≠ some '0'

namespace PlainNumber

/-- All digits. -/
def digits (p : PlainNumber) : List Char := p.whole ++ p.fraction

/-- The digits from the first to the last that is not zero. -/
def significant (p : PlainNumber) : List Char := significantDigits p.digits

/-- The digits with their point. -/
def body (p : PlainNumber) : List Char := p.whole ++ if p.fraction = [] then [] else '.' :: p.fraction

/-- The characters of the number: what stands before the digits is at most a minus. -/
def chars (p : PlainNumber) : List Char := if p.negative then '-' :: p.body else p.body

def text (p : PlainNumber) : String := .ofList p.chars

/-- The number without its sign. -/
def decimal (p : PlainNumber) : Decimal := ⟨Nat.ofDigitChars 10 p.digits 0, -p.fraction.length⟩

/-- The number that the text denotes. -/
def toRat (p : PlainNumber) : ℚ := signed p.negative p.decimal.toRat

variable (p : PlainNumber)

theorem isDigit_of_mem_whole : ∀ c ∈ p.whole, c.isDigit := fun c member => p.isDigit c (List.mem_append_left _ member)

theorem isDigit_of_mem_fraction : ∀ c ∈ p.fraction, c.isDigit := fun c member =>
  p.isDigit c (List.mem_append_right _ member)

/-! ## Positional notation -/

theorem positional_decimal : p.decimal.positional = p.body := by
  have whole := toDigits_ofDigitChars p.whole_ne_nil p.isDigit_of_mem_whole p.noLeadingZero
  have less := ofDigitChars_lt p.isDigit_of_mem_fraction
  have last := lastDigits_ofDigitChars p.isDigit_of_mem_fraction
  have coefficient : p.decimal.num =
      10 ^ p.fraction.length * Nat.ofDigitChars 10 p.whole 0 + Nat.ofDigitChars 10 p.fraction 0 := by
    rw [Decimal.num, decimal, digits, Nat.ofDigitChars_append, Nat.ofDigitChars_eq_ofDigitChars_zero,
      Int.toNat_neg_natCast, Nat.pow_zero, Nat.mul_one]
  have power : p.decimal.den = 10 ^ p.fraction.length := by rw [Decimal.den, decimal, neg_neg, Int.toNat_natCast]
  have places : (-p.decimal.exponent).toNat = p.fraction.length := by rw [decimal, neg_neg, Int.toNat_natCast]
  rw [Decimal.positional, places, body, coefficient, power]
  split
  · next none =>
    rw [List.length_eq_zero_iff] at none
    rw [none, if_pos rfl, List.length_nil, Nat.pow_zero, Nat.one_mul, Nat.ofDigitChars_nil, Nat.add_zero, whole,
      List.append_nil]
  · next more some =>
    have nonempty : p.fraction ≠ [] := by
      intro none
      rw [none] at some
      cases some
    have width : p.fraction.length = more + 1 := some
    rw [if_neg nonempty, Nat.mul_add_div (Nat.pow_pos (by decide)), Nat.div_eq_of_lt less, Nat.add_zero, whole,
      Nat.mul_add_mod, Nat.mod_eq_of_lt less, ← width, last]

/-- Behind the point the last digit counts. -/
theorem decimal_coefficient_mod (point : p.decimal.exponent < 0) : p.decimal.coefficient % 10 ≠ 0 := by
  have nonempty : p.fraction ≠ [] := by
    intro none
    simp [decimal, none] at point
  have isDigit := p.isDigit_of_mem_fraction _ (List.getLast_mem nonempty)
  have last := p.noTrailingZero
  obtain ⟨n, digit, digitChar⟩ := exists_digitChar isDigit
  rw [List.getLast?_eq_some_getLast nonempty, digitChar] at last
  rw [decimal, digits, ← List.dropLast_concat_getLast nonempty, digitChar, ← List.append_assoc,
    ofDigitChars_concat _ digit, Nat.mul_add_mod, Nat.mod_eq_of_lt digit]
  rintro rfl
  exact last rfl

variable {p} {p' : PlainNumber}

theorem decimal_exponent_le (same : p.decimal.toRat = p'.decimal.toRat) :
    p'.decimal.exponent ≤ p.decimal.exponent := by
  rcases Int.lt_or_le p.decimal.exponent 0 with point | none
  · exact Decimal.exponent_le_of_toRat_eq (p.decimal_coefficient_mod point) same
  · have nonpos : p'.decimal.exponent ≤ 0 := Int.neg_nonpos_of_nonneg (Int.natCast_nonneg _)
    exact le_trans nonpos none

theorem body_eq_of_toRat_eq (same : p.decimal.toRat = p'.decimal.toRat) : p.body = p'.body := by
  have exponent := le_antisymm (decimal_exponent_le same.symm) (decimal_exponent_le same)
  rw [← positional_decimal, ← positional_decimal, Decimal.eq_of_exponent_eq exponent same]

end PlainNumber

/-! ## Canonical decimals as plain numbers -/

namespace Decimal

variable {d : Decimal}

/-- Positional notation without a point. -/
theorem exists_plain_of_nonneg (negative : Bool) (nonneg : 0 ≤ d.exponent) :
    ∃ p : PlainNumber, p.negative = negative ∧ p.decimal.toRat = d.toRat ∧ p.body = d.positional := by
  let p : PlainNumber := {
    negative
    whole := Nat.toDigits 10 d.num
    fraction := []
    whole_ne_nil := Nat.toDigits_ne_nil
    isDigit := by
      rw [List.append_nil]
      exact fun c member => Nat.isDigit_of_mem_toDigits (by decide) (by decide) member
    noLeadingZero := noLeadingZero_toDigits _
    noTrailingZero := by simp }
  have decimal : p.decimal = ⟨d.num, 0⟩ := by
    rw [PlainNumber.decimal, PlainNumber.digits, List.append_nil, Nat.ofDigitChars_toDigits (by decide) (by decide)]
    rfl
  refine ⟨p, rfl, ?_, ?_⟩
  · have refined := toRat_refine d.coefficient 0 d.exponent.toNat
    rw [Int.zero_add, Int.toNat_of_nonneg nonneg] at refined
    rw [decimal]
    exact refined
  · have noPlaces : (-d.exponent).toNat = 0 := by omega
    rw [← p.positional_decimal, decimal, positional, positional, noPlaces]
    exact congrArg (Nat.toDigits 10) (Nat.mul_one _)

/-- Positional notation with a point. -/
theorem exists_plain_of_neg (negative : Bool) (digit : d.coefficient % 10 ≠ 0) (neg : d.exponent < 0) :
    ∃ p : PlainNumber, p.negative = negative ∧ p.decimal.toRat = d.toRat ∧ p.body = d.positional := by
  obtain ⟨k, exponent⟩ : ∃ k : Nat, d.exponent = -(k + 1 : Nat) := ⟨(-d.exponent).toNat - 1, by omega⟩
  let p : PlainNumber := {
    negative
    whole := Nat.toDigits 10 (d.coefficient / 10 ^ (k + 1))
    fraction := lastDigits (k + 1) d.coefficient
    whole_ne_nil := Nat.toDigits_ne_nil
    isDigit := by
      intro c member
      rcases List.mem_append.mp member with front | back
      · exact Nat.isDigit_of_mem_toDigits (by decide) (by decide) front
      · exact isDigit_of_mem_lastDigits back
    noLeadingZero := noLeadingZero_toDigits _
    noTrailingZero := by
      rw [lastDigits, List.getLast?_concat]
      intro zero
      exact digitChar_ne_zero (Nat.mod_lt _ (by decide)) digit (Option.some.inj zero) }
  have coefficient : p.decimal.coefficient = d.coefficient := by
    rw [PlainNumber.decimal, PlainNumber.digits, Nat.ofDigitChars_append, Nat.ofDigitChars_eq_ofDigitChars_zero,
      Nat.ofDigitChars_toDigits (by decide) (by decide), ofDigitChars_lastDigits, length_lastDigits, Nat.div_add_mod]
  have decimal : p.decimal = d := by
    cases d
    rw [PlainNumber.decimal, length_lastDigits]
    exact congr (congrArg mk coefficient) exponent.symm
  exact ⟨p, rfl, by rw [decimal], by rw [← p.positional_decimal, decimal]⟩

/-- Positional notation of a canonical decimal is a plain number that denotes the same. -/
theorem Canonical.exists_plain (canonical : d.Canonical) (negative : Bool) :
    ∃ p : PlainNumber, p.negative = negative ∧ p.decimal.toRat = d.toRat ∧ p.body = d.positional := by
  rcases Int.lt_or_le d.exponent 0 with point | none
  · have digit : d.coefficient % 10 ≠ 0 := by
      intro multiple
      rw [canonical multiple] at point
      cases point
    exact exists_plain_of_neg negative digit point
  · exact exists_plain_of_nonneg negative none

/-- A plain number's text is the positional notation of its canonical decimal. -/
theorem Canonical.positional_eq (canonical : d.Canonical) {p : PlainNumber} (same : p.decimal.toRat = d.toRat) :
    d.positional = p.body := by
  obtain ⟨q, -, value, body⟩ := canonical.exists_plain p.negative
  rw [← body, PlainNumber.body_eq_of_toRat_eq (value.trans same.symm)]

end Decimal

namespace PlainNumber

variable (p : PlainNumber)

theorem toRat_significant : ∃ k : Int, p.decimal.toRat = Decimal.toRat ⟨Nat.ofDigitChars 10 p.significant 0, k⟩ := by
  obtain ⟨k, coefficient⟩ := ofDigitChars_eq_significantDigits p.digits
  refine ⟨-p.fraction.length + k, ?_⟩
  rw [decimal, coefficient, Decimal.toRat_refine, significant]

/-- The significant digits are those of the canonical decimal. -/
theorem exists_canonical :
    ∃ d : Decimal, d.Canonical ∧ p.decimal.toRat = d.toRat ∧
      ∀ k, 0 < k → (p.significant.length ≤ k ↔ d.coefficient < 10 ^ k) := by
  obtain ⟨k, value⟩ := p.toRat_significant
  have count (k : Nat) (positive : 0 < k) := length_significantDigits_le_iff p.isDigit positive
  by_cases none : p.significant = []
  · refine ⟨⟨0, 0⟩, fun _ => rfl, ?_, ?_⟩
    · rw [value, none, Nat.ofDigitChars_nil]
      simp [Decimal.toRat]
    · intro k positive
      rw [none]
      exact iff_of_true (Nat.zero_le k) (Nat.pow_pos (by decide))
  · have digit := ofDigitChars_significantDigits_mod p.isDigit none
    exact ⟨_, fun multiple => absurd multiple digit, value, count⟩

end PlainNumber

end Polish
