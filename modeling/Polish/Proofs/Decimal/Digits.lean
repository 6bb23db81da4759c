import Mathlib.Data.List.DropRight
import Polish.Decimal

/-!
# Decimal digits

Runs of digits and the numbers they denote: a run without leading zeros is what `toDigits` writes, a run of known
length is what `lastDigits` writes, and the significant digits of a run denote its number without the zeros at the end.
-/

namespace Polish

open scoped Binary64

variable {digits : List Char}

theorem exists_digitChar {c : Char} (isDigit : c.isDigit) : ∃ n < 10, c = Nat.digitChar n := by
  simp only [Char.isDigit, Bool.and_eq_true, decide_eq_true_eq, ge_iff_le, UInt32.le_iff_toNat_le] at isDigit
  have lower : 48 ≤ c.toNat := isDigit.1
  have upper : c.toNat ≤ 57 := isDigit.2
  refine ⟨c.toNat - 48, by omega, ?_⟩
  apply Char.toNat_inj.mp
  rw [Nat.toNat_digitChar_of_lt_ten (by omega)]
  omega

theorem ofDigitChars_concat (digits : List Char) {n : Nat} (digit : n < 10) :
    Nat.ofDigitChars 10 (digits ++ [n.digitChar]) 0 = 10 * Nat.ofDigitChars 10 digits 0 + n := by
  rw [Nat.ofDigitChars_append, Nat.ofDigitChars_cons_digitChar_of_lt_ten digit, Nat.ofDigitChars_nil]

theorem ofDigitChars_lt (isDigit : ∀ c ∈ digits, c.isDigit) : Nat.ofDigitChars 10 digits 0 < 10 ^ digits.length := by
  induction digits using List.reverseRecOn with
  | nil => decide
  | append_singleton digits c ih =>
    obtain ⟨n, digit, rfl⟩ := exists_digitChar (isDigit c List.mem_concat_self)
    have front := ih fun c member => isDigit c (List.mem_append_left _ member)
    rw [ofDigitChars_concat digits digit, List.length_append, List.length_singleton, Nat.pow_succ]
    omega

/-! ## Digits that are written -/

theorem ofDigitChars_lastDigits (width n : Nat) :
    Nat.ofDigitChars 10 (Decimal.lastDigits width n) 0 = n % 10 ^ width := by
  induction width generalizing n with
  | zero => rw [Nat.pow_zero, Nat.mod_one, Decimal.lastDigits, Nat.ofDigitChars_nil]
  | succ width ih =>
    rw [Decimal.lastDigits, ofDigitChars_concat _ (Nat.mod_lt n (by decide)), ih, Nat.pow_succ', Nat.mod_mul,
      Nat.add_comm]

theorem Decimal.isDigit_of_mem_lastDigits {width n : Nat} {c : Char} (member : c ∈ Decimal.lastDigits width n) :
    c.isDigit := by
  induction width generalizing n with
  | zero => simp [Decimal.lastDigits] at member
  | succ width ih =>
    rcases List.mem_append.mp member with front | last
    · exact ih front
    · rw [List.mem_singleton.mp last, Nat.isDigit_digitChar, decide_eq_true_iff]
      exact Nat.mod_lt n (by decide)

theorem lastDigits_ofDigitChars (isDigit : ∀ c ∈ digits, c.isDigit) :
    Decimal.lastDigits digits.length (Nat.ofDigitChars 10 digits 0) = digits := by
  induction digits using List.reverseRecOn with
  | nil => rfl
  | append_singleton digits c ih =>
    obtain ⟨n, digit, rfl⟩ := exists_digitChar (isDigit c List.mem_concat_self)
    have front := ih fun c member => isDigit c (List.mem_append_left _ member)
    rw [ofDigitChars_concat digits digit, List.length_append, List.length_singleton, Decimal.lastDigits,
      Nat.mul_add_div (by decide), Nat.div_eq_of_lt digit, Nat.add_zero, front, Nat.mul_add_mod, Nat.mod_eq_of_lt digit]

/-- Only the zero is written as `0`. -/
theorem digitChar_ne_zero {n : Nat} (digit : n < 10) (nonzero : n ≠ 0) : n.digitChar ≠ '0' := by
  intro same
  have code := congrArg Char.toNat same
  rw [Nat.toNat_digitChar_of_lt_ten digit] at code
  have zero : 48 + n = 48 := code
  omega

/-- Digits without leading zeros. -/
def NoLeadingZero (digits : List Char) : Prop := digits.head? = some '0' → digits = ['0']

theorem noLeadingZero_toDigits (n : Nat) : NoLeadingZero (Nat.toDigits 10 n) := by
  intro head
  induction n using Nat.strongRecOn with
  | ind n ih =>
    rcases Nat.lt_or_ge n 10 with digit | more
    · rw [Nat.toDigits_of_lt_base digit] at head ⊢
      rw [Option.some.inj head]
    · exfalso
      rw [Nat.toDigits_of_base_le (by decide) more, List.head?_append_of_ne_nil _ Nat.toDigits_ne_nil] at head
      have value := congrArg (Nat.ofDigitChars 10 · 0) (ih (n / 10) (by omega) head)
      rw [Nat.ofDigitChars_toDigits (by decide) (by decide)] at value
      have zero : n / 10 = 0 := value
      omega

theorem toDigits_ofDigitChars (nonempty : digits ≠ []) (isDigit : ∀ c ∈ digits, c.isDigit)
    (noLeadingZero : NoLeadingZero digits) : Nat.toDigits 10 (Nat.ofDigitChars 10 digits 0) = digits := by
  induction digits using List.reverseRecOn with
  | nil => exact absurd rfl nonempty
  | append_singleton digits c ih =>
    obtain ⟨n, digit, rfl⟩ := exists_digitChar (isDigit c List.mem_concat_self)
    rw [ofDigitChars_concat digits digit]
    by_cases single : digits = []
    · rw [single, Nat.ofDigitChars_nil, Nat.mul_zero, Nat.zero_add, Nat.toDigits_of_lt_base digit, List.nil_append]
    · have head : digits.head? ≠ some '0' := by
        intro zero
        have alone := noLeadingZero (by rw [List.head?_append_of_ne_nil _ single, zero])
        have length := congrArg List.length alone
        rw [List.length_append, List.length_singleton, List.length_singleton] at length
        exact single (List.length_eq_zero_iff.mp (by omega))
      have front := ih single (fun c member => isDigit c (List.mem_append_left _ member)) (absurd · head)
      have positive : 0 < Nat.ofDigitChars 10 digits 0 := by
        apply Nat.pos_of_ne_zero
        intro zero
        rw [zero] at front
        exact head (by rw [← front]; rfl)
      rw [← Nat.toDigits_append_toDigits (by decide) positive digit, front, Nat.toDigits_of_lt_base digit]

/-! ## Significant digits -/

/-- The digits from the first to the last that is not zero. -/
def significantDigits (digits : List Char) : List Char :=
  (digits.dropWhile (· == '0')).rdropWhile (· == '0')

theorem exists_zeros (digits : List Char) :
    ∃ front back, digits = List.replicate front '0' ++ (significantDigits digits ++ List.replicate back '0') := by
  have isZero {c : Char} (zero : (c == '0') = true) : c = '0' := beq_iff_eq.mp zero
  have front : ∀ c ∈ digits.takeWhile (· == '0'), c = '0' := by
    intro c member
    exact isZero (List.mem_takeWhile_imp (p := (· == '0')) member)
  have back : ∀ c ∈ (digits.dropWhile (· == '0')).rtakeWhile (· == '0'), c = '0' := by
    intro c member
    exact isZero (List.mem_rtakeWhile_imp (p := (· == '0')) member)
  refine ⟨(digits.takeWhile (· == '0')).length, ((digits.dropWhile (· == '0')).rtakeWhile (· == '0')).length, ?_⟩
  rw [← List.eq_replicate_of_mem front, ← List.eq_replicate_of_mem back, significantDigits,
    List.rdropWhile_append_rtakeWhile, List.takeWhile_append_dropWhile]

theorem isDigit_of_mem_significantDigits (isDigit : ∀ c ∈ digits, c.isDigit) :
    ∀ c ∈ significantDigits digits, c.isDigit := by
  intro c member
  have inside := (List.rdropWhile_prefix _ _).subset member
  exact isDigit c ((List.dropWhile_suffix _).subset inside)

theorem head?_significantDigits (digits : List Char) : (significantDigits digits).head? ≠ some '0' := by
  intro head
  obtain ⟨back, rest⟩ : significantDigits digits <+: digits.dropWhile (· == '0') := List.rdropWhile_prefix _ _
  have noZero := List.head?_dropWhile_not (· == '0') digits
  rw [← rest, List.head?_append, head] at noZero
  simp at noZero

/-- The last of the significant digits is not zero. -/
theorem ofDigitChars_significantDigits_mod (isDigit : ∀ c ∈ digits, c.isDigit) (some : significantDigits digits ≠ []) :
    Nat.ofDigitChars 10 (significantDigits digits) 0 % 10 ≠ 0 := by
  have isDigit' := isDigit_of_mem_significantDigits isDigit
  have last : ¬ ((significantDigits digits).getLast some == '0') = true := List.rdropWhile_last_not _ _ some
  obtain ⟨n, digit, digitChar⟩ := exists_digitChar (isDigit' _ (List.getLast_mem some))
  rw [digitChar] at last
  rw [← List.dropLast_concat_getLast some, digitChar, ofDigitChars_concat _ digit, Nat.mul_add_mod,
    Nat.mod_eq_of_lt digit]
  rintro rfl
  exact last rfl

/-- The zeros in front count nothing and those at the end a power of ten. -/
theorem ofDigitChars_eq_significantDigits (digits : List Char) :
    ∃ k : Nat, Nat.ofDigitChars 10 digits 0 = Nat.ofDigitChars 10 (significantDigits digits) 0 * 10 ^ k := by
  obtain ⟨front, back, zeros⟩ := exists_zeros digits
  refine ⟨back, ?_⟩
  conv => lhs; rw [zeros]
  rw [Nat.ofDigitChars_append, Nat.ofDigitChars_append, Nat.ofDigitChars_replicate_zero,
    Nat.ofDigitChars_replicate_zero, Nat.mul_zero, Nat.mul_comm]

/-- The number of significant digits is the length of their number. -/
theorem length_significantDigits_le_iff (isDigit : ∀ c ∈ digits, c.isDigit) {k : Nat} (positive : 0 < k) :
    (significantDigits digits).length ≤ k ↔ Nat.ofDigitChars 10 (significantDigits digits) 0 < 10 ^ k := by
  by_cases none : significantDigits digits = []
  · rw [none, List.length_nil, Nat.ofDigitChars_nil]
    exact iff_of_true (Nat.zero_le k) (Nat.pow_pos (by decide))
  · have written := toDigits_ofDigitChars none (isDigit_of_mem_significantDigits isDigit)
      (absurd · (head?_significantDigits digits))
    rw [← Nat.length_toDigits_le_iff (by decide) positive, written]

end Polish
