import Polish.Proofs.Decimal.Digits
import Polish.Proofs.Lexer.Split
import Polish.ShuntingYard.Basic

/-!
# Finite doubles as words

The text of a finite double is the text of a number, without a plus, so it is its own literal. If it is read as the
double again, the literal is accepted, and all accepted literals are of this kind.
-/

namespace Polish

/-! ## Positional notation -/

namespace Decimal

/-- Digits, and maybe a point and digits behind them. -/
theorem exists_positional (d : Decimal) :
    ∃ whole tail, d.positional = whole ++ tail ∧ whole ≠ [] ∧ (∀ c ∈ whole, c.isDigit) ∧
      (tail = [] ∨ ∃ fraction, tail = '.' :: fraction ∧ ∀ c ∈ fraction, c.isDigit) := by
  rw [positional]
  split
  · exact ⟨_, [], (List.append_nil _).symm, Nat.toDigits_ne_nil,
      fun c member => Nat.isDigit_of_mem_toDigits (by decide) (by decide) member, .inl rfl⟩
  · next places _ =>
    exact ⟨_, _, rfl, Nat.toDigits_ne_nil, fun c member => Nat.isDigit_of_mem_toDigits (by decide) (by decide) member,
      .inr ⟨_, rfl, fun c member => isDigit_of_mem_lastDigits member⟩⟩

end Decimal

namespace Lexer

theorem count_point_of_digits {digits : List Char} (isDigit : ∀ c ∈ digits, c.isDigit) : digits.count '.' = 0 := by
  rw [List.count_eq_zero]
  intro member
  have := isDigit '.' member
  simp at this

/-- Digits with at most one point, and with a digit in front, so that no sign is taken for a part of it. -/
theorem isNumber_positional (d : Decimal) : IsNumber d.positional ∧ unsigned d.positional = d.positional := by
  obtain ⟨whole, tail, text, nonempty, isDigit, rest⟩ := d.exists_positional
  obtain ⟨c, more, rfl⟩ := List.exists_cons_of_ne_nil nonempty
  have noSign : ¬ (c = '+' ∨ c = '-') := by
    have digit := isDigit c List.mem_cons_self
    rintro (rfl | rfl)
    · simp at digit
    · simp at digit
  have unsignedText : unsigned d.positional = d.positional := by simp [text, unsigned, noSign]
  refine ⟨⟨by simp [text], ?_, ?_⟩, unsignedText⟩
  · rw [unsignedText, text]
    intro e member
    rcases List.mem_append.mp member with front | back
    · exact .inl (isDigit e front)
    · rcases rest with rfl | ⟨fraction, rfl, digits⟩
      · simp at back
      · rcases List.mem_cons.mp back with rfl | inside
        · exact .inr rfl
        · exact .inl (digits e inside)
  · have before := count_point_of_digits isDigit
    rw [unsignedText, text, List.count_append]
    rcases rest with rfl | ⟨fraction, rfl, digits⟩
    · rw [List.count_nil]
      omega
    · have behind := count_point_of_digits digits
      rw [List.count_cons_self]
      omega

/-! ## Finite doubles -/

variable {x : Binary64}

theorem unsigned_chars {negative : Bool} {m : Binary64.Magnitude} :
    unsigned (Binary64.finite negative m).chars = m.shortest.positional := by
  cases negative with
  | false => exact (isNumber_positional _).2
  | true => simp [Binary64.chars, unsigned]

theorem exists_unsigned_chars (isFinite : x.isFinite) : ∃ d : Decimal, unsigned x.chars = d.positional := by
  cases x with
  | finite negative m => exact ⟨m.shortest, unsigned_chars⟩
  | nan => cases isFinite
  | infinity negative => cases isFinite

theorem chars_ne_nil (isFinite : x.isFinite) : x.chars ≠ [] := by
  obtain ⟨d, body⟩ := exists_unsigned_chars isFinite
  intro empty
  rw [empty] at body
  exact (isNumber_positional d).1.nonempty body.symm

theorem isNumber_chars (isFinite : x.isFinite) : IsNumber x.chars := by
  obtain ⟨d, body⟩ := exists_unsigned_chars isFinite
  obtain ⟨number, whole⟩ := isNumber_positional d
  refine ⟨chars_ne_nil isFinite, ?_, ?_⟩
  · rw [body, ← whole]
    exact number.body
  · rw [body, ← whole]
    exact number.onePoint

/-- The text of a finite double is no sign alone, so a value stands behind it. -/
theorem after_chars (isFinite : x.isFinite) : (Word.number x.chars).after = .operator := by
  obtain ⟨d, body⟩ := exists_unsigned_chars isFinite
  have noSign : ¬ (x.chars = ['+'] ∨ x.chars = ['-']) := by
    rintro (plus | minus)
    · rw [plus] at body
      exact (isNumber_positional d).1.nonempty body.symm
    · rw [minus] at body
      exact (isNumber_positional d).1.nonempty body.symm
  rw [Word.after, if_neg noSign]

theorem literalOf_chars (isFinite : x.isFinite) : literalOf x.chars = x.chars := by
  cases x with
  | nan => cases isFinite
  | infinity negative => cases isFinite
  | finite negative m =>
    cases negative with
    | true => simp [Binary64.chars, literalOf]
    | false =>
      have whole := (isNumber_positional m.shortest).2
      obtain ⟨c, rest, text⟩ := List.exists_cons_of_ne_nil (isNumber_positional m.shortest).1.nonempty
      have noPlus : c ≠ '+' := by
        rintro rfl
        rw [text] at whole
        simpa [unsigned] using congrArg List.length whole
      rw [Binary64.chars, text, literalOf, if_neg noPlus]

end Lexer

/-! ## Accepted literals -/

/-- The text of the number is read as the number again. -/
structure Binary64.ReadsBack (x : Binary64) : Prop where
  isFinite : x.isFinite
  reads : ofText? x.text.toList = some x

theorem Binary64.ofLiteral?_eq_some_iff {literal : String} {x : Binary64} :
    ofLiteral? literal = some x ↔ x.ReadsBack ∧ x.text = literal := by
  simp only [ofLiteral?, Option.filter_eq_some_iff, Bool.and_eq_true, beq_iff_eq]
  constructor
  · rintro ⟨reads, isFinite, rfl⟩
    exact ⟨⟨isFinite, reads⟩, rfl⟩
  · rintro ⟨⟨isFinite, reads⟩, rfl⟩
    exact ⟨reads, isFinite, rfl⟩

theorem Numeral.evaluate_of_readsBack {n : Numeral} {x : Binary64} (readsBack : x.ReadsBack)
    (literal : n.literal = x.text) : n.evaluate = .ok x := by
  have nonempty : x.text ≠ "" := by
    intro empty
    have chars := congrArg String.toList empty
    rw [Binary64.text, String.toList_ofList] at chars
    exact Lexer.chars_ne_nil readsBack.isFinite chars
  rw [evaluate, literal, if_neg nonempty, Binary64.ofLiteral?_eq_some_iff.mpr ⟨readsBack, rfl⟩]

/-- The accepted literals are the texts of the finite numbers that are read back from them. -/
theorem Numeral.evaluate_eq_ok_iff {n : Numeral} {x : Binary64} :
    n.evaluate = .ok x ↔ x.ReadsBack ∧ n.literal = x.text := by
  constructor
  · intro value
    rw [evaluate] at value
    split at value
    · cases value
    · split at value
      · next y accepted =>
        cases value
        obtain ⟨readsBack, text⟩ := Binary64.ofLiteral?_eq_some_iff.mp accepted
        exact ⟨readsBack, text.symm⟩
      · cases value
  · rintro ⟨readsBack, literal⟩
    exact evaluate_of_readsBack readsBack literal

end Polish
