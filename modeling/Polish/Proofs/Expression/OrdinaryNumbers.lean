import Polish.Proofs.Binary64.Literal
import Polish.Proofs.Expression.Offsets

/-!
# Ordinary numbers are accepted

A literal that is an ordinary number is accepted with the double nearest to it. Reading never complains about a literal,
and reordering only about one that is not accepted, so that an expression with ordinary numbers is not refused for one
of them.
-/

namespace Polish

open SyntaxError (Cause)

/-- The literal of an ordinary number is accepted. -/
theorem Numeral.evaluate_of_ordinary {n : Numeral} {p : PlainNumber} (ordinary : p.Ordinary)
    (literal : n.literal = p.text) :
    ∃ m, n.evaluate = .ok (.finite p.negative m) ∧ (Binary64.finite p.negative m).NearestTo p.toRat := by
  obtain ⟨m, units, chars⟩ := ordinary.exists_chars
  refine ⟨m, evaluate_of_readsBack (Binary64.readsBack_of_isFinite rfl) ?_, Binary64.nearestTo_of_units units⟩
  rw [literal, PlainNumber.text, Binary64.text, chars]

/-- The words with which the message about a literal begins. -/
def SyntaxError.literalWords : String := "invalid number literal"

theorem SyntaxError.eq_invalidLiteral {cause : Cause} (words : literalWords.toList <+: cause.message.toList) :
    ∃ literal, cause = .invalidLiteral literal := by
  obtain ⟨rest, words⟩ := words
  have start := congrArg (·.take 2) words
  rw [literalWords] at start
  delta Cause.message at start
  cases cause with
  | invalidLiteral literal => exact ⟨literal, rfl⟩
  | _ => simp [aboutChar] at start

namespace Lexer

/-- Reading does not look at the value of a literal. -/
theorem action_ne_invalidLiteral (last? : Option Token.Kind) (c : Char) (literal : String) :
    action last? c ≠ .error (.invalidLiteral literal) := by
  intro refused
  cases charCase c with
  | blank blank => simp [action, blank] at refused
  | openParen =>
    rw [action_openParen] at refused
    split at refused
    · cases refused
    · cases refused
  | closeParen =>
    rw [action_closeParen] at refused
    split at refused
    · cases refused
    · cases refused
  | numeric numeric =>
    rw [action_numeric numeric] at refused
    unfold digitAction at refused
    split at refused
    · split at refused
      · cases refused
      · split at refused
        · cases refused
        · cases refused
    all_goals cases refused
  | symbol op =>
    rw [action_symbol] at refused
    split at refused
    · unfold signAction at refused
      split at refused
      · split at refused
        · cases refused
        · cases refused
      all_goals cases refused
    · unfold operatorAction at refused
      split at refused
      · split at refused
        · cases refused
        · cases refused
      all_goals cases refused
  | illegal illegal =>
    rw [illegal] at refused
    cases refused

end Lexer

namespace Expression

open Lexer ShuntingYard SyntaxError

variable {expression : String} {e : SyntaxError}

/-- An expression is refused for a literal only if it has a literal that is not accepted. -/
theorem exists_rejected_of_convert (failed : convert expression = .error e) {literal : String}
    (cause : e.cause = .invalidLiteral literal) :
    ∃ tokens, tokenize expression = .ok tokens ∧ ∃ token ∈ tokens, ∃ n : Numeral, token.kind = .number n ∧
      ∀ x, n.evaluate ≠ .ok x := by
  rcases convert_error_cases failed with unread | ⟨tokens, read, unordered⟩
  · rcases tokenize_eq_error_cases unread with ⟨rfl, -⟩ | ⟨front, c, back, t, cause', -, -, refused, rfl⟩
    · cases cause
    · exact absurd (cause ▸ refused) (action_ne_invalidLiteral t.last? c literal)
  · refine ⟨tokens, read, ?_⟩
    rcases toPrefix_eq_error_iff.mp unordered with failed | ⟨last, run, finish⟩
    · obtain ⟨before, token, after, s, rfl, start, step⟩ := State.run_eq_error_iff.mp failed
      cases State.step_eq_error_iff.mp step with
      | number n cause' kind value =>
        refine ⟨token, by simp, n, kind, ?_⟩
        intro x accepted
        rw [value] at accepted
        cases accepted
      | closeParen kind none => cases cause
    · obtain ⟨token, head, rfl⟩ := State.finish_eq_error_iff.mp finish
      cases cause

/-- An ordinary number is never refused: its literal is accepted with the double nearest to it, and no expression whose
literals are ordinary numbers is refused for a literal. -/
theorem ordinary_numbers_accepted :
    (∀ p : PlainNumber, p.Ordinary → ∀ n : Numeral, n.literal = p.text →
      ∃ m, n.evaluate = .ok (.finite p.negative m) ∧ (Binary64.finite p.negative m).NearestTo p.toRat) ∧
    ∀ expression,
      (∀ tokens, tokenize expression = .ok tokens → ∀ token ∈ tokens, ∀ n, token.kind = .number n →
        ∃ p : PlainNumber, p.Ordinary ∧ n.literal = p.text) →
      ∀ e, convert expression = .error e → ¬ literalWords.toList <+: e.cause.message.toList := by
  refine ⟨fun p ordinary n literal => Numeral.evaluate_of_ordinary ordinary literal, ?_⟩
  intro expression ordinary e failed words
  obtain ⟨literal, cause⟩ := eq_invalidLiteral words
  obtain ⟨tokens, read, token, member, n, kind, rejected⟩ := exists_rejected_of_convert failed cause
  obtain ⟨p, plain, text⟩ := ordinary tokens read token member n kind
  obtain ⟨m, value, -⟩ := Numeral.evaluate_of_ordinary plain text
  exact rejected _ value

theorem ordinary_numbers_accepted_tenth :
    ∃ p : PlainNumber, p.text = "-0.1" ∧ p.toRat = -1 / 10 ∧ p.Ordinary ∧
      (∃ m, Numeral.evaluate { literal := "-0.1" } = .ok (.finite true m) ∧
        (Binary64.finite true m).NearestTo (-1 / 10)) ∧
      convert "(-0.1" = .error ⟨.unmatchedOpen, 0⟩ ∧
      ¬ literalWords.toList <+: (Cause.message .unmatchedOpen).toList := by
  let p : PlainNumber := {
    negative := true
    whole := ['0']
    fraction := ['1']
    whole_ne_nil := by decide
    isDigit := by simp
    noLeadingZero := fun _ => rfl
    noTrailingZero := by decide }
  have value : p.toRat = -1 / 10 := by
    have decimal : p.decimal = ⟨1, -1⟩ := by decide
    rw [PlainNumber.toRat, decimal, Decimal.toRat, signed, if_pos rfl]
    norm_num
  have ordinary : p.Ordinary := by
    refine ⟨by decide, .inr ?_⟩
    rw [value, abs_of_nonpos (by norm_num)]
    constructor
    · calc (10 : ℚ) ^ (-307 : ℤ) ≤ 10 ^ (-1 : ℤ) := zpow_le_zpow_right₀ (by norm_num) (by norm_num)
        _ = -(-1 / 10) := by norm_num
    · calc (-(-1 / 10) : ℚ) < 1 := by norm_num
        _ ≤ 10 ^ 308 := one_le_pow₀ (by norm_num)
  have text : p.text = "-0.1" := by decide
  have failed : convert "(-0.1" = .error ⟨.unmatchedOpen, 0⟩ := by decide +kernel
  obtain ⟨m, accepted, nearest⟩ := ordinary_numbers_accepted.1 p ordinary { literal := "-0.1" } text.symm
  refine ⟨p, text, value, ordinary, ⟨m, accepted, value ▸ nearest⟩, failed, ?_⟩
  refine ordinary_numbers_accepted.2 "(-0.1" ?_ _ failed
  intro tokens read token member n kind
  have expected : tokenize "(-0.1" = .ok [⟨0, .openParen, "("⟩, ⟨1, .number { literal := "-0.1" }, "-0.1"⟩] := by
    decide +kernel
  rw [expected] at read
  cases read
  rcases List.mem_pair.mp member with rfl | rfl
  · cases kind
  · cases kind
    exact ⟨p, ordinary, text.symm⟩

end Expression

end Polish
