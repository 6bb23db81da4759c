import Polish.Proofs.ShuntingYard.Matching

/-!
# What reordering reports

A `Fault` is a number whose literal is not accepted, or a closing parenthesis without a partner before it. The leftmost
fault is reported; if there is none, the last opening parenthesis without a partner is (`Reports`). Without either the
tokens are reordered. Operators have no part in this.
-/

namespace Polish

/-- Whether the token is an operator. -/
def Token.isOperator (t : Token) : Bool :=
  match t.kind with
  | .operator _ => true
  | .number _ | .openParen | .closeParen => false

theorem Numeral.evaluate_eq_error_iff {n : Numeral} {cause : SyntaxError.Cause} :
    n.evaluate = .error cause ↔
      (n.literal = "" ∧ cause = .emptyNumber) ∨
        (n.literal ≠ "" ∧ Binary64.ofLiteral? n.literal = none ∧ cause = .invalidLiteral n.literal) := by
  rw [evaluate]
  by_cases empty : n.literal = ""
  · simp [empty, eq_comm]
  · cases accepted : Binary64.ofLiteral? n.literal <;> simp [empty, eq_comm]

namespace ShuntingYard

open State

/-- What is wrong with a token, given the tokens before it, and how it is told. -/
inductive Fault (before : List Token) (token : Token) : Diagnostic → Prop where
  | emptyNumber (n : Numeral) (kind : token.kind = .number n) (empty : n.literal = "") :
      Fault before token ⟨"number is empty", token.offset⟩
  | invalidLiteral (n : Numeral) (kind : token.kind = .number n) (nonempty : n.literal ≠ "")
      (rejected : Binary64.ofLiteral? n.literal = none) :
      Fault before token ⟨"invalid number literal '" ++ n.literal ++ "'", token.offset⟩
  | unmatchedClose (kind : token.kind = .closeParen) (unmatched : ¬ AwaitsClose before) :
      Fault before token ⟨"unbalanced ')'", token.offset⟩

/-- No token has a fault. -/
def Faultless (tokens : List Token) : Prop :=
  ∀ before token after d, tokens = before ++ token :: after → ¬ Fault before token d

/-- Every opening parenthesis has a partner. -/
def AllClosed (tokens : List Token) : Prop :=
  ∀ before token after, tokens = before ++ token :: after → token.kind = .openParen → Closed after

/-- What is reported about some tokens. -/
inductive Reports (tokens : List Token) : Diagnostic → Prop where
  /-- The leftmost fault. -/
  | fault (before : List Token) (token : Token) (after : List Token) (d : Diagnostic)
      (split : tokens = before ++ token :: after) (leftmost : Faultless before) (fault : Fault before token d) :
      Reports tokens d
  /-- Without a fault, the rightmost opening parenthesis that has no partner. -/
  | unmatchedOpen (before : List Token) (token : Token) (after : List Token)
      (split : tokens = before ++ token :: after) (faultless : Faultless tokens) (kind : token.kind = .openParen)
      (unmatched : ¬ Closed after) (rightmost : AllClosed after) : Reports tokens ⟨"unbalanced '('", token.offset⟩

section

variable {tokens before after : List Token} {token : Token} {s last : State} {d : Diagnostic} {e : SyntaxError}

/-! ## Faults stop the run -/

/-- A token is refused after the tokens before it exactly if it has a fault. -/
theorem fault_iff (run : State.run ⟨[], []⟩ before = .ok s) :
    Fault before token d ↔ ∃ e, s.step token = .error e ∧ e.toDiagnostic = d := by
  have awaits := (OpenGroups.of_run run).awaitsClose_iff
  simp only [step_eq_error_iff]
  constructor
  · intro fault
    cases fault with
    | emptyNumber n kind empty =>
      exact ⟨_, .number n .emptyNumber kind (Numeral.evaluate_eq_error_iff.mpr (.inl ⟨empty, rfl⟩)), rfl⟩
    | invalidLiteral n kind nonempty rejected =>
      have value := Numeral.evaluate_eq_error_iff.mpr (.inr ⟨nonempty, rejected, rfl⟩)
      exact ⟨_, .number n (.invalidLiteral n.literal) kind value, rfl⟩
    | unmatchedClose kind unmatched =>
      rw [awaits, not_not] at unmatched
      exact ⟨_, .closeParen kind unmatched, rfl⟩
  · rintro ⟨e, refuses, rfl⟩
    cases refuses with
    | number n cause kind value =>
      rcases Numeral.evaluate_eq_error_iff.mp value with ⟨empty, rfl⟩ | ⟨nonempty, rejected, rfl⟩
      · exact .emptyNumber n kind empty
      · exact .invalidLiteral n kind nonempty rejected
    | closeParen kind none =>
      refine .unmatchedClose kind ?_
      rw [awaits, not_not]
      exact none

theorem faultless_of_run (run : State.run ⟨[], []⟩ tokens = .ok last) : Faultless tokens := by
  rintro before token after d rfl fault
  obtain ⟨middle, start, more⟩ := exists_run_of_run_append run
  obtain ⟨next, step, -⟩ := exists_step_of_run more
  obtain ⟨e, refused, -⟩ := (fault_iff start).mp fault
  rw [step] at refused
  cases refused

/-- Only a fault stops a run. -/
theorem exists_run_of_faultless (faultless : Faultless tokens) : ∃ last, State.run ⟨[], []⟩ tokens = .ok last := by
  cases run : State.run ⟨[], []⟩ tokens with
  | ok last => exact ⟨last, rfl⟩
  | error e =>
    obtain ⟨before, token, after, s, split, start, step⟩ := run_eq_error_iff.mp run
    exact absurd ((fault_iff start).mpr ⟨e, step, rfl⟩) (faultless before token after _ split)

/-! ## Open parentheses stop the end -/

/-- The last parenthesis that waits at the end is the rightmost one without a partner. -/
theorem exists_of_head_opened (run : State.run ⟨[], []⟩ tokens = .ok last)
    (head : (last.waiting.filter opens).head? = some token) :
    ∃ before after, tokens = before ++ token :: after ∧ token.kind = .openParen ∧ Matched after := by
  have groups := OpenGroups.of_run run
  generalize last.waiting.filter opens = opened at groups head
  cases groups with
  | outside matched => cases head
  | group outer kind inside =>
    cases head
    exact ⟨_, _, rfl, kind, inside⟩

theorem Matched.allClosed (matched : Matched tokens) : AllClosed tokens :=
  fun _ _ _ split kind => matched.closed_of_open split kind

/-- The rightmost parenthesis without a partner is the last one that waits at the end. -/
theorem head_opened_of_unmatched (run : State.run ⟨[], []⟩ (before ++ token :: after) = .ok last)
    (kind : token.kind = .openParen) (unmatched : ¬ Closed after) (rightmost : AllClosed after) :
    (last.waiting.filter opens).head? = some token := by
  have groups := OpenGroups.of_run run
  generalize tokens_eq : before ++ token :: after = tokens at groups
  generalize last.waiting.filter opens = opened at groups
  cases groups with
  | outside matched => exact absurd (matched.closed_of_open tokens_eq.symm kind) unmatched
  | @group front opened inner opening outer kind' inside =>
    rcases same_or_behind_or_before tokens_eq with ⟨-, rfl, -⟩ | ⟨between, -, rfl⟩ | ⟨between, -, rfl⟩
    · rfl
    · exact absurd (rightmost between opening inner rfl kind') inside.not_closed
    · exact absurd (inside.closed_of_open rfl kind) unmatched

/-! ## Reports -/

theorem reports_of_error (h : toPrefix tokens = .error e) : Reports tokens e.toDiagnostic := by
  rcases toPrefix_eq_error_iff.mp h with failed | ⟨last, run, finish⟩
  · obtain ⟨before, token, after, s, split, start, step⟩ := run_eq_error_iff.mp failed
    exact .fault before token after _ split (faultless_of_run start) ((fault_iff start).mpr ⟨e, step, rfl⟩)
  · obtain ⟨token, head, rfl⟩ := finish_eq_error_iff.mp finish
    obtain ⟨before, after, split, kind, matched⟩ := exists_of_head_opened run head
    exact .unmatchedOpen before token after split (faultless_of_run run) kind matched.not_closed matched.allClosed

theorem exists_error_of_reports (reports : Reports tokens d) :
    ∃ e, toPrefix tokens = .error e ∧ e.toDiagnostic = d := by
  cases reports with
  | fault before token after d split leftmost fault =>
    obtain ⟨s, start⟩ := exists_run_of_faultless leftmost
    obtain ⟨e, step, told⟩ := (fault_iff start).mp fault
    have failed := run_eq_error_iff.mpr ⟨before, token, after, s, split, start, step⟩
    exact ⟨e, toPrefix_eq_error_iff.mpr (.inl failed), told⟩
  | unmatchedOpen before token after split faultless kind unmatched rightmost =>
    obtain ⟨last, run⟩ := exists_run_of_faultless faultless
    subst split
    have head := head_opened_of_unmatched run kind unmatched rightmost
    have finish := finish_eq_error_iff.mpr ⟨token, head, rfl⟩
    exact ⟨_, toPrefix_eq_error_iff.mpr (.inr ⟨last, run, finish⟩), rfl⟩

theorem Reports.not_allClosed (reports : Reports tokens d) (faultless : Faultless tokens) : ¬ AllClosed tokens := by
  intro closed
  cases reports with
  | fault before token after d split leftmost fault => exact faultless before token after d split fault
  | unmatchedOpen before token after split _ kind unmatched => exact unmatched (closed before token after split kind)

theorem exists_toPrefix_iff :
    (∃ reordered, toPrefix tokens = .ok reordered) ↔ Faultless tokens ∧ AllClosed tokens := by
  constructor
  · rintro ⟨reordered, h⟩
    obtain ⟨last, run, operators, -⟩ := exists_run_of_toPrefix h
    have groups := OpenGroups.of_run run
    rw [← List.append_nil last.waiting, filter_opens_of_operators operators] at groups
    cases groups with
    | outside matched => exact ⟨faultless_of_run run, matched.allClosed⟩
  · rintro ⟨faultless, closed⟩
    cases h : toPrefix tokens with
    | ok reordered => exact ⟨reordered, rfl⟩
    | error e => exact absurd closed ((reports_of_error h).not_allClosed faultless)

/-! ## Operators -/

/-- The same error, or states in which the same parentheses wait. -/
inductive SameEnd : Except SyntaxError State → Except SyntaxError State → Prop where
  | ok {s s' : State} (same : s.waiting.filter opens = s'.waiting.filter opens) : SameEnd (.ok s) (.ok s')
  | error (e : SyntaxError) : SameEnd (.error e) (.error e)

variable {s' : State}

/-- Whether a token is refused depends on the waiting parentheses only. -/
theorem refused_of_same (same : s.waiting.filter opens = s'.waiting.filter opens) (step : s.step token = .error e) :
    s'.step token = .error e := by
  rw [step_eq_error_iff] at step ⊢
  cases step with
  | number n cause kind value => exact .number n cause kind value
  | closeParen kind none => exact .closeParen kind (same ▸ none)

theorem sameEnd_step (same : s.waiting.filter opens = s'.waiting.filter opens) (token : Token) :
    SameEnd (s.step token) (s'.step token) := by
  cases step : s.step token with
  | error e =>
    rw [refused_of_same same step]
    exact .error e
  | ok next =>
    cases step' : s'.step token with
    | error e =>
      rw [refused_of_same same.symm step'] at step
      cases step
    | ok next' =>
      refine .ok ?_
      rw [(moves_of_step step).filter_opens, (moves_of_step step').filter_opens, same]

/-- An operator is taken in without a change to the waiting parentheses. -/
theorem exists_step_of_isOperator (operator : token.isOperator) (s : State) :
    ∃ next, s.step token = .ok next ∧ next.waiting.filter opens = s.waiting.filter opens := by
  unfold Token.isOperator at operator
  split at operator
  · next op kind =>
    cases step : s.step token with
    | ok next => exact ⟨next, rfl, by simp [(moves_of_step step).filter_opens, openAfter, kind]⟩
    | error e =>
      cases step_eq_error_iff.mp step with
      | number n cause kind' value => simp [kind] at kind'
      | closeParen kind' none => simp [kind] at kind'
  all_goals cases operator

/-- Without the operators a run ends in the same way. -/
theorem sameEnd_run (same : s.waiting.filter opens = s'.waiting.filter opens) (tokens : List Token) :
    SameEnd (s.run tokens) (s'.run (tokens.filter (!Token.isOperator ·))) := by
  induction tokens generalizing s s' with
  | nil => exact .ok same
  | cons token rest ih =>
    cases operator : token.isOperator with
    | true =>
      obtain ⟨next, step, unchanged⟩ := exists_step_of_isOperator operator s
      rw [run_cons_of_step step, List.filter_cons_of_neg (by simp [operator])]
      exact ih (unchanged.trans same)
    | false =>
      rw [List.filter_cons_of_pos (by simp [operator]), State.run, State.run, Fold.cons, Fold.cons]
      generalize one : s.step token = first
      generalize two : s'.step token = second
      have steps := sameEnd_step same token
      rw [one, two] at steps
      cases steps with
      | ok same => exact ih same
      | error e => exact .error e

theorem toPrefix_error_iff_without_operators :
    toPrefix tokens = .error e ↔ toPrefix (tokens.filter (!Token.isOperator ·)) = .error e := by
  have ends := @sameEnd_run ⟨[], []⟩ ⟨[], []⟩ rfl tokens
  rw [toPrefix_eq_error_iff, toPrefix_eq_error_iff]
  generalize State.run ⟨[], []⟩ tokens = first at ends ⊢
  generalize State.run ⟨[], []⟩ (tokens.filter _) = second at ends ⊢
  cases ends with
  | error e' => simp
  | ok same =>
    simp only [reduceCtorEq, false_or, Except.ok.injEq, exists_eq_left', finish_eq_error_iff, same]

end

/-- What reordering reports, and when it succeeds. The message and the offset are those of the leftmost fault, or
without a fault those of the rightmost opening parenthesis that has no partner; a reordering succeeds if there is
neither; and the operators among the tokens make no difference to the error. -/
theorem toPrefix_reports (tokens : List Token) :
    (∀ d, (∃ e, toPrefix tokens = .error e ∧ e.toDiagnostic = d) ↔ Reports tokens d) ∧
      ((∃ reordered, toPrefix tokens = .ok reordered) ↔ Faultless tokens ∧ AllClosed tokens) ∧
      ∀ e, toPrefix tokens = .error e ↔ toPrefix (tokens.filter (!Token.isOperator ·)) = .error e := by
  refine ⟨?_, exists_toPrefix_iff, fun e => toPrefix_error_iff_without_operators⟩
  intro d
  constructor
  · rintro ⟨e, failed, rfl⟩
    exact reports_of_error failed
  · exact exists_error_of_reports

end ShuntingYard

end Polish
