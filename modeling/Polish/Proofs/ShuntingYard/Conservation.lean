import Polish.Proofs.Grammar.Derivation
import Polish.Proofs.Lexer.NumberText
import Polish.Proofs.ShuntingYard.Steps

/-!
# Nothing is lost on the way to prefix order

Every token that is no parenthesis is either waiting or in the output, once, and the numbers are in the output in the
order in which they left, the last one first (`Conserves`). Each step keeps this, for tokens in any order, and at the
end nothing waits. So the reordered tokens are a permutation of the ones that came in, their numbers are reversed, and
a number changes only in that it has got its value.
-/

namespace Polish

namespace Token

/-- Whether the token is a parenthesis. -/
def isParenthesis (t : Token) : Bool := t.kind = .openParen || t.kind = .closeParen

/-- Whether the token is a number. -/
def isNumber (t : Token) : Bool := t.asNumber?.isSome

/-- The token with the value that its literal is read as, if it is a number; other tokens stay as they are. -/
def evaluated (t : Token) : Token :=
  match t.kind with
  | .number n => { t with kind := .number { n with value? := Binary64.ofText? n.literal.toList } }
  | .openParen | .closeParen | .operator _ => t

variable {token : Token}

theorem evaluated_of_number {n : Numeral} {x : Binary64} (kind : token.kind = .number n) (value : n.evaluate = .ok x) :
    token.evaluated = { token with kind := .number { n with value? := some x } } := by
  obtain ⟨readsBack, literal⟩ := Numeral.evaluate_eq_ok_iff.mp value
  have reads : Binary64.ofText? n.literal.toList = some x := literal ▸ readsBack.reads
  simp only [evaluated, kind, reads]

theorem evaluated_of_operator {op : Operator} (kind : token.kind = .operator op) : token.evaluated = token := by
  rw [evaluated, kind]

/-- The text of an accepted number's value is its literal, so the value does not show in the trace form. -/
theorem trace_evaluated {n : Numeral} {x : Binary64} (kind : token.kind = .number n) (value : n.evaluate = .ok x)
    (fresh : n.value? = none) : token.evaluated.trace = token.trace := by
  obtain ⟨-, literal⟩ := Numeral.evaluate_eq_ok_iff.mp value
  rw [evaluated_of_number kind value, trace, trace, kind]
  simp only [Kind.label, fresh, literal]

end Token

namespace ShuntingYard

open Token

/-- The tokens of a sort, the numbers among them with their values. -/
def evaluatedWhere (keep : Token → Bool) (tokens : List Token) : List Token := (tokens.filter keep).map evaluated

section

variable {keep : Token → Bool} {tokens : List Token} {token : Token}

theorem evaluatedWhere_concat_of_pos (kept : keep token = true) :
    evaluatedWhere keep (tokens ++ [token]) = evaluatedWhere keep tokens ++ [token.evaluated] := by
  simp [evaluatedWhere, kept]

theorem evaluatedWhere_concat_of_neg (dropped : keep token = false) :
    evaluatedWhere keep (tokens ++ [token]) = evaluatedWhere keep tokens := by
  simp [evaluatedWhere, dropped]

end

/-- What came in is waiting or in the output, parentheses aside, and the numbers are in the output. -/
structure Conserves (s : State) (tokens : List Token) : Prop where
  stacked : s.Stacked
  perm : (s.waiting.filter (!opens ·) ++ s.output).Perm (evaluatedWhere (!isParenthesis ·) tokens)
  numbers : s.output.filter isNumber = (evaluatedWhere isNumber tokens).reverse

theorem conserves_start : Conserves ⟨[], []⟩ [] where
  stacked := State.stacked_start
  perm := .nil
  numbers := rfl

section

variable {s next : State} {tokens : List Token} {token : Token}

/-- Operators above any waiting token can leave. -/
theorem Conserves.send (conserves : Conserves s tokens) {held kept : List Token} (waiting : s.waiting = held ++ kept)
    (operators : ∀ top ∈ held, opens top = false) : Conserves ⟨kept, held.reverse ++ s.output⟩ tokens where
  stacked := by
    intro top member
    refine conserves.stacked top ?_
    rw [waiting]
    exact List.mem_append_right held member
  perm := by
    have all : held.filter (!opens ·) = held := by
      rw [List.filter_eq_self]
      intro top member
      simp [operators top member]
    have account := conserves.perm
    rw [waiting, List.filter_append, all] at account
    refine .trans ?_ account
    calc (kept.filter (!opens ·) ++ (held.reverse ++ s.output)).Perm (kept.filter (!opens ·) ++ (held ++ s.output)) :=
          ((List.reverse_perm held).append_right s.output).append_left _
      _ = (kept.filter (!opens ·) ++ held) ++ s.output := (List.append_assoc ..).symm
      List.Perm _ ((held ++ kept.filter (!opens ·)) ++ s.output) := List.perm_append_comm.append_right s.output
  numbers := by
    have none : held.reverse.filter isNumber = [] := by
      rw [List.filter_eq_nil_iff]
      intro top member
      rw [List.mem_reverse] at member
      have waits : top ∈ s.waiting := waiting ▸ List.mem_append_left kept member
      obtain ⟨op, kind⟩ := conserves.stacked top waits (operators top member)
      simp [isNumber, asNumber?, kind]
    rw [List.filter_append, none, List.nil_append, conserves.numbers]

/-- One token keeps the account. -/
theorem Conserves.step (conserves : Conserves s tokens) (moves : State.Moves s token next) :
    Conserves next (tokens ++ [token]) := by
  have stacked := moves.stacked conserves.stacked
  cases moves with
  | number n x kind value =>
    have number : isNumber token = true := by simp [isNumber, asNumber?, kind]
    have number' : isNumber token.evaluated = true := by simp [isNumber, asNumber?, evaluated_of_number kind value]
    refine ⟨stacked, ?_, ?_⟩
    · rw [evaluatedWhere_concat_of_pos (by simp [isParenthesis, kind]), State.sendNumber,
        ← evaluated_of_number kind value]
      calc (s.waiting.filter (!opens ·) ++ token.evaluated :: s.output).Perm
            (token.evaluated :: (s.waiting.filter (!opens ·) ++ s.output)) := List.perm_middle
        List.Perm _ (token.evaluated :: evaluatedWhere (!isParenthesis ·) tokens) := conserves.perm.cons _
        List.Perm _ _ := (List.perm_append_singleton ..).symm
    · rw [evaluatedWhere_concat_of_pos number, List.reverse_concat, ← conserves.numbers, State.sendNumber,
        ← evaluated_of_number kind value, List.filter_cons_of_pos number']
  | openParen kind =>
    refine ⟨stacked, ?_, ?_⟩
    · rw [evaluatedWhere_concat_of_neg (by simp [isParenthesis, kind]), State.wait,
        List.filter_cons_of_neg (by simp [opens, kind])]
      exact conserves.perm
    · rw [evaluatedWhere_concat_of_neg (by simp [isNumber, asNumber?, kind])]
      exact conserves.numbers
  | closeParen kind held opening outer waiting group opened =>
    have sent := conserves.send waiting group
    refine ⟨stacked, ?_, ?_⟩
    · rw [evaluatedWhere_concat_of_neg (by simp [isParenthesis, kind])]
      have account := sent.perm
      rwa [List.filter_cons_of_neg (by simp [opens, opened])] at account
    · rw [evaluatedWhere_concat_of_neg (by simp [isNumber, asNumber?, kind])]
      exact sent.numbers
  | operator op kind held kept waiting released stays =>
    have sent := conserves.send waiting fun top member => opens_of_releases kind (released top member)
    refine ⟨stacked, ?_, ?_⟩
    · rw [evaluatedWhere_concat_of_pos (by simp [isParenthesis, kind]), evaluated_of_operator kind,
        List.filter_cons_of_pos (by simp [opens, kind])]
      exact (sent.perm.cons token).trans (List.perm_append_singleton ..).symm
    · rw [evaluatedWhere_concat_of_neg (by simp [isNumber, asNumber?, kind])]
      exact sent.numbers

/-- A run keeps the account of all tokens before and in it. -/
theorem Conserves.run {before : List Token} {last : State} (conserves : Conserves s before)
    (run : s.run tokens = .ok last) : Conserves last (before ++ tokens) := by
  refine State.keeps_taken_of_run (P := fun before s => Conserves s before) ?_ conserves run
  intro before s token next conserves moves
  exact conserves.step moves

/-- Only accepted literals are sent to the output. -/
theorem accepted_of_run {last : State} (run : s.run tokens = .ok last) : Grammar.Accepted tokens := by
  induction tokens generalizing s with
  | nil => simp [Grammar.Accepted]
  | cons token rest ih =>
    obtain ⟨next, step, more⟩ := State.exists_step_of_run run
    rw [Grammar.accepted_cons]
    refine ⟨?_, ih more⟩
    intro n kind
    cases State.moves_of_step step with
    | number m x kind' value =>
      rw [kind] at kind'
      cases kind'
      exact ⟨x, value⟩
    | openParen kind' => simp [kind] at kind'
    | closeParen kind' => simp [kind] at kind'
    | operator op kind' => simp [kind] at kind'

end

section

variable {tokens reordered : List Token}

theorem accepted_of_toPrefix (h : toPrefix tokens = .ok reordered) : Grammar.Accepted tokens := by
  obtain ⟨last, run, -, -⟩ := exists_run_of_toPrefix h
  exact accepted_of_run run

/-- At the end all that is kept is in the output. -/
theorem Conserves.finish {s : State} (conserves : Conserves s tokens)
    (operators : ∀ top ∈ s.waiting, opens top = false) : Conserves ⟨[], s.waiting.reverse ++ s.output⟩ tokens :=
  conserves.send (List.append_nil _).symm operators

/-- Reordering loses, doubles and alters nothing. What comes out is a permutation of what came in without the
parentheses, every number with the value that its literal is read as and nothing else changed; the numbers come out in
the opposite order; and a number that had no value before is traced as it was. -/
theorem toPrefix_conserves (h : toPrefix tokens = .ok reordered) :
    reordered.Perm ((tokens.filter (!isParenthesis ·)).map evaluated) ∧
      reordered.filter isNumber = ((tokens.filter isNumber).map evaluated).reverse ∧
      ∀ token ∈ tokens, ∀ n, token.kind = .number n →
        (∃ x, Binary64.ofText? n.literal.toList = some x) ∧
          (n.value? = none → token.evaluated.trace = token.trace) := by
  have accepted := accepted_of_toPrefix h
  obtain ⟨last, run, operators, rfl⟩ := exists_run_of_toPrefix h
  obtain ⟨-, perm, numbers⟩ := (conserves_start.run run).finish operators
  refine ⟨perm, numbers, ?_⟩
  intro token member n kind
  obtain ⟨x, value⟩ := accepted token member n kind
  obtain ⟨readsBack, literal⟩ := Numeral.evaluate_eq_ok_iff.mp value
  exact ⟨⟨x, literal ▸ readsBack.reads⟩, trace_evaluated kind value⟩

theorem toPrefix_conserves_malformed :
    ∃ tokens reordered, Token.traceAll tokens = "[mul][opb][num:-1.5][num:NaN][pow][clb][add]" ∧
      toPrefix tokens = .ok reordered ∧ Token.traceAll reordered = "[add][mul][pow][num:2][num:-1.5]" ∧
      reordered.Perm ((tokens.filter (!isParenthesis ·)).map evaluated) ∧
      reordered.filter isNumber = ((tokens.filter isNumber).map evaluated).reverse ∧
      ∀ token ∈ tokens, ∀ n, token.kind = .number n →
        (∃ x, Binary64.ofText? n.literal.toList = some x) ∧
          (n.value? = none → token.evaluated.trace = token.trace) := by
  -- Neither the order of the tokens nor their offsets and the old value make sense.
  generalize tokens_eq : [(⟨7, .operator .mul, "*"⟩ : Token), ⟨0, .openParen, "("⟩,
    ⟨3, .number { literal := "-1.5" }, "-1.5"⟩, ⟨3, .number { literal := "2", value? := some .nan }, "+2"⟩,
    ⟨9, .operator .pow, "^"⟩, ⟨1, .closeParen, ")"⟩, ⟨2, .operator .add, "+"⟩] = tokens
  have traced : (toPrefix tokens).toOption.map Token.traceAll = some "[add][mul][pow][num:2][num:-1.5]" := by
    rw [← tokens_eq]
    decide +kernel
  cases reorder : toPrefix tokens with
  | error e => simp [reorder, Except.toOption] at traced
  | ok reordered =>
    rw [reorder] at traced
    have before : Token.traceAll tokens = "[mul][opb][num:-1.5][num:NaN][pow][clb][add]" := by
      rw [← tokens_eq]
      decide +kernel
    exact ⟨tokens, reordered, before, reorder, Option.some.inj traced, toPrefix_conserves reorder⟩

end

end ShuntingYard

end Polish
