import Polish.Proofs.Expression.Stages
import Polish.Proofs.ShuntingYard.Balance

/-!
# Unfinished expressions

An expression whose tokens can be reordered has a call text, unless it ends with an operator. Then the operator that
comes first in prefix order lacks its first operand, and no other error of the reader of prefix sequences comes from
a text.
-/

namespace Polish.Expression

open CallTree
open StructureError (chain_oneOperand)

variable {expression : String} {tokens reordered : List Token}

/-- What becomes of an expression whose tokens are reordered, by the token at its end. -/
inductive Outcome (tokens reordered : List Token) : Except Failure String → Prop where
  | finished (front : List Token) (last : Token) (tokens_eq : tokens = front ++ [last]) (value : last.isValue = true)
      (t : CallTree) : Outcome tokens reordered (.ok t.callText)
  | unfinished (front : List Token) (last : Token) (tokens_eq : tokens = front ++ [last]) (op : Operator)
      (kind : last.kind = .operator op) (first : Token) (head : reordered.head? = some first) (other : Operator)
      (firstKind : first.kind = .operator other) :
      Outcome tokens reordered (.error (.structureError (.oneOperand other)))

theorem outcome_of_toPrefix (read : Lexer.tokenize expression = .ok tokens)
    (reorder : toPrefix tokens = .ok reordered) : Outcome tokens reordered (render expression) := by
  have alternates := Lexer.alternates_of_tokenize read
  have some := Lexer.ne_nil_of_tokenize read
  have converted := convert_eq_ok_iff.mpr ⟨tokens, read, reorder⟩
  rcases ShuntingYard.value_or_operator_of_toPrefix some reorder with value | ⟨front, last, op, rfl, kind⟩
  · obtain ⟨t, parsed⟩ := ShuntingYard.exists_ofPrefix_of_endsInValue alternates value reorder
    rw [render_of_tree (tree_eq_ok_iff.mpr ⟨reordered, converted, parsed⟩)]
    obtain ⟨front, last, rfl⟩ := (List.eq_nil_or_concat tokens).resolve_left some
    rw [List.concat_eq_append, endsInValue_concat] at value
    exact .finished front last List.concat_eq_append value t
  · obtain ⟨first, other, head, firstKind, failed⟩ :=
      ShuntingYard.ofPrefix_eq_error_of_operator alternates kind reorder
    rw [render, tree_of_convert converted, failed]
    exact .unfinished front last rfl op kind first head other firstKind

namespace Outcome

theorem fails_iff {result : Except Failure String} (outcome : Outcome tokens reordered result) :
    (∃ failure, result = .error failure) ↔ ∃ last op, tokens.getLast? = some last ∧ last.kind = .operator op := by
  cases outcome with
  | finished front last tokens_eq value t =>
    subst tokens_eq
    constructor
    · rintro ⟨failure, failed⟩
      cases failed
    · rintro ⟨last', op, getLast, kind⟩
      rw [List.getLast?_concat] at getLast
      cases getLast
      simp [Token.isValue_of_operator kind] at value
  | unfinished front last tokens_eq op kind first head other firstKind =>
    subst tokens_eq
    constructor
    · intro _
      exact ⟨last, op, List.getLast?_concat, kind⟩
    · intro _
      exact ⟨_, rfl⟩

/-- The only failure is that the first of the reordered tokens is an operator without a first operand. -/
theorem exists_of_error {failure : Failure} (outcome : Outcome tokens reordered (.error failure)) :
    ∃ first op, reordered.head? = some first ∧ first.kind = .operator op ∧
      failure = .structureError (.oneOperand op) := by
  cases outcome with
  | unfinished front last tokens_eq op kind first head other firstKind => exact ⟨first, other, head, firstKind, rfl⟩

end Outcome

/-- The renderer fails on reordered tokens exactly if the last token read is an operator, and then the first of the
reordered tokens lacks its first operand. No text leads to another structural error. -/
theorem render_fails_iff_last_operator (expression : String) :
    (∀ reordered, convert expression = .ok reordered →
      ∃ tokens, Lexer.tokenize expression = .ok tokens ∧
        ((∃ failure, render expression = .error failure) ↔
          ∃ last op, tokens.getLast? = some last ∧ last.kind = .operator op) ∧
        ∀ failure, render expression = .error failure →
          ∃ first cause, reordered.head? = some first ∧ failure = .structureError cause ∧
            cause.chain = ["Expected a first operand for " ++ first.trace,
              "Prefix sequence ended before the call tree was complete"]) ∧
    ∀ cause, render expression = .error (.structureError cause) → ∃ op, cause = .oneOperand op := by
  constructor
  · intro reordered converted
    obtain ⟨tokens, read, reorder⟩ := convert_eq_ok_iff.mp converted
    have outcome := outcome_of_toPrefix read reorder
    refine ⟨tokens, read, outcome.fails_iff, ?_⟩
    intro failure failed
    rw [failed] at outcome
    obtain ⟨first, op, head, kind, rfl⟩ := outcome.exists_of_error
    exact ⟨first, .oneOperand op, head, rfl, chain_oneOperand kind⟩
  · intro cause failed
    cases converted : convert expression with
    | error e => simp [render, tree, converted, Except.map] at failed
    | ok reordered =>
      obtain ⟨tokens, read, reorder⟩ := convert_eq_ok_iff.mp converted
      have outcome := outcome_of_toPrefix read reorder
      rw [failed] at outcome
      obtain ⟨first, op, -, -, same⟩ := outcome.exists_of_error
      cases same
      exact ⟨op, rfl⟩

theorem render_fails_iff_last_operator_minus :
    ∃ tokens reordered first cause, Lexer.tokenize "1+2*3-" = .ok tokens ∧ convert "1+2*3-" = .ok reordered ∧
      (∃ last op, tokens.getLast? = some last ∧ last.kind = .operator op) ∧
      render "1+2*3-" = .error (.structureError cause) ∧ reordered.head? = some first ∧
      cause.chain = ["Expected a first operand for " ++ first.trace,
        "Prefix sequence ended before the call tree was complete"] := by
  have converts : (convert "1+2*3-").isOk := by decide +kernel
  have fails : ¬ (render "1+2*3-").isOk := by decide +kernel
  cases converted : convert "1+2*3-" with
  | error e => simp [converted, Except.isOk, Except.toBool] at converts
  | ok reordered =>
    cases rendered : render "1+2*3-" with
    | ok text => simp [rendered, Except.isOk, Except.toBool] at fails
    | error failure =>
      obtain ⟨tokens, read, ends, causes⟩ := (render_fails_iff_last_operator "1+2*3-").1 reordered converted
      obtain ⟨first, cause, head, rfl, chain⟩ := causes failure rendered
      exact ⟨tokens, reordered, first, cause, read, rfl, ends.mp ⟨_, rendered⟩, rfl, head, chain⟩

end Polish.Expression
