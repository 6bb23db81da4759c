import Polish.Proofs.Expression.Stages
import Polish.Proofs.Grammar.Grouping
import Polish.Proofs.Grammar.Reordering
import Polish.Proofs.ShuntingYard.Balance
import Polish.Proofs.ShuntingYard.Conservation

/-!
# Parsing by the grammar

The shunting yard and the reader of prefix sequences parse the grammar of expressions, and nothing else: what is derived
from accepted literals is read as the tree of its derivation, and an expression that is read has a derivation.
-/

namespace Polish.Grammar

open ShuntingYard CallTree

/-- A derivation over accepted literals is parsed as its tree. -/
theorem Derivation.exists_ofPrefix (d : Derivation .expr) (accepted : Accepted d.tokens) :
    ∃ reordered t, toPrefix d.tokens = .ok reordered ∧ ofPrefix reordered = .ok t ∧ d.tree? = some t := by
  obtain ⟨t, tree⟩ := d.exists_tree accepted
  obtain ⟨reordered, reorder, writes⟩ := d.exists_toPrefix tree
  exact ⟨reordered, t, reorder, ofPrefix_of_writes writes, tree⟩

/-- Tokens that are parsed end in a value: behind a last operator the reader of the prefix sequence would fail. -/
theorem endsInValue_of_ofPrefix {tokens reordered : List Token} {t : CallTree} (some : tokens ≠ [])
    (alternates : Alternates false tokens) (reorder : toPrefix tokens = .ok reordered)
    (parsed : ofPrefix reordered = .ok t) : endsInValue false tokens = true := by
  rcases value_or_operator_of_toPrefix some reorder with value | ⟨front, last, op, rfl, kind⟩
  · exact value
  · obtain ⟨first, other, -, -, failed⟩ := ofPrefix_eq_error_of_operator alternates kind reorder
    rw [failed] at parsed
    cases parsed

/-- An expression that is parsed has a derivation. -/
theorem derivable_of_ofPrefix {expression : String} {tokens reordered : List Token} {t : CallTree}
    (read : Lexer.tokenize expression = .ok tokens) (reorder : toPrefix tokens = .ok reordered)
    (parsed : ofPrefix reordered = .ok t) : Derivable tokens := by
  have alternates := Lexer.alternates_of_tokenize read
  have value := endsInValue_of_ofPrefix (Lexer.ne_nil_of_tokenize read) alternates reorder parsed
  exact derivable_of_toPrefix alternates value reorder

/-- Whatever derivation the tokens have, they are parsed as its tree. -/
theorem Derivation.tree_of_ofPrefix {d : Derivation .expr} {reordered : List Token} {t : CallTree}
    (reorder : toPrefix d.tokens = .ok reordered) (parsed : ofPrefix reordered = .ok t) : d.tree? = some t := by
  obtain ⟨reordered', t', reorder', parsed', tree⟩ := d.exists_ofPrefix (accepted_of_toPrefix reorder)
  rw [reorder] at reorder'
  cases reorder'
  rw [parsed] at parsed'
  cases parsed'
  exact tree

/-- The tree of an expression is the tree of a derivation of its tokens. -/
theorem tree_eq_ok_iff_derivation {expression : String} {t : CallTree} :
    Expression.tree expression = .ok t ↔
      ∃ d : Derivation .expr, Lexer.tokenize expression = .ok d.tokens ∧ d.tree? = some t := by
  constructor
  · intro parsed
    obtain ⟨reordered, converted, read⟩ := Expression.tree_eq_ok_iff.mp parsed
    obtain ⟨tokens, lexed, reorder⟩ := Expression.convert_eq_ok_iff.mp converted
    obtain ⟨d, rfl⟩ := derivable_of_ofPrefix lexed reorder read
    exact ⟨d, lexed, d.tree_of_ofPrefix reorder read⟩
  · rintro ⟨d, lexed, tree⟩
    obtain ⟨reordered, reorder, writes⟩ := d.exists_toPrefix tree
    exact Expression.tree_eq_ok_iff.mpr
      ⟨reordered, Expression.convert_eq_ok_iff.mpr ⟨d.tokens, lexed, reorder⟩, ofPrefix_of_writes writes⟩

/-- What is derived over accepted literals is parsed as the tree of the derivation, and the tokens of every expression
that is parsed are derived, with that tree only. -/
theorem parses_grammar :
    (∀ d : Derivation .expr, Accepted d.tokens →
      ∃ reordered t, toPrefix d.tokens = .ok reordered ∧ ofPrefix reordered = .ok t ∧ d.tree? = some t) ∧
    ∀ expression tokens reordered t, Lexer.tokenize expression = .ok tokens → toPrefix tokens = .ok reordered →
      ofPrefix reordered = .ok t →
      (∃ d : Derivation .expr, d.tokens = tokens) ∧ ∀ d : Derivation .expr, d.tokens = tokens → d.tree? = some t := by
  refine ⟨fun d accepted => d.exists_ofPrefix accepted, ?_⟩
  intro expression tokens reordered t read reorder parsed
  refine ⟨derivable_of_ofPrefix read reorder parsed, ?_⟩
  rintro d rfl
  exact d.tree_of_ofPrefix reorder parsed

theorem parses_grammar_differences :
    ∃ (d : Derivation .expr) (t : CallTree), Accepted d.tokens ∧ Lexer.tokenize "8-4-2" = .ok d.tokens ∧
      d.tree? = some t ∧ t.callText = "SUB(\n  SUB(\n    2,\n    4\n  ),\n  8\n)" := by
  have rendered : (Expression.render "8-4-2").toOption = some "SUB(\n  SUB(\n    2,\n    4\n  ),\n  8\n)" := by
    decide +kernel
  obtain ⟨t, tree, text⟩ := Expression.exists_tree_of_render rendered
  obtain ⟨reordered, converted, parsed⟩ := Expression.tree_eq_ok_iff.mp tree
  obtain ⟨tokens, read, reorder⟩ := Expression.convert_eq_ok_iff.mp converted
  obtain ⟨⟨d, rfl⟩, same⟩ := parses_grammar.2 _ _ _ _ read reorder parsed
  have accepted := accepted_of_toPrefix reorder
  obtain ⟨-, t', -, -, tree'⟩ := parses_grammar.1 d accepted
  rw [same d rfl] at tree'
  cases tree'
  exact ⟨d, t, accepted, read, same d rfl, text⟩

end Polish.Grammar
