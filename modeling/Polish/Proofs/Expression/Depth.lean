import Polish.Proofs.CallTree.Depth
import Polish.Proofs.Expression.Shown
import Polish.Proofs.Grammar.Chains
import Polish.Proofs.Lexer.Places

/-!
# How deep expressions are

The tree of an expression is at most as high as the expression has operators, and exactly as high if it has no
parentheses and its operators bind equally tightly. So the limit of drawings is a limit on the number of operators for
such expressions, and all expressions with no more operators are drawn.
-/

namespace Polish.Expression

open CallTree
open Lexer (tokenize)
open StructureError (chain_tooDeep)
open Text (lines)

/-- An expression without parentheses whose operators all bind equally tightly. -/
structure IsChain (expression : String) (tokens : List Token) : Prop where
  noOpen : '(' ∉ expression.toList
  noClose : ')' ∉ expression.toList
  onePrecedence : ∃ precedence, AllOf precedence tokens

section

variable {expression : String} {tokens : List Token} {t : CallTree}

/-- A parenthesis among the tokens stands in the expression. -/
theorem unparenthesised_of_tokenize (read : tokenize expression = .ok tokens) (noOpen : '(' ∉ expression.toList)
    (noClose : ')' ∉ expression.toList) : Unparenthesised tokens := by
  intro token member
  obtain ⟨before, after, split⟩ := List.append_of_mem member
  obtain ⟨word, spaced, front, back, -, rfl, text⟩ := Lexer.exists_place_of_tokenize read split
  rw [text] at noOpen noClose
  cases word with
  | number literal => rfl
  | openParen => simp [Lexer.Word.text] at noOpen
  | closeParen => simp [Lexer.Word.text] at noClose
  | operator op => rfl

theorem height_le_operators (read : tokenize expression = .ok tokens) (parsed : tree expression = .ok t) :
    t.height ≤ (operators tokens).length := by
  obtain ⟨tokens', read', perm, -⟩ := exists_tokens_of_tree parsed
  obtain rfl : tokens = tokens' := Except.ok.inj (read.symm.trans read')
  rw [← perm.length_eq]
  exact t.height_le_length_operators

theorem height_eq_operators (read : tokenize expression = .ok tokens) (parsed : tree expression = .ok t)
    (chain : IsChain expression tokens) : t.height = (operators tokens).length := by
  obtain ⟨d, read', tree⟩ := Grammar.tree_eq_ok_iff_derivation.mp parsed
  obtain rfl : tokens = d.tokens := Except.ok.inj (read.symm.trans read')
  obtain ⟨precedence, same⟩ := chain.onePrecedence
  exact d.height_eq tree (unparenthesised_of_tokenize read chain.noOpen chain.noClose) same

theorem view_of_tree (parsed : tree expression = .ok t) :
    view expression =
      if 256 < t.height then .error (.structureError (.tooDeep t.height 256)) else .ok t.drawing := by
  unfold view
  rw [parsed]
  show t.view?.mapError Failure.structureError = _
  rw [view?_eq]
  split
  · rfl
  · rfl

end

/-- Depth is measured in the same way everywhere, and the limit of drawings is exact. For every tree the loop that
measures ends after a turn for each node with the height, the call text is indented by two blanks for each level of it,
and the drawing is refused if the height is above the limit, naming the height. For an expression the height is at most
the number of its operators, and equal to it in a chain, so this number decides whether a chain is drawn. -/
theorem depth_decides_drawing :
    (∀ t : CallTree,
      t.depth = t.height ∧
      (∀ m : Measuring, deepest m.seen m.waiting =
        if m.waiting.isEmpty then m.seen else deepest m.turn.seen m.turn.waiting) ∧
      (∀ count, (Measuring.turn^[count] ⟨0, [(t, 0)]⟩).waiting = [] ↔ t.size ≤ count) ∧
      Measuring.turn^[t.size] ⟨0, [(t, 0)]⟩ = ⟨t.height, []⟩ ∧
      ((lines t.callText.toList).map indentation).max? = some (2 * t.depth) ∧
      ((∃ text, t.view? = .ok text) ↔ t.height ≤ 256) ∧
      (256 < t.height → ∃ e, t.view? = .error e ∧
        e.chain = ["Call tree is " ++ toString t.height ++ " levels deep, too deep to draw (at most 256)"])) ∧
    ∀ expression text, render expression = .ok text → ∃ tokens t, tokenize expression = .ok tokens ∧
      tree expression = .ok t ∧ t.callText = text ∧ t.height ≤ (operators tokens).length ∧
      (IsChain expression tokens → t.height = (operators tokens).length) ∧
      ((operators tokens).length ≤ 256 → view expression = .ok t.drawing) ∧
      (IsChain expression tokens → 256 < (operators tokens).length →
        view expression = .error (.structureError (.tooDeep (operators tokens).length 256))) := by
  refine ⟨?_, ?_⟩
  · intro t
    refine ⟨t.depth_eq_height, ?_, t.waiting_iterate_start_eq_nil_iff, t.iterate_turn_start, ?_, ?_, ?_⟩
    · intro m
      cases none : m.waiting.isEmpty with
      | true => rw [List.isEmpty_iff.mp none, if_pos rfl, deepest]
      | false => exact m.result_turn.symm
    · rw [t.depth_eq_height, t.max_indentation_callText]
    · rw [view?_eq]
      split
      · next deep => simpa using deep
      · next shallow => simpa using shallow
    · intro deep
      exact ⟨_, by rw [view?_eq, if_pos deep], chain_tooDeep t.height⟩
  · intro expression text rendered
    obtain ⟨t, parsed, callText⟩ := exists_tree_of_render (by rw [rendered]; rfl)
    obtain ⟨tokens, read, -⟩ := exists_tokens_of_tree parsed
    have bound := height_le_operators read parsed
    refine ⟨tokens, t, read, parsed, callText, bound, height_eq_operators read parsed, ?_, ?_⟩
    · intro few
      rw [view_of_tree parsed, if_neg (by omega)]
    · intro chain many
      have height := height_eq_operators read parsed chain
      rw [view_of_tree parsed, if_pos (by omega), height]

theorem depth_decides_drawing_powers :
    ∃ tokens t, tokenize "2^3^-4" = .ok tokens ∧ IsChain "2^3^-4" tokens ∧ tree "2^3^-4" = .ok t ∧
      t.callText = "POW(\n  -4,\n  POW(\n    3,\n    2\n  )\n)" ∧ t.height = (operators tokens).length ∧ t.height = 2 ∧
      view "2^3^-4" = .ok t.drawing := by
  have rendered : render "2^3^-4" = .ok "POW(\n  -4,\n  POW(\n    3,\n    2\n  )\n)" := by decide +kernel
  obtain ⟨tokens, t, read, parsed, callText, -, height, drawn, -⟩ := depth_decides_drawing.2 _ _ rendered
  have ops : (tokenize "2^3^-4").toOption.map operators = some [.pow, .pow] := by decide +kernel
  have powers : operators tokens = [.pow, .pow] := by simpa [read, Except.toOption] using ops
  have chain : IsChain "2^3^-4" tokens := by
    refine ⟨by decide +kernel, by decide +kernel, 3, ?_⟩
    unfold AllOf
    rw [powers]
    decide
  have two : (operators tokens).length = 2 := by rw [powers]; rfl
  refine ⟨tokens, t, read, chain, parsed, callText, height chain, ?_, drawn (by omega)⟩
  rw [height chain, two]

end Polish.Expression
