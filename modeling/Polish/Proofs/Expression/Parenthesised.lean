import Polish.Proofs.Grammar.Parsing
import Polish.Proofs.Grammar.Substitution

/-!
# Reading back infix text

The infix text of a tree is read as that tree, so an expression and the infix text of its tree have the same call text.
-/

namespace Polish

open CallTree

/-- The numbers of a derivation's tree are the values of accepted literals. -/
theorem Grammar.Derivation.readsBack_leaves {level : Level} (d : Derivation level) {t : CallTree}
    (tree : d.tree? = some t) : ∀ x ∈ t.leaves, x.ReadsBack := by
  intro x member
  have evaluated : Except.ok x ∈ (numerals d.tokens).map Numeral.evaluate := by
    rw [d.map_evaluate_numerals tree, List.mem_map]
    exact ⟨x, member, rfl⟩
  obtain ⟨n, -, value⟩ := List.mem_map.mp evaluated
  exact (Numeral.evaluate_eq_ok_iff.mp value).1

namespace Expression

/-- The numbers of an expression's tree are read back from their texts. -/
theorem readsBack_leaves_of_tree {expression : String} {t : CallTree} (parsed : tree expression = .ok t) :
    ∀ x ∈ t.leaves, x.ReadsBack := by
  obtain ⟨d, -, tree⟩ := Grammar.tree_eq_ok_iff_derivation.mp parsed
  exact d.readsBack_leaves tree

/-- The tree is read from its infix text. -/
theorem exists_convert_infixText {t : CallTree} (readsBack : ∀ x ∈ t.leaves, x.ReadsBack) :
    ∃ reordered, convert t.infixText = .ok reordered ∧ ofPrefix reordered = .ok t := by
  have isFinite : ∀ x ∈ t.leaves, x.isFinite := by
    intro x member
    exact (readsBack x member).isFinite
  have read := Lexer.tokenize_of_words (wellFormed_words isFinite) t.words_ne_nil (inOrder_words isFinite).1
    t.toList_infixText
  obtain ⟨atom, tokens, tree⟩ := CallTree.exists_derivation readsBack 0
  rw [← tokens] at read
  exact tree_eq_ok_iff.mp
    (Grammar.tree_eq_ok_iff_derivation.mpr ⟨.ofTerm (.ofPower (.ofAtom atom)), read, tree⟩)

theorem render_infixText {t : CallTree} (readsBack : ∀ x ∈ t.leaves, x.ReadsBack) :
    render t.infixText = .ok t.callText :=
  render_of_tree (tree_eq_ok_iff.mpr (exists_convert_infixText readsBack))

/-- A tree whose numbers are finite and read back from their texts is what its infix text is read as. The tree of an
expression is such a tree, so its infix text has the call text of the expression. -/
theorem reads_infixText :
    (∀ t : CallTree, (∀ x ∈ t.leaves, x.isFinite ∧ Binary64.ofText? x.text.toList = some x) →
      (∃ reordered, convert t.infixText = .ok reordered ∧ ofPrefix reordered = .ok t) ∧
        render t.infixText = .ok t.callText) ∧
    ∀ expression text, render expression = .ok text →
      ∃ t, tree expression = .ok t ∧ render t.infixText = .ok text := by
  constructor
  · intro t leaves
    have readsBack : ∀ x ∈ t.leaves, x.ReadsBack := by
      intro x member
      obtain ⟨isFinite, reads⟩ := leaves x member
      exact ⟨isFinite, reads⟩
    exact ⟨exists_convert_infixText readsBack, render_infixText readsBack⟩
  · intro expression text rendered
    obtain ⟨t, parsed, rfl⟩ := exists_tree_of_render (by rw [rendered]; rfl)
    exact ⟨t, parsed, render_infixText (readsBack_leaves_of_tree parsed)⟩

theorem reads_infixText_minus :
    ∃ t : CallTree, t.infixText = "(1--1)" ∧
      (∀ x ∈ t.leaves, x.isFinite ∧ Binary64.ofText? x.text.toList = some x) ∧
      (∃ reordered, convert "(1--1)" = .ok reordered ∧ ofPrefix reordered = .ok t) ∧
      render "(1--1)" = .ok t.callText ∧ ∃ t', tree "(1--1)" = .ok t' ∧ render t'.infixText = .ok t.callText := by
  generalize tree_eq :
    CallTree.call .sub (.number (.ofBits 0x3FF0000000000000)) (.number (.ofBits 0xBFF0000000000000)) = t
  have text : t.infixText = "(1--1)" := by
    rw [← tree_eq]
    decide +kernel
  have leaves : ∀ x ∈ t.leaves, x.isFinite ∧ Binary64.ofText? x.text.toList = some x := by
    rw [← tree_eq]
    decide +kernel
  obtain ⟨converts, renders⟩ := reads_infixText.1 t leaves
  rw [text] at converts renders
  exact ⟨t, text, leaves, converts, renders, reads_infixText.2 "(1--1)" t.callText renders⟩

end Expression

end Polish
