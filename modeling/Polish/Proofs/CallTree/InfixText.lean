import Polish.Proofs.Grammar.Derivation
import Polish.Proofs.Lexer.NumberText
import Polish.Proofs.Lexer.Words

/-!
# Trees as infix text

A tree is written with a pair of parentheses around each call. The words of that text are in order, whatever the signs
of the numbers, and a derivation of them has the tree again.
-/

namespace Polish.CallTree

open Lexer Grammar
open Text (width)

/-- The numbers of a tree, from the left to the right of its infix text. -/
def leaves : CallTree → List Binary64
  | number x => [x]
  | call _ left right => left.leaves ++ right.leaves

theorem forall_leaves_call {p : Binary64 → Prop} {op : Operator} {left right : CallTree} :
    (∀ x ∈ (call op left right).leaves, p x) ↔ (∀ x ∈ left.leaves, p x) ∧ ∀ x ∈ right.leaves, p x :=
  List.forall_mem_append

/-- The infix text of a tree, with parentheses around all calls. -/
def infixText : CallTree → String
  | number x => x.text
  | call op left right => "(" ++ left.infixText ++ .singleton op.symbol ++ right.infixText ++ ")"

/-- The words of the infix text. -/
def words : CallTree → List Word
  | number x => [.number x.chars]
  | call op left right => .openParen :: (left.words ++ .operator op :: (right.words ++ [.closeParen]))

theorem toList_infixText (t : CallTree) : t.infixText.toList = t.words.flatMap Word.text := by
  induction t with
  | number x => simp [infixText, words, Binary64.text, Word.text]
  | call op left right ihl ihr =>
    simp only [infixText, String.toList_append, String.toList_singleton, ihl, ihr, words, List.flatMap_cons,
      List.flatMap_append, List.flatMap_nil, Word.text]
    simp

theorem words_ne_nil (t : CallTree) : t.words ≠ [] := by
  cases t with
  | number x => simp [words]
  | call op left right => simp [words]

section

variable {t : CallTree}

theorem wellFormed_words (isFinite : ∀ x ∈ t.leaves, x.isFinite) : ∀ word ∈ t.words, word.WellFormed := by
  induction t with
  | number x =>
    intro word member
    rw [List.mem_singleton.mp member]
    exact isNumber_chars (isFinite x List.mem_cons_self)
  | call op left right ihl ihr =>
    rw [forall_leaves_call] at isFinite
    have leftWords := ihl isFinite.1
    have rightWords := ihr isFinite.2
    intro word member
    simp only [words, List.mem_cons, List.mem_append, List.not_mem_nil, or_false] at member
    rcases member with rfl | inLeft | rfl | inRight | rfl
    · trivial
    · exact leftWords word inLeft
    · trivial
    · exact rightWords word inRight
    · trivial

/-- The words are in order, and a value stands at their end. -/
theorem inOrder_words (isFinite : ∀ x ∈ t.leaves, x.isFinite) :
    InOrder .operand t.words ∧ afterAll .operand t.words = .operator := by
  induction t with
  | number x =>
    have after := after_chars (isFinite x List.mem_cons_self)
    exact ⟨⟨trivial, trivial⟩, after⟩
  | call op left right ihl ihr =>
    rw [forall_leaves_call] at isFinite
    obtain ⟨leftOrder, leftEnd⟩ := ihl isFinite.1
    obtain ⟨rightOrder, rightEnd⟩ := ihr isFinite.2
    have closed : InOrder .operand (right.words ++ [.closeParen]) := by
      rw [inOrder_append, rightEnd]
      exact ⟨rightOrder, trivial, trivial⟩
    constructor
    · refine ⟨trivial, ?_⟩
      rw [Word.after, inOrder_append, leftEnd]
      exact ⟨leftOrder, trivial, closed⟩
    · simp [words, afterAll, afterAll_append, Word.after]

/-- The tokens of the words have a derivation with the tree. -/
theorem exists_derivation (readsBack : ∀ x ∈ t.leaves, x.ReadsBack) (offset : Nat) :
    ∃ d : Derivation .atom, d.tokens = tokensOfWords offset t.words ∧ d.tree? = some t := by
  induction t generalizing offset with
  | number x =>
    have finite := readsBack x List.mem_cons_self
    have value : (Word.numeral false x.chars).evaluate = .ok x := by
      apply Numeral.evaluate_of_readsBack finite
      rw [Word.numeral, literalOf_chars finite.isFinite, Binary64.text]
    refine ⟨.number ((Word.number x.chars).token offset false) (Word.numeral false x.chars) rfl, rfl, ?_⟩
    simp [Derivation.tree?, value, Except.toOption]
  | call op left right ihl ihr =>
    rw [forall_leaves_call] at readsBack
    obtain ⟨l, tokensL, treeL⟩ := ihl readsBack.1 (offset + width Word.openParen.text)
    generalize middle_eq : offset + width Word.openParen.text + width (left.words.flatMap Word.text) = middle
    obtain ⟨r, tokensR, treeR⟩ := ihr readsBack.2 (middle + width (Word.operator op).text)
    obtain ⟨inner, tokensInner, tree⟩ :=
      Derivation.exists_call (show ((Word.operator op).token middle false).kind = .operator op from rfl) l r treeL treeR
    generalize closing_eq :
      middle + width (Word.operator op).text + width (right.words.flatMap Word.text) = closing
    refine ⟨.group (Word.openParen.token offset false) inner (Word.closeParen.token closing false) rfl rfl, ?_, tree⟩
    simp only [words, tokensOfWords, tokensOfWords_append, middle_eq, closing_eq, Derivation.tokens, tokensInner,
      tokensL, tokensR, List.append_assoc, List.cons_append]

end

end Polish.CallTree
