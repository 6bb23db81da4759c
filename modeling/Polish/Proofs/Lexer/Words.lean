import Polish.Proofs.Lexer.Tokenize

/-!
# Words without white space

Words that are in order may be written one right behind the other, and are read as they are.
-/

namespace Polish.Lexer

open Text (width)

/-- The tokens of words that are written without white space from a byte offset on. -/
def tokensOfWords : Nat → List Word → List Token
  | _, [] => []
  | offset, word :: rest => word.token offset false :: tokensOfWords (offset + width word.text) rest

theorem tokensOfWords_append (offset : Nat) (front back : List Word) :
    tokensOfWords offset (front ++ back) =
      tokensOfWords offset front ++ tokensOfWords (offset + width (front.flatMap Word.text)) back := by
  induction front generalizing offset with
  | nil => simp [tokensOfWords]
  | cons word rest ih => simp [tokensOfWords, ih, Nat.add_assoc]

section

variable {words : List Word} (wellFormed : ∀ word ∈ words, word.WellFormed)

/-- The words as pieces. -/
def piecesOfWords : List Piece := words.pmap Piece.ofWord wellFormed

theorem map_word_piecesOfWords : (piecesOfWords wellFormed).map Piece.word = words := by
  rw [piecesOfWords, List.map_pmap]
  exact List.pmap_eq_self.mpr fun word member => rfl

theorem sourceOf_piecesOfWords : sourceOf (piecesOfWords wellFormed) = words.flatMap Word.text := by
  unfold piecesOfWords
  induction words with
  | nil => rfl
  | cons word rest ih =>
    have later := ih fun other member => wellFormed other (List.mem_cons_of_mem word member)
    rw [List.pmap_cons, sourceOf_cons, Piece.source_ofWord, later, List.flatMap_cons]

theorem tokensFrom_piecesOfWords (offset : Nat) :
    tokensFrom offset (piecesOfWords wellFormed) = tokensOfWords offset words := by
  unfold piecesOfWords
  induction words generalizing offset with
  | nil => rfl
  | cons word rest ih =>
    have later := ih (fun other member => wellFormed other (List.mem_cons_of_mem word member))
      (offset + width word.text)
    rw [List.pmap_cons, tokensFrom, Piece.source_ofWord, later]
    rfl

/-- The split of the words. -/
def Split.ofWords (inOrder : InOrder .operand words) : Split where
  lead := []
  pieces := piecesOfWords wellFormed
  blank := blank_nil
  inOrder := by rwa [map_word_piecesOfWords]

include wellFormed in
/-- Words that are in order are read as their tokens. -/
theorem tokenize_of_words (some : words ≠ []) (inOrder : InOrder .operand words) {expression : String}
    (text : expression.toList = words.flatMap Word.text) : tokenize expression = .ok (tokensOfWords 0 words) := by
  have pieces : (Split.ofWords wellFormed inOrder).pieces ≠ [] := by
    intro none
    exact some (List.pmap_eq_nil_iff.mp none)
  have source : (Split.ofWords wellFormed inOrder).source = expression.toList := by
    rw [text, ← sourceOf_piecesOfWords wellFormed]
    rfl
  rw [tokenize_of_split pieces source, ← tokensFrom_piecesOfWords wellFormed]
  rfl

end

end Polish.Lexer
