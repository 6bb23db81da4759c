import Polish.Proofs.Grammar.Parsing
import Polish.Proofs.Grammar.Substitution
import Polish.Proofs.Lexer.Splice

/-!
# Substitution in expressions

An expression in parentheses may be written for a number of another expression, whatever stands around the number. The
tree of the longer text is the tree of the shorter one with the tree of the inner expression in place of the number's
leaf: the text around the group is read as before (`Lexer.exists_tokenize_splice`), and an atom may stand for a number
in every derivation (`Grammar.Derivation.exists_substitute`).
-/

namespace Polish.Expression

open CallTree Grammar

variable {expression inner : String} {t u : CallTree}

/-- An expression that has a tree ends in a value. -/
theorem endsInValue_of_tree {tokens : List Token} (read : Lexer.tokenize inner = .ok tokens)
    (parsed : tree inner = .ok u) : endsInValue false tokens = true := by
  obtain ⟨reordered, converted, write⟩ := tree_eq_ok_iff.mp parsed
  rw [convert_of_tokenize read] at converted
  exact endsInValue_of_ofPrefix (Lexer.ne_nil_of_tokenize read) (Lexer.alternates_of_tokenize read) converted write

/-- The leaf of a number has as many leaves to the left of it as there are numbers before the number. -/
theorem exists_leaf {before after : List Token} {token : Token} {n : Numeral} (kind : token.kind = .number n)
    (values : (numerals (before ++ token :: after)).map Numeral.evaluate = t.leaves.map .ok) :
    ∃ x, n.evaluate = .ok x ∧ t.leaves[(numerals before).length]? = some x := by
  have here := congrArg (·[(numerals before).length]?) values
  simp only [numerals_append, numerals_cons_number kind, List.getElem?_map, List.getElem?_append_right (Nat.le_refl _),
    Nat.sub_self, List.getElem?_cons_zero, Option.map_some] at here
  obtain ⟨x, leaf, value⟩ := Option.map_eq_some_iff.mp here.symm
  exact ⟨x, value.symm, leaf⟩

/-- The tree of an expression in which a group stands for a number. -/
theorem tree_splice {tokens before after : List Token} {token : Token} {n : Numeral} {front back : String}
    (read : Lexer.tokenize expression = .ok tokens) (parsed : tree expression = .ok t)
    (parsedInner : tree inner = .ok u) (split : tokens = before ++ token :: after) (kind : token.kind = .number n)
    (text : expression = front ++ token.text ++ back) (offset : front.utf8ByteSize = token.offset) :
    tree (front ++ "(" ++ inner ++ ")" ++ back) = .ok (t.replaceLeaf (numerals before).length u) := by
  obtain ⟨d, lexed, treeD⟩ := tree_eq_ok_iff_derivation.mp parsed
  obtain ⟨i, lexedInner, treeI⟩ := tree_eq_ok_iff_derivation.mp parsedInner
  rw [read] at lexed
  cases lexed
  obtain ⟨front', back', spliced, text', offset', readSpliced, kinds⟩ :=
    Lexer.exists_tokenize_splice read split kind lexedInner (endsInValue_of_tree lexedInner parsedInner)
  obtain ⟨rfl, rfl⟩ : front = front' ∧ back = back' := by
    rw [text, ← String.toList_inj] at text'
    simp only [String.toList_append, List.append_assoc] at text'
    obtain ⟨fronts, rest⟩ := Text.append_inj_of_width text' (by
      rw [← Text.utf8ByteSize_ofList, ← Text.utf8ByteSize_ofList, String.ofList_toList, String.ofList_toList, offset,
        offset'])
    exact ⟨String.toList_inj.mp fronts, String.toList_inj.mp (List.append_cancel_left rest)⟩
  obtain ⟨d', rfl, tree'⟩ := d.exists_substitute split kind treeD i treeI kinds
  exact tree_eq_ok_iff_derivation.mpr ⟨d', readSpliced, tree'⟩

/-- Substitution in the text of an expression is substitution in its tree. The numbers of an expression that has a call
text are the leaves of its tree, in order. If an expression that has a call text too is written in parentheses in place
of one of them, the tree of the longer text has the tree of that expression in place of the leaf, and nothing else is
changed. -/
theorem tree_substitute {text textInner : String} (rendered : render expression = .ok text)
    (renderedInner : render inner = .ok textInner) :
    ∃ t u tokens, tree expression = .ok t ∧ tree inner = .ok u ∧ Lexer.tokenize expression = .ok tokens ∧
      (numerals tokens).map Numeral.evaluate = t.leaves.map .ok ∧
      ∀ before token after n index, tokens = before ++ token :: after → token.kind = .number n →
        index = (numerals before).length →
        (∃ x, n.evaluate = .ok x ∧ t.leaves[index]? = some x ∧ t.replaceLeaf index (.number x) = t) ∧
        (t.replaceLeaf index u).leaves = t.leaves.take index ++ u.leaves ++ t.leaves.drop (index + 1) ∧
        (∃ front back, expression = front ++ token.text ++ back ∧ front.utf8ByteSize = token.offset) ∧
        ∀ front back, expression = front ++ token.text ++ back → front.utf8ByteSize = token.offset →
          tree (front ++ "(" ++ inner ++ ")" ++ back) = .ok (t.replaceLeaf index u) ∧
          render (front ++ "(" ++ inner ++ ")" ++ back) = .ok (t.replaceLeaf index u).callText := by
  obtain ⟨t, parsed, -⟩ := exists_tree_of_render (by rw [rendered]; rfl)
  obtain ⟨u, parsedInner, -⟩ := exists_tree_of_render (by rw [renderedInner]; rfl)
  obtain ⟨d, read, treeD⟩ := tree_eq_ok_iff_derivation.mp parsed
  have values := d.map_evaluate_numerals treeD
  refine ⟨t, u, d.tokens, parsed, parsedInner, read, values, ?_⟩
  rintro before token after n index split kind rfl
  rw [split] at values
  obtain ⟨x, value, leaf⟩ := exists_leaf kind values
  refine ⟨⟨x, value, leaf, replaceLeaf_self leaf⟩, leaves_replaceLeaf leaf u, ?_, ?_⟩
  · obtain ⟨word, spaced, front, back, -, rfl, place⟩ := Lexer.exists_place_of_tokenize read split
    refine ⟨.ofList front, .ofList back, ?_, Text.utf8ByteSize_ofList front⟩
    rw [← String.toList_inj, place]
    simp [Lexer.Word.token]
  · intro front back text offset
    have spliced := tree_splice read parsed parsedInner split kind text offset
    exact ⟨spliced, render_of_tree spliced⟩

theorem tree_substitute_power :
    ∃ t u : CallTree, (render "1+2^3").isOk ∧ (render "4-5").isOk ∧ tree "1+2^3" = .ok t ∧ tree "4-5" = .ok u ∧
      tree "1+(4-5)^3" = .ok (t.replaceLeaf 1 u) := by
  have renders : (render "1+2^3").isOk := by decide +kernel
  have rendersInner : (render "4-5").isOk := by decide +kernel
  cases rendered : render "1+2^3" with
  | error failure => simp [rendered, Except.isOk, Except.toBool] at renders
  | ok text =>
    cases renderedInner : render "4-5" with
    | error failure => simp [renderedInner, Except.isOk, Except.toBool] at rendersInner
    | ok textInner =>
      obtain ⟨t, u, tokens, parsed, parsedInner, read, -, substitute⟩ := tree_substitute rendered renderedInner
      have lexed : Lexer.tokenize "1+2^3" =
          .ok ([⟨0, Lexer.numeralOf "1", "1"⟩, ⟨1, .operator .add, "+"⟩] ++
            ⟨2, Lexer.numeralOf "2", "2"⟩ :: [⟨3, .operator .pow, "^"⟩, ⟨4, Lexer.numeralOf "3", "3"⟩]) := by
        decide +kernel
      rw [lexed] at read
      cases read
      obtain ⟨-, -, -, spliced⟩ := substitute _ _ _ _ 1 rfl rfl rfl
      have whole : "1+" ++ "(" ++ "4-5" ++ ")" ++ "^3" = "1+(4-5)^3" := by decide
      have parsedSpliced := (spliced "1+" "^3" (by decide) (by decide)).1
      rw [whole] at parsedSpliced
      exact ⟨t, u, rfl, rfl, parsed, parsedInner, parsedSpliced⟩

end Polish.Expression
