import Polish.Proofs.CallTree.Lines
import Polish.Proofs.Grammar.Parsing
import Polish.Proofs.Grammar.Substitution

/-!
# What call text shows of an expression

The call text of an expression shows its operators and its numbers, and nothing else. The operators come through the
shunting yard as they are (`ShuntingYard.perm_operators`), and what it puts out is the prefix sequence of the tree. The
numbers of the tree are shown by their literals, as accepted literals are the texts of their values.
-/

namespace Polish

/-! ## Operators -/

section

variable {tokens reordered : List Token}

theorem Token.asOperator?_evaluated (token : Token) : token.evaluated.asOperator? = token.asOperator? := by
  cases kind : token.kind <;> simp [evaluated, asOperator?, kind]

/-- An operator is no parenthesis. -/
theorem Token.asOperator?_of_isParenthesis {token : Token} (parenthesis : token.isParenthesis = true) :
    token.asOperator? = none := by
  cases kind : token.kind <;> simp_all [isParenthesis, asOperator?]

theorem operators_evaluatedWhere (tokens : List Token) :
    operators (ShuntingYard.evaluatedWhere (!Token.isParenthesis ·) tokens) = operators tokens := by
  rw [operators, ShuntingYard.evaluatedWhere, List.filterMap_map, List.filterMap_filter, operators]
  congr 1
  funext token
  cases parenthesis : token.isParenthesis with
  | true => simp [Token.asOperator?_of_isParenthesis parenthesis]
  | false => simp [Token.asOperator?_evaluated]

/-- The operators among reordered tokens are those that came in. -/
theorem ShuntingYard.perm_operators (reorder : toPrefix tokens = .ok reordered) :
    (operators reordered).Perm (operators tokens) := by
  obtain ⟨last, run, waiting, rfl⟩ := exists_run_of_toPrefix reorder
  have perm := ((conserves_start.run run).finish waiting).perm
  rw [← operators_evaluatedWhere tokens]
  exact perm.filterMap Token.asOperator?

end

/-! ## Numbers -/

/-- Accepted literals are the texts of their values. -/
theorem literals_of_evaluate {ns : List Numeral} {xs : List Binary64} (values : ns.map Numeral.evaluate = xs.map .ok) :
    ns.map Numeral.literal = xs.map Binary64.text := by
  induction ns generalizing xs with
  | nil =>
    cases xs with
    | nil => rfl
    | cons x xs => cases values
  | cons n ns ih =>
    cases xs with
    | nil => cases values
    | cons x xs =>
      obtain ⟨value, later⟩ := List.cons.inj values
      rw [List.map_cons, List.map_cons, (Numeral.evaluate_eq_ok_iff.mp value).2, ih later]

theorem CallTree.length_leaves (t : CallTree) : t.leaves.length = t.operators.length + 1 := by
  induction t with
  | number x => rfl
  | call op left right ihl ihr =>
    simp only [leaves, operators, List.length_append, List.length_cons, ihl, ihr]
    omega

namespace Expression

/-- The lines show the tokens: one line opens a call for each operator, as many lines close a call, and the other lines
show the literals of the numbers, of which there is one more, in the opposite order. -/
structure Shows (shown : List Line) (tokens : List Token) : Prop where
  length : shown.length = 3 * (operators tokens).length + 1
  operators : (shown.filterMap Line.operator?).Perm (operators tokens)
  closes : shown.count .close = (Polish.operators tokens).length
  numbers : shown.filterMap Line.number? = ((numerals tokens).map Numeral.literal).reverse
  numerals : (numerals tokens).length = (Polish.operators tokens).length + 1

variable {expression : String} {tokens : List Token} {t : CallTree}

/-- An expression and its tree have the same operators, and the literals are the texts of the leaves. -/
theorem exists_tokens_of_tree (parsed : tree expression = .ok t) :
    ∃ tokens, Lexer.tokenize expression = .ok tokens ∧ t.operators.Perm (operators tokens) ∧
      (numerals tokens).map Numeral.literal = t.leaves.map Binary64.text := by
  obtain ⟨reordered, converted, read⟩ := tree_eq_ok_iff.mp parsed
  obtain ⟨tokens, lexed, reorder⟩ := convert_eq_ok_iff.mp converted
  obtain ⟨d, lexed', tree⟩ := Grammar.tree_eq_ok_iff_derivation.mp parsed
  obtain rfl : tokens = d.tokens := Except.ok.inj (lexed.symm.trans lexed')
  refine ⟨d.tokens, lexed, ?_, literals_of_evaluate (d.map_evaluate_numerals tree)⟩
  rw [← CallTree.operators_of_writes (CallTree.writes_of_ofPrefix read)]
  exact ShuntingYard.perm_operators reorder

/-- What a tree shows it shows of tokens with the same operators and literals. -/
theorem shows_of_tree (perm : t.operators.Perm (operators tokens))
    (literals : (numerals tokens).map Numeral.literal = t.leaves.map Binary64.text) : Shows t.shown tokens where
  length := by rw [t.length_shown, perm.length_eq]
  operators := by
    rw [t.filterMap_operator_shown]
    exact perm
  closes := by rw [t.count_close_shown, perm.length_eq]
  numbers := by rw [t.filterMap_number_shown, literals]
  numerals := by
    have lengths := congrArg List.length literals
    rw [List.length_map, List.length_map, t.length_leaves] at lengths
    rw [lengths, perm.length_eq]

/-- The lines of the call text show the tokens of the expression, and nothing else. -/
theorem lines_render {expression text : String} (rendered : render expression = .ok text) :
    ∃ tokens shown, Lexer.tokenize expression = .ok tokens ∧
      (Text.lines text.toList).map Line.ofText? = shown.map some ∧ Shows shown tokens := by
  obtain ⟨t, parsed, rfl⟩ := exists_tree_of_render (by rw [rendered]; rfl)
  obtain ⟨tokens, lexed, perm, literals⟩ := exists_tokens_of_tree parsed
  exact ⟨tokens, t.shown, lexed, t.map_ofText?_lines_callText, shows_of_tree perm literals⟩

theorem lines_render_signs :
    ∃ tokens shown text, text = "SUB(\n  3,\n  ADD(\n    MUL(\n      8.6,\n      -5\n    ),\n    -2\n  )\n)" ∧
      render "(-2 +-5*+8.6)-3" = .ok text ∧ Lexer.tokenize "(-2 +-5*+8.6)-3" = .ok tokens ∧
      (Text.lines text.toList).map Line.ofText? = shown.map some ∧ Shows shown tokens := by
  generalize text_eq : "SUB(\n  3,\n  ADD(\n    MUL(\n      8.6,\n      -5\n    ),\n    -2\n  )\n)" = text
  have rendered : render "(-2 +-5*+8.6)-3" = .ok text := by
    rw [← text_eq]
    decide +kernel
  obtain ⟨tokens, shown, lexed, lines, shows⟩ := lines_render rendered
  exact ⟨tokens, shown, text, rfl, rendered, lexed, lines, shows⟩

end Expression

end Polish
