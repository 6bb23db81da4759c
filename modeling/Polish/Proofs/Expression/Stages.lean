import Polish.Expression

/-!
# The stages of an expression

An expression is read as tokens, these are put in prefix order, and a tree is read from that. What comes out at a later
stage went through the earlier ones.
-/

namespace Polish.Expression

open CallTree

variable {expression : String} {tokens reordered : List Token} {t : CallTree}

theorem convert_of_tokenize (read : Lexer.tokenize expression = .ok tokens) :
    convert expression = toPrefix tokens := by
  rw [convert, read]
  rfl

theorem convert_eq_ok_iff :
    convert expression = .ok reordered ↔
      ∃ tokens, Lexer.tokenize expression = .ok tokens ∧ toPrefix tokens = .ok reordered := by
  constructor
  · intro h
    cases read : Lexer.tokenize expression with
    | error e => simp [convert, read, Except.bind] at h
    | ok tokens =>
      rw [convert_of_tokenize read] at h
      exact ⟨tokens, rfl, h⟩
  · rintro ⟨tokens, read, reorder⟩
    rw [convert_of_tokenize read, reorder]

theorem tree_of_convert_error {e : SyntaxError} (failed : convert expression = .error e) :
    tree expression = .error (.syntaxError e) := by
  rw [tree, failed]

theorem render_of_convert_error {e : SyntaxError} (failed : convert expression = .error e) :
    render expression = .error (.syntaxError e) := by
  rw [render, tree_of_convert_error failed]
  rfl

theorem tree_of_convert (converted : convert expression = .ok reordered) :
    tree expression = (ofPrefix reordered).mapError .structureError := by
  rw [tree, converted]

theorem tree_eq_ok_iff :
    tree expression = .ok t ↔ ∃ reordered, convert expression = .ok reordered ∧ ofPrefix reordered = .ok t := by
  constructor
  · intro h
    cases converted : convert expression with
    | error e => simp [tree, converted] at h
    | ok reordered =>
      rw [tree_of_convert converted] at h
      cases parsed : ofPrefix reordered with
      | error e =>
        rw [parsed] at h
        cases h
      | ok t' =>
        rw [parsed] at h
        cases h
        exact ⟨reordered, rfl, parsed⟩
  · rintro ⟨reordered, converted, parsed⟩
    rw [tree_of_convert converted, parsed]
    rfl

theorem render_of_tree (parsed : tree expression = .ok t) : render expression = .ok t.callText := by
  rw [render, parsed]
  rfl

theorem exists_tree_of_render {text : String} (rendered : (render expression).toOption = some text) :
    ∃ t, tree expression = .ok t ∧ t.callText = text := by
  rw [render] at rendered
  cases parsed : tree expression with
  | error e =>
    rw [parsed] at rendered
    cases rendered
  | ok t =>
    rw [parsed] at rendered
    cases rendered
    exact ⟨t, rfl, rfl⟩

end Polish.Expression
