import Polish.Proofs.Lexer.Places
import Polish.Proofs.ShuntingYard.Correspondence

/-!
# The trace forms of what is read

The trace form of a token ends with a bracket that its label does not have, so the trace forms in a row have one
reading, and the label of a token that comes from a text tells its kind, but for the note on white space.
-/

namespace Polish

/-- What stands before the first stop is determined, and so is what stands behind it. -/
theorem Text.append_stop_inj {front back front' back' : List Char} {stop : Char} (free : stop ∉ front)
    (free' : stop ∉ front') (same : front ++ stop :: back = front' ++ stop :: back') :
    front = front' ∧ back = back' := by
  induction front generalizing front' with
  | nil =>
    cases front' with
    | nil => exact ⟨rfl, (List.cons.inj same).2⟩
    | cons c rest' =>
      have first := (List.cons.inj same).1
      exact absurd (first ▸ List.mem_cons_self) free'
  | cons c rest ih =>
    cases front' with
    | nil =>
      have first := (List.cons.inj same).1
      exact absurd (first ▸ List.mem_cons_self) free
    | cons c' rest' =>
      obtain ⟨rfl, later⟩ := List.cons.inj same
      rw [List.mem_cons, not_or] at free free'
      obtain ⟨rfl, rfl⟩ := ih free.2 free'.2 later
      exact ⟨rfl, rfl⟩

theorem Token.toList_traceAll_cons (t : Token) (rest : List Token) :
    (traceAll (t :: rest)).toList = '[' :: (t.kind.label.toList ++ ']' :: (traceAll rest).toList) := by
  simp [traceAll, trace, String.toList_join]

namespace Lexer

open Token

/-! ## Labels -/

/-- A literal has digits and points, and maybe a minus. -/
theorem isNumeric_of_mem_literalOf {text : List Char} (number : IsNumber text) {c : Char}
    (member : c ∈ literalOf text) : c = '-' ∨ c.isDigit ∨ c = '.' := by
  obtain ⟨d, rest, rfl⟩ := List.exists_cons_of_ne_nil number.nonempty
  have body := number.body
  by_cases plus : d = '+'
  · rw [literalOf, if_pos plus] at member
    exact .inr (body c (by simpa [unsigned, plus] using member))
  · rw [literalOf, if_neg plus] at member
    by_cases minus : d = '-'
    · rcases List.mem_cons.mp member with rfl | later
      · exact .inl minus
      · exact .inr (body c (by simpa [unsigned, minus] using later))
    · exact .inr (body c (by simpa [unsigned, plus, minus] using member))

/-- The characters of a word's label. -/
def Word.label : Word → List Char
  | number text => 'n' :: 'u' :: 'm' :: ':' :: literalOf text
  | openParen => ['o', 'p', 'b']
  | closeParen => ['c', 'l', 'b']
  | operator op => op.name.toList

theorem toList_label_kind (word : Word) (spaced : Bool) : (word.kind spaced).label.toList = word.label := by
  cases word with
  | number text => simp [Word.kind, Word.numeral, Kind.label, Word.label]
  | openParen => simp [Word.kind, Kind.label, Word.label]
  | closeParen => simp [Word.kind, Kind.label, Word.label]
  | operator op => rfl

/-- The label of a word does not have the bracket that comes behind it. -/
theorem not_mem_label {word : Word} (wellFormed : word.WellFormed) : ']' ∉ word.label := by
  cases word with
  | number text =>
    intro member
    have inLiteral : ']' ∈ literalOf text := by simpa [Word.label] using member
    rcases isNumeric_of_mem_literalOf wellFormed inLiteral with minus | digit | point
    · cases minus
    · cases digit
    · cases point
  | openParen => decide
  | closeParen => decide
  | operator op => cases op <;> decide

theorem label_operator_ne_parenthesis (op : Operator) :
    (Word.operator op).label ≠ Word.openParen.label ∧ (Word.operator op).label ≠ Word.closeParen.label := by
  cases op <;> decide

theorem label_number_ne_operator (text : List Char) (op : Operator) :
    (Word.number text).label ≠ (Word.operator op).label := by
  cases op <;> simp [Word.label, Operator.name]

/-- The kinds of words are told apart by their labels: only a number has a colon in it, and the three letters of the
others differ. -/
theorem same_kind_of_label {word other : Word} (same : word.label = other.label) (spaced spaced' : Bool) :
    (word.kind spaced).Same (other.kind spaced') := by
  cases word with
  | number text =>
    cases other with
    | number text' =>
      have literals : literalOf text = literalOf text' := by simpa [Word.label] using same
      exact .number ⟨by simp only [Word.numeral, literals], by simp only [Word.numeral, literals], rfl⟩
    | openParen => cases same
    | closeParen => cases same
    | operator op => exact absurd same (label_number_ne_operator text op)
  | openParen =>
    cases other with
    | number text' => cases same
    | openParen => exact .openParen
    | closeParen => cases same
    | operator op => exact absurd same.symm (label_operator_ne_parenthesis op).1
  | closeParen =>
    cases other with
    | number text' => cases same
    | openParen => cases same
    | closeParen => exact .closeParen
    | operator op => exact absurd same.symm (label_operator_ne_parenthesis op).2
  | operator op =>
    cases other with
    | number text' => exact absurd same.symm (label_number_ne_operator text' op)
    | openParen => exact absurd same (label_operator_ne_parenthesis op).1
    | closeParen => exact absurd same (label_operator_ne_parenthesis op).2
    | operator op' =>
      obtain rfl : op = op' := Operator.eq_of_name_eq (String.toList_inj.mp same)
      exact .operator op

/-! ## Rows of trace forms -/

/-- The trace forms of pieces tell the kinds of their tokens. -/
theorem same_kinds_of_traceAll {ps qs : List Piece} {offset offset' : Nat}
    (same : traceAll (tokensFrom offset ps) = traceAll (tokensFrom offset' qs)) :
    List.Forall₂ (fun a b : Token => a.kind.Same b.kind) (tokensFrom offset ps) (tokensFrom offset' qs) := by
  replace same := congrArg String.toList same
  induction ps generalizing qs offset offset' with
  | nil =>
    cases qs with
    | nil => exact .nil
    | cons q qs =>
      rw [tokensFrom, tokensFrom, toList_traceAll_cons] at same
      cases same
  | cons p ps ih =>
    cases qs with
    | nil =>
      rw [tokensFrom, tokensFrom, toList_traceAll_cons] at same
      cases same
    | cons q qs =>
      rw [tokensFrom, tokensFrom, toList_traceAll_cons, toList_traceAll_cons] at same
      have kinds (p : Piece) (offset : Nat) : (p.token offset).kind.label.toList = p.word.label :=
        toList_label_kind p.word _
      rw [kinds, kinds] at same
      obtain ⟨labels, later⟩ := Text.append_stop_inj (not_mem_label p.wellFormed) (not_mem_label q.wellFormed)
        (List.cons.inj same).2
      exact .cons (same_kind_of_label labels _ _) (ih later)

/-- Expressions with the same trace have tokens of the same kinds. -/
theorem same_kinds_of_tokenize {expression other : String} {tokens tokens' : List Token}
    (read : tokenize expression = .ok tokens) (read' : tokenize other = .ok tokens')
    (same : traceAll tokens = traceAll tokens') :
    List.Forall₂ (fun a b : Token => a.kind.Same b.kind) tokens tokens' := by
  obtain ⟨s, -, -, rfl⟩ := exists_split read
  obtain ⟨t, -, -, rfl⟩ := exists_split read'
  exact same_kinds_of_traceAll same

end Lexer

end Polish
