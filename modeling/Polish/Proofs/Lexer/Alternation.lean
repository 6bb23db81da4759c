import Polish.Proofs.Lexer.Tokenize

/-!
# Operands and operators alternate

What the lexer promises about neighbours, in the terms of tokens: a number or an opening parenthesis stands where an
operand may begin, and an operator or a closing parenthesis stands behind a value.
-/

namespace Polish

/-- Whether an operand begins with a token of the kind. -/
def Token.Kind.startsOperand : Token.Kind → Bool
  | .number _ | .openParen => true
  | .closeParen | .operator _ => false

namespace Token

variable {token : Token}

theorem isValue_of_number {n : Numeral} (kind : token.kind = .number n) : token.isValue = true := by
  rw [isValue, kind, Kind.isValue]

theorem isValue_of_openParen (kind : token.kind = .openParen) : token.isValue = false := by
  rw [isValue, kind, Kind.isValue]

theorem isValue_of_closeParen (kind : token.kind = .closeParen) : token.isValue = true := by
  rw [isValue, kind, Kind.isValue]

theorem isValue_of_operator {op : Operator} (kind : token.kind = .operator op) : token.isValue = false := by
  rw [isValue, kind, Kind.isValue]

end Token

/-- Whether no token begins an operand right behind a value, and none continues where there is no value. -/
def Alternates : (afterValue : Bool) → List Token → Prop
  | _, [] => True
  | afterValue, token :: rest => token.kind.startsOperand = !afterValue ∧ Alternates token.isValue rest

/-- Whether a value stands at the end of the tokens, if one stands before them or not. -/
def endsInValue : (afterValue : Bool) → List Token → Bool
  | afterValue, [] => afterValue
  | _, token :: rest => endsInValue token.isValue rest

theorem endsInValue_concat (afterValue : Bool) (front : List Token) (last : Token) :
    endsInValue afterValue (front ++ [last]) = last.isValue := by
  induction front generalizing afterValue with
  | nil => rfl
  | cons token rest ih => exact ih token.isValue

namespace Lexer

theorem startsOperand_kind {expected : Expected} {word : Word} (admitted : expected.Admits word) (spaced : Bool) :
    (word.kind spaced).startsOperand = !decide (expected ≠ .operand) := by
  cases word with
  | number text => simp [Expected.admits_number.mp admitted, Word.kind, Token.Kind.startsOperand]
  | openParen => simp [Expected.admits_openParen.mp admitted, Word.kind, Token.Kind.startsOperand]
  | closeParen => simpa [Word.kind, Token.Kind.startsOperand] using admitted
  | operator op => simp [Expected.admits_operator.mp admitted, Word.kind, Token.Kind.startsOperand]

theorem isValue_kind (word : Word) (spaced : Bool) :
    (word.kind spaced).isValue = decide (word.after ≠ .operand) := by
  cases word with
  | number text =>
    by_cases sign : text = ['+'] ∨ text = ['-']
    · simp [Word.kind, Token.Kind.isValue, Word.after, sign]
    · simp [Word.kind, Token.Kind.isValue, Word.after, sign]
  | openParen => rfl
  | closeParen => rfl
  | operator op => rfl

theorem Piece.isValue_token (p : Piece) (offset : Nat) :
    (p.token offset).isValue = decide (p.word.after ≠ .operand) :=
  isValue_kind p.word _

theorem alternates_tokensFrom {expected : Expected} {pieces : List Piece}
    (inOrder : InOrder expected (pieces.map Piece.word)) (offset : Nat) :
    Alternates (decide (expected ≠ .operand)) (tokensFrom offset pieces) := by
  induction pieces generalizing expected offset with
  | nil => trivial
  | cons p rest ih =>
    obtain ⟨admitted, later⟩ := inOrder
    refine ⟨startsOperand_kind admitted _, ?_⟩
    rw [p.isValue_token]
    exact ih later _

/-- Operands and operators alternate in what has been read. -/
theorem alternates_of_tokenize {expression : String} {tokens : List Token} (h : tokenize expression = .ok tokens) :
    Alternates false tokens := by
  obtain ⟨s, -, -, rfl⟩ := exists_split h
  exact alternates_tokensFrom s.inOrder _

theorem ne_nil_of_tokenize {expression : String} {tokens : List Token} (h : tokenize expression = .ok tokens) :
    tokens ≠ [] := by
  obtain ⟨s, some, -, rfl⟩ := exists_split h
  simpa [Split.tokens] using some

end Lexer

end Polish
