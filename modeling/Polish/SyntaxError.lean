import Polish.Diagnostic
import Polish.Operator

/-!
# Errors in expressions

Why an expression is refused, and where. The wording is in `Cause.message` alone.
-/

namespace Polish

namespace SyntaxError

/-- Why an expression is refused. -/
inductive Cause where
  /-- The expression has no tokens. -/
  | emptyExpression
  /-- The character belongs to no token. -/
  | illegalCharacter (c : Char)
  /-- An operand begins right after another one. -/
  | missingOperator (c : Char)
  /-- A number has a second point. -/
  | repeatedPoint
  /-- A sign follows a sign that has no digits yet. -/
  | repeatedSign (op : Operator)
  /-- An operator or a closing parenthesis stands where an operand should be. -/
  | missingOperand (c : Char)
  /-- An operator follows another one. -/
  | repeatedOperator (op : Operator)
  /-- A number without a literal. -/
  | emptyNumber
  /-- A literal that is not the canonical text of a finite number. -/
  | invalidLiteral (literal : String)
  /-- A closing parenthesis that nothing opens. -/
  | unmatchedClose
  /-- An opening parenthesis that nothing closes. -/
  | unmatchedOpen
deriving DecidableEq

/-- The message about a character, between quotes, with text before and after it. -/
def aboutChar (before : String) (c : Char) (after : String) : String :=
  before ++ "'" ++ String.singleton c ++ "'" ++ after

/-- The wording of a cause. -/
def Cause.message : Cause → String
  | emptyExpression => "empty expression"
  | illegalCharacter c => aboutChar "illegal character " c ""
  | missingOperator c => aboutChar "expected operator but " c " found"
  | repeatedPoint => "number already has a decimal point"
  | repeatedSign op => aboutChar "" op.symbol " unexpected as unary operator"
  | missingOperand c => aboutChar "missing operand before " c ""
  | repeatedOperator op => aboutChar "too many operators, " op.symbol " found"
  | emptyNumber => "number is empty"
  | invalidLiteral literal => "invalid number literal '" ++ literal ++ "'"
  | unmatchedClose => aboutChar "unbalanced " ')' ""
  | unmatchedOpen => aboutChar "unbalanced " '(' ""

end SyntaxError

/-- An error in an expression: a cause and the byte offset it is about. -/
structure SyntaxError where
  cause : SyntaxError.Cause
  offset : Nat
deriving DecidableEq

/-- The error as a message about its offset. -/
def SyntaxError.toDiagnostic (e : SyntaxError) : Diagnostic := ⟨e.cause.message, e.offset⟩

end Polish
