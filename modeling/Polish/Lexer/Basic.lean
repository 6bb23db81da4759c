import Polish.Fold
import Polish.Token
import Polish.SyntaxError

/-!
# Reading tokens

An expression is read one character at a time. The last token read is all the context that is needed to say what
a character does: `action` skips it, starts a token with it, extends the last number by it, or refuses it. A sign
that opens an operand belongs to the number after it: a minus is kept in the literal and a plus is dropped.
-/

namespace Polish.Lexer

open SyntaxError (Cause)

/-- What an accepted character does to the tokens read so far. -/
inductive Action where
  /-- White space between tokens, or after a number. -/
  | skip
  /-- The character is the first of a new token. -/
  | start (kind : Token.Kind)
  /-- The character belongs to the last token, a number. -/
  | extend
deriving DecidableEq

/-- The four characters that count as white space in an expression. -/
def isSpace (c : Char) : Bool := c == ' ' || c == '\t' || c == '\r' || c == '\n'

/-- The number that starts with a single character of its text. -/
def numeralOf (literal : String) : Token.Kind := .number { literal }

/-- What a digit or a point does after a token. -/
def digitAction (last? : Option Token.Kind) (c : Char) : Except Cause Action :=
  match last? with
  | some (.number n) =>
    if n.trailingSpace then .error (.missingOperator c)
    else if c = '.' ∧ n.hasPoint then .error .repeatedPoint
    else .ok .extend
  | some .closeParen => .error (.missingOperator c)
  | some .openParen | some (.operator _) | none => .ok (.start (numeralOf (.singleton c)))

/-- What a plus or minus does after a token: it opens an operand or stands between two. -/
def signAction (last? : Option Token.Kind) (op : Operator) : Except Cause Action :=
  match last? with
  | some (.number n) => if n.isBare then .error (.repeatedSign op) else .ok (.start (.operator op))
  | some .closeParen => .ok (.start (.operator op))
  | some .openParen | some (.operator _) | none => .ok (.start (numeralOf (if op = .sub then "-" else "")))

/-- What the symbol of any other operator does after a token. -/
def operatorAction (last? : Option Token.Kind) (op : Operator) : Except Cause Action :=
  match last? with
  | some (.number n) => if n.isBare then .error (.missingOperand op.symbol) else .ok (.start (.operator op))
  | some .closeParen => .ok (.start (.operator op))
  | some (.operator _) => .error (.repeatedOperator op)
  | some .openParen | none => .error (.missingOperand op.symbol)

/-- What a character does after a token, `none` standing for the beginning of the expression. -/
def action (last? : Option Token.Kind) (c : Char) : Except Cause Action :=
  if isSpace c then .ok .skip
  else if c = '(' then
    if last?.any Token.Kind.isValue then .error (.missingOperator c) else .ok (.start .openParen)
  else if c = ')' then
    if last?.any Token.Kind.isValue then .ok (.start .closeParen) else .error (.missingOperand c)
  else if c.isDigit ∨ c = '.' then digitAction last? c
  else
    match Operator.ofSymbol? c with
    | some op => if op = .add ∨ op = .sub then signAction last? op else operatorAction last? op
    | none => .error (.illegalCharacter c)

/-- The tokens of the part of an expression that has been read. -/
structure State where
  /-- The byte offset of the next character. -/
  offset : Nat := 0
  /-- The tokens read so far, the last one first. -/
  tokens : List Token := []
deriving DecidableEq

namespace State

/-- What the last token is, if there is one. -/
def last? (s : State) : Option Token.Kind := s.tokens.head?.map Token.kind

/-- The state after a character has been acted on. -/
def apply (s : State) (c : Char) (a : Action) : State where
  offset := s.offset + c.utf8Size
  tokens :=
    match a with
    | .skip => s.tokens.modifyHead Token.markSpace
    | .start kind => ⟨s.offset, kind, .singleton c⟩ :: s.tokens
    | .extend => s.tokens.modifyHead (Token.extend c)

theorem offset_apply (s : State) (c : Char) (a : Action) : (s.apply c a).offset = s.offset + c.utf8Size := rfl

/-- Reads one character. -/
def step (s : State) (c : Char) : Except SyntaxError State :=
  match action s.last? c with
  | .ok a => .ok (s.apply c a)
  | .error cause => .error ⟨cause, s.offset⟩

/-- Reads characters until one is refused. -/
def run (s : State) (text : List Char) : Except SyntaxError State := text.foldlM step s

theorem exists_action_of_step {s next : State} {c : Char} (h : s.step c = .ok next) :
    ∃ a, action s.last? c = .ok a ∧ next = s.apply c a := by
  rw [step] at h
  cases act : action s.last? c with
  | ok a =>
    rw [act] at h
    cases h
    exact ⟨a, rfl, rfl⟩
  | error cause =>
    rw [act] at h
    cases h

/-- The offset of a state that has read some text is the number of bytes of that text further on. -/
theorem offset_of_run {s t : State} {text : List Char} (h : s.run text = .ok t) :
    t.offset = s.offset + Text.width text := by
  have start : s.offset = s.offset + Text.width [] := (Nat.add_zero _).symm
  refine Fold.keeps_taken (P := fun before t => t.offset = s.offset + Text.width before) ?_ start h
  intro before t c next offset taken
  obtain ⟨a, -, rfl⟩ := exists_action_of_step taken
  rw [offset_apply, offset, Text.width_append, Text.width_cons, Text.width_nil, Nat.add_zero, Nat.add_assoc]

/-- The tokens in source order; an expression needs at least one. -/
def finish (s : State) : Except SyntaxError (List Token) :=
  if s.tokens = [] then .error ⟨.emptyExpression, 0⟩ else .ok s.tokens.reverse

end State

/-- The tokens of an expression, or the first error in it. -/
def tokenize (expression : String) : Except SyntaxError (List Token) :=
  (State.run ⟨0, []⟩ expression.toList).bind State.finish

end Polish.Lexer
