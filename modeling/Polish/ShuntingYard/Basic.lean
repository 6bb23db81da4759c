import Polish.Fold
import Polish.Token
import Polish.SyntaxError

/-!
# From infix to prefix order

The shunting yard moves numbers straight to the output and lets operators wait on a stack. An arriving operator
first releases the waiting ones that bind more tightly, and an arriving power also releases a waiting power, so
that sums and products group to the right and powers to the left. A closing parenthesis releases
everything back to its opening one. The output is kept with its newest token first, which is prefix order with the
right operand before the left.
-/

namespace Polish

open SyntaxError (Cause)

/-- The value of a number in an expression, if its literal is accepted. -/
def Numeral.evaluate (n : Numeral) : Except Cause Binary64 :=
  if n.literal = "" then .error .emptyNumber
  else
    match Binary64.ofLiteral? n.literal with
    | some x => .ok x
    | none => .error (.invalidLiteral n.literal)

namespace ShuntingYard

/-- The yard between two tokens. -/
structure State where
  /-- Operators and opening parentheses that wait, the last one to arrive first. -/
  waiting : List Token := []
  /-- The tokens that have left, the last one first. -/
  output : List Token := []
deriving DecidableEq

/-- Whether an arriving operator releases the waiting token: one that binds more tightly, or a power by a power. -/
def releases (arriving top : Token) : Bool :=
  arriving.precedence < top.precedence || (top.precedence == arriving.precedence && arriving.isCaret)

/-- Whether the token is an opening parenthesis. -/
def opens (t : Token) : Bool := t.kind = .openParen

namespace State

/-- The waiting tokens that an arriving operator releases, in the order in which they leave. -/
def released (s : State) (arriving : Token) : List Token := s.waiting.takeWhile (releases arriving)

/-- Sends a number to the output. -/
def sendNumber (s : State) (token : Token) (n : Numeral) (x : Binary64) : State :=
  { s with output := { token with kind := .number { n with value? := some x } } :: s.output }

/-- Lets a token wait. -/
def wait (s : State) (token : Token) : State := { s with waiting := token :: s.waiting }

/-- Releases what an arriving operator releases and lets the operator wait. -/
def sendOperator (s : State) (arriving : Token) : State where
  waiting := arriving :: s.waiting.dropWhile (releases arriving)
  output := (s.released arriving).reverse ++ s.output

/-- Releases everything up to the last waiting parenthesis, which goes; nothing if none waits. -/
def closeGroup? (s : State) : Option State :=
  match s.waiting.dropWhile (!opens ·) with
  | _ :: outer => some { waiting := outer, output := (s.waiting.takeWhile (!opens ·)).reverse ++ s.output }
  | [] => none

/-- Takes in one token. -/
def step (s : State) (token : Token) : Except SyntaxError State :=
  match token.kind with
  | .number n =>
    match n.evaluate with
    | .ok x => .ok (s.sendNumber token n x)
    | .error cause => .error ⟨cause, token.offset⟩
  | .openParen => .ok (s.wait token)
  | .closeParen =>
    match s.closeGroup? with
    | some next => .ok next
    | none => .error ⟨.unmatchedClose, token.offset⟩
  | .operator _ => .ok (s.sendOperator token)

/-- Takes in tokens until one is refused. -/
def run (s : State) (tokens : List Token) : Except SyntaxError State := tokens.foldlM step s

/-- Releases what still waits; a parenthesis among it was never closed. -/
def finish (s : State) : Except SyntaxError (List Token) :=
  match s.waiting.find? opens with
  | some token => .error ⟨.unmatchedOpen, token.offset⟩
  | none => .ok (s.waiting.reverse ++ s.output)

end State

end ShuntingYard

/-- The tokens in prefix order without parentheses, every number with its value; or the first error. -/
def toPrefix (tokens : List Token) : Except SyntaxError (List Token) :=
  (ShuntingYard.State.run ⟨[], []⟩ tokens).bind ShuntingYard.State.finish

end Polish
