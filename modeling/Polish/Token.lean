import Polish.Operator
import Polish.Binary64.Literal

/-!
# Tokens

A token is a number, a parenthesis or an operator, with the byte offset where it began and the text it was made
from. A number carries its literal, and its value once that has been worked out.
-/

namespace Polish

/-- A number as it is written in an expression. -/
structure Numeral where
  /-- The text of the number, with a leading minus but without a leading plus. -/
  literal : String
  hasPoint : Bool := literal.toList.contains '.'
  /-- Set when white space followed the literal, so that nothing may extend it. -/
  trailingSpace : Bool := false
  /-- The number denoted, once the literal has been accepted. -/
  value? : Option Binary64 := none
deriving DecidableEq

/-- Whether the literal is at most a sign. -/
def Numeral.isBare (n : Numeral) : Bool := n.literal == "" || n.literal == "-"

/-- Equality of numerals, their values compared as numbers. -/
def Numeral.numericEq (a b : Numeral) : Bool :=
  a.literal == b.literal && a.hasPoint == b.hasPoint && a.trailingSpace == b.trailingSpace &&
    match a.value?, b.value? with
    | some x, some y => x.numericEq y
    | none, none => true
    | _, _ => false

/-- What a token is. -/
inductive Token.Kind where
  | number (numeral : Numeral)
  | openParen
  | closeParen
  | operator (op : Operator)
deriving DecidableEq

/-- A part of an expression and where it came from. -/
structure Token where
  /-- The byte offset at which the token began. -/
  offset : Nat
  kind : Token.Kind
  /-- The source text of the token. -/
  text : String
deriving DecidableEq

namespace Token

/-- Whether the kind is or ends a complete operand. -/
def Kind.isValue : Kind → Bool
  | .number _ | .closeParen => true
  | .openParen | .operator _ => false

/-- Whether the token is or ends a complete operand. -/
def isValue (t : Token) : Bool := t.kind.isValue

/-- Whether the token is the power operator. -/
def isCaret (t : Token) : Bool := t.kind = .operator .pow

/-- The number that the token is, if any. -/
def asNumber? (t : Token) : Option Numeral :=
  match t.kind with
  | .number n => some n
  | _ => none

/-- How tightly the token binds. An opening parenthesis is below every operator; a token that never waits
among operators has `-1`. -/
def precedence (t : Token) : Int :=
  match t.kind with
  | .operator op => op.precedence
  | .openParen => 0
  | .number _ | .closeParen => -1

/-- What the trace form shows between its brackets. -/
def Kind.label : Kind → String
  | .number n =>
    match n.value? with
    | some x => "num:" ++ x.text
    | none => "num:" ++ n.literal
  | .openParen => "opb"
  | .closeParen => "clb"
  | .operator op => op.name

/-- The compact trace form, for instance the operator `+` as `[add]`. -/
def trace (t : Token) : String := "[" ++ t.kind.label ++ "]"

/-- The trace forms of all tokens in a row. -/
def traceAll (tokens : List Token) : String := String.join (tokens.map trace)

/-! ## Changes to the last token -/

/-- Notes that white space followed a number; other tokens stay as they are. -/
def markSpace (t : Token) : Token :=
  match t.kind with
  | .number n => { t with kind := .number { n with trailingSpace := true } }
  | _ => t

/-- Adds a character to a number; other tokens stay as they are. -/
def extend (c : Char) (t : Token) : Token :=
  match t.kind with
  | .number n =>
    { t with
      kind := .number { n with literal := n.literal.push c, hasPoint := n.hasPoint || c == '.' }
      text := t.text.push c }
  | _ => t

/-! ## Numeric equality -/

/-- Equality of tokens in every field, the values of numbers compared as numbers. -/
def numericEq (a b : Token) : Bool :=
  a.offset == b.offset && a.text == b.text &&
    match a.kind, b.kind with
    | .number m, .number n => m.numericEq n
    | k, l => k == l

/-- Equality of token lists, token by token. -/
def allNumericEq (as bs : List Token) : Bool := as.length == bs.length && (as.zip bs).all fun (a, b) => a.numericEq b

end Token

end Polish
