import Polish.CallTree.Basic
import Polish.Fold
import Polish.StructureError
import Polish.Token

/-!
# Reading a tree from a prefix sequence

A prefix sequence is read from its end. A number becomes an operand, and an operator takes its right and then its
left operand from those read so far. One operand has to be left at the beginning of the sequence.
-/

namespace Polish.CallTree

/-- What a token of a prefix sequence makes of the operands after it, the nearest first. -/
def place (token : Token) (operands : List CallTree) : Except StructureError (List CallTree) :=
  match token.kind with
  | .number n =>
    match n.value? with
    | some x => .ok (number x :: operands)
    | none => .error (.unevaluated n.literal)
  | .operator op =>
    match operands with
    | right :: left :: rest => .ok (call op left right :: rest)
    | [_] => .error (.oneOperand op)
    | [] => .error (.noOperand op)
  | .openParen | .closeParen => .error .parenthesis

/-- The trees of a sequence that is given from its end, in front of those read before. -/
def placeAll (tokens : List Token) (operands : List CallTree) : Except StructureError (List CallTree) :=
  tokens.foldlM (fun operands token => place token operands) operands

/-- The only tree of a list. -/
def only : List CallTree → Except StructureError CallTree
  | [] => .error .noTree
  | [tree] => .ok tree
  | trees => .error (.severalTrees trees.length)

/-- The tree that a prefix sequence writes. -/
def ofPrefix (tokens : List Token) : Except StructureError CallTree :=
  (placeAll tokens.reverse []).bind only

end Polish.CallTree
