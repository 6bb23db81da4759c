import Polish.Operator

/-!
# Errors in prefix sequences

Why a prefix sequence is no call tree, or a call tree is not drawn. An error is told as a chain of texts, each
explained by the next.
-/

namespace Polish

/-- Why a prefix sequence cannot be read as one tree, or why a tree cannot be drawn. -/
inductive StructureError where
  /-- A number has no value yet. -/
  | unevaluated (literal : String)
  /-- A parenthesis stands in the sequence. -/
  | parenthesis
  /-- No operand is left for an operator. -/
  | noOperand (op : Operator)
  /-- Only the right operand of an operator is left. -/
  | oneOperand (op : Operator)
  /-- The sequence is empty. -/
  | noTree
  /-- The sequence holds several trees. -/
  | severalTrees (count : Nat)
  /-- The tree has too many levels to be drawn. -/
  | tooDeep (depth limit : Nat)
deriving DecidableEq

namespace StructureError

/-- The cause that both kinds of missing operand have. -/
def endedEarly : String := "Prefix sequence ended before the call tree was complete"

/-- The error as a text and its causes. -/
def chain : StructureError → List String
  | unevaluated literal => ["Number '" ++ literal ++ "' has not been converted"]
  | parenthesis => ["There should not be any parenthesis present in the input"]
  | noOperand op => ["Expected a second operand for [" ++ op.name ++ "]", endedEarly]
  | oneOperand op => ["Expected a first operand for [" ++ op.name ++ "]", endedEarly]
  | noTree => ["No call tree root found"]
  | severalTrees count => ["Found " ++ toString count ++ " call trees where the prefix sequence should hold one"]
  | tooDeep depth limit =>
    ["Call tree is " ++ toString depth ++ " levels deep, too deep to draw (at most " ++ toString limit ++ ")"]

/-- The chain on one line. -/
def summary (e : StructureError) : String := ": ".intercalate e.chain

end StructureError

end Polish
