/-!
# Binary operators

The six binary operators, the characters that write them, their names and how tightly they bind.
`ofSymbol?_symbol` and `symbol_of_ofSymbol?` say that a symbol and its operator determine each other.
-/

namespace Polish

/-- A binary arithmetic operator. -/
inductive Operator where
  | add
  | sub
  | mul
  | div
  | mod
  | pow
deriving DecidableEq

namespace Operator

/-- The character that writes the operator in an expression. -/
def symbol : Operator → Char
  | add => '+'
  | sub => '-'
  | mul => '*'
  | div => '/'
  | mod => '%'
  | pow => '^'

/-- The operator that a character writes, if any. -/
def ofSymbol? : Char → Option Operator
  | '+' => some add
  | '-' => some sub
  | '*' => some mul
  | '/' => some div
  | '%' => some mod
  | '^' => some pow
  | _ => none

/-- The short name used in token traces. -/
def name : Operator → String
  | add => "add"
  | sub => "sub"
  | mul => "mul"
  | div => "div"
  | mod => "mod"
  | pow => "pow"

/-- The name in capitals, as calls and drawings show it. -/
def callName (op : Operator) : String := op.name.toUpper

/-- How tightly the operator binds: a power before a product, a product before a sum. -/
def precedence : Operator → Nat
  | add | sub => 1
  | mul | div | mod => 2
  | pow => 3

theorem eq_of_name_eq {op other : Operator} (same : op.name = other.name) : op = other := by
  cases op <;> cases other <;> first | rfl | simp [name] at same

@[simp] theorem ofSymbol?_symbol (op : Operator) : ofSymbol? op.symbol = some op := by
  cases op <;> rfl

theorem symbol_of_ofSymbol? {c : Char} {op : Operator} (h : ofSymbol? c = some op) : op.symbol = c := by
  unfold ofSymbol? at h
  split at h <;> simp_all <;> subst h <;> rfl

end Operator

end Polish
