import Polish.Operator
import Polish.Binary64.Basic

/-!
# Call trees

A call tree is a number, or the call of a binary operator on two trees. `height` is the number of call levels by
recursion; `depth` measures the same with a list of the subtrees still to visit, so that it needs no deep stack.
-/

namespace Polish

/-- An expression as a tree of binary operator calls. -/
inductive CallTree where
  | number (value : Binary64)
  | call (op : Operator) (left right : CallTree)
deriving DecidableEq

namespace CallTree

/-- The number of numbers and calls in the tree. -/
def size : CallTree → Nat
  | number _ => 1
  | call _ left right => left.size + right.size + 1

/-- The number of calls on the longest way down to a number. -/
def height : CallTree → Nat
  | number _ => 0
  | call _ left right => max left.height right.height + 1

/-- The number of nodes of all trees that wait. -/
def sizeOfAll : (waiting : List (CallTree × Nat)) → Nat
  | [] => 0
  | (tree, _) :: rest => tree.size + sizeOfAll rest

/-- The greatest level among all nodes of the trees that wait, each with its own level, and a level seen before. -/
def deepest (seen : Nat) : (waiting : List (CallTree × Nat)) → Nat
  | [] => seen
  | (number _, level) :: rest => deepest (max seen level) rest
  | (call _ left right, level) :: rest =>
    deepest (max seen level) ((right, level + 1) :: (left, level + 1) :: rest)
termination_by waiting => sizeOfAll waiting
decreasing_by
  all_goals
    simp only [sizeOfAll, size]
    omega

/-- The number of call levels from the root down to the deepest number. -/
def depth (t : CallTree) : Nat := deepest 0 [(t, 0)]

theorem deepest_cons (seen : Nat) (t : CallTree) (level : Nat) (rest : List (CallTree × Nat)) :
    deepest seen ((t, level) :: rest) = deepest (max seen (level + t.height)) rest := by
  induction t generalizing seen level rest with
  | number _ => rw [deepest]; rfl
  | call _ left right ihl ihr =>
    rw [deepest, ihr, ihl]
    congr 1
    simp only [height]
    omega

theorem depth_eq_height (t : CallTree) : t.depth = t.height := by
  rw [depth, deepest_cons, deepest]
  omega

/-- Equality of trees, their numbers compared as numbers. -/
def numericEq : CallTree → CallTree → Bool
  | number x, number y => x.numericEq y
  | call op left right, call op' left' right' => op == op' && left.numericEq left' && right.numericEq right'
  | _, _ => false

end CallTree

end Polish
