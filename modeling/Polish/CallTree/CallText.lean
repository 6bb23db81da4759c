import Polish.CallTree.Basic
import Polish.Binary64.Literal

/-!
# Call text

A tree written as nested calls, one operand a line and the right operand first. `nested` is the text by
recursion. `callText` writes the same with a list of the pieces still to write, so that it needs no deep
stack, and `callText_eq_nested` says that the two agree.
-/

namespace Polish.CallTree

/-- The indentation of a level: two blanks for each. -/
def indent (level : Nat) : String := .ofList (List.replicate (2 * level) ' ')

/-- The text of a tree at a level, by recursion. -/
def nested (level : Nat) : CallTree → String
  | number x => indent level ++ x.text
  | call op left right =>
    indent level ++ op.callName ++ "(\n" ++ nested (level + 1) right ++ ",\n" ++ nested (level + 1) left ++
      "\n" ++ indent level ++ ")"

/-- A piece of call text that waits to be written. -/
inductive Piece where
  | tree (t : CallTree) (level : Nat)
  | separator
  | close (level : Nat)

namespace Piece

/-- The text of a piece. -/
def text : Piece → String
  | tree t level => t.nested level
  | separator => ",\n"
  | close level => "\n" ++ indent level ++ ")"

/-- A bound on the steps that a piece takes: a call is one step, two subtrees, a separator and a close. -/
def work : Piece → Nat
  | tree t _ => 4 * t.size
  | separator | close _ => 1

end Piece

/-- A bound on the steps that all pieces take. -/
def workOfAll : (pieces : List Piece) → Nat
  | [] => 0
  | piece :: rest => piece.work + workOfAll rest

/-- Writes the pieces that wait, after the text written so far. -/
def writePieces (written : String) : List Piece → String
  | [] => written
  | .tree (number x) level :: rest => writePieces (written ++ indent level ++ x.text) rest
  | .tree (call op left right) level :: rest =>
    writePieces (written ++ indent level ++ op.callName ++ "(\n")
      (.tree right (level + 1) :: .separator :: .tree left (level + 1) :: .close level :: rest)
  | .separator :: rest => writePieces (written ++ ",\n") rest
  | .close level :: rest => writePieces (written ++ "\n" ++ indent level ++ ")") rest
termination_by pieces => workOfAll pieces
decreasing_by
  all_goals
    simp only [workOfAll, Piece.work, size]
    omega

/-- The tree as nested calls. -/
def callText (t : CallTree) : String := writePieces "" [.tree t 0]

/-- Whatever is written, a tree that waits first is written as its recursive text. -/
theorem writePieces_tree (written : String) (t : CallTree) (level : Nat) (rest : List Piece) :
    writePieces written (.tree t level :: rest) = writePieces (written ++ t.nested level) rest := by
  induction t generalizing written level rest with
  | number x => rw [writePieces, nested, String.append_assoc]
  | call op left right ihl ihr =>
    rw [writePieces, ihr, writePieces, ihl, writePieces, nested]
    simp only [String.append_assoc]

theorem callText_eq_nested (t : CallTree) : t.callText = t.nested 0 := by
  rw [callText, writePieces_tree, writePieces, String.empty_append]

end Polish.CallTree
