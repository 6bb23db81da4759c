import Polish.CallTree.Basic
import Polish.Binary64.Literal
import Polish.StructureError

/-!
# Drawings of trees

A drawing has a line for the title and one for each node, in the order of the prefix sequence. A node stands behind
a branch if a sibling follows and behind a corner otherwise; the lines below it begin with a bar or with blanks to
match. It is made in two steps: the tree is told to a builder, call by call, and the outline that comes of it is
written. `drawingLines` is what is written by recursion, and `drawing_eq_join` says that the two agree. `view?` refuses
trees that are deeper than `drawingLimit`.
-/

namespace Polish

namespace CallTree

/-- What the drawing shows for a node. -/
def label : CallTree → String
  | number x => x.text
  | call op _ _ => op.callName

/-- The connector in front of a node. -/
def connector (isLast : Bool) : String := if isLast then "└─ " else "├─ "

/-- What continues a connector on the lines below it. -/
def continuation (isLast : Bool) : String := if isLast then "   " else "│  "

end CallTree

/-! ## Outlines -/

/-- An item with the items below it. -/
inductive Outline where
  | item (text : String) (below : List Outline)

namespace Outline

mutual

/-- The lines of an item behind a margin. -/
def rows (margin : String) (isLast : Bool) : Outline → List String
  | item text below =>
    (margin ++ CallTree.connector isLast ++ text) :: rowsOfAll (margin ++ CallTree.continuation isLast) below

/-- The lines of the items below one item. -/
def rowsOfAll (margin : String) : List Outline → List String
  | [] => []
  | first :: rest => rows margin rest.isEmpty first ++ rowsOfAll margin rest

end

/-- The outline as text, every line closed by a line end. The outermost item has no connector. -/
def write : Outline → String
  | item text below => String.join ((text :: rowsOfAll "" below).map (· ++ "\n"))

/-- An outline that is being built: the items that are open, each with the items that have been ended below it. -/
structure Builder where
  text : String
  below : List Outline := []
  /-- The items around the innermost one, from the inside out. -/
  around : List (String × List Outline) := []

namespace Builder

/-- Adds an item that is complete below the innermost open one. -/
def add (b : Builder) (o : Outline) : Builder := { b with below := b.below ++ [o] }

/-- Opens an item below the innermost open one. -/
def beginChild (b : Builder) (text : String) : Builder := { text, around := (b.text, b.below) :: b.around }

/-- Ends the innermost open item; the outermost one stays open. -/
def endChild (b : Builder) : Builder :=
  match b.around with
  | (text, below) :: around => { text, below := below ++ [item b.text b.below], around }
  | [] => b

/-- Opens an item and ends it. -/
def addEmptyChild (b : Builder) (text : String) : Builder := (b.beginChild text).endChild

/-- Ends all open items. -/
def build (b : Builder) : Outline :=
  b.around.foldl (fun o (text, below) => item text (below ++ [o])) (item b.text b.below)

end Builder

end Outline

namespace CallTree

open Outline (Builder)

/-! ## The outline of a tree -/

/-- Tells a tree to a builder: the right operand of a call comes first and the left operand last. -/
def tell : CallTree → Builder → Builder
  | number x, b => b.addEmptyChild x.text
  | call op left right, b => (left.tell (right.tell (b.beginChild op.callName))).endChild

/-- The drawing, every line of it closed by a line end. -/
def drawing (t : CallTree) : String := (t.tell { text := "expression" }).build.write

/-- The depth of the deepest trees that are drawn on demand. -/
def drawingLimit : Nat := 256

/-- The drawing of a tree that is not too deep. -/
def view? (t : CallTree) : Except StructureError String :=
  if drawingLimit < t.depth then .error (.tooDeep t.depth drawingLimit) else .ok t.drawing

/-! ## Drawing by recursion -/

/-- The item of a tree. -/
def outline : CallTree → Outline
  | number x => .item x.text []
  | call op left right => .item op.callName [right.outline, left.outline]

/-- The lines of a tree behind a margin. -/
def drawingLines (margin : String) (isLast : Bool) : CallTree → List String
  | number x => [margin ++ connector isLast ++ (number x).label]
  | call op left right =>
    (margin ++ connector isLast ++ (call op left right).label) ::
      (drawingLines (margin ++ continuation isLast) false right ++
        drawingLines (margin ++ continuation isLast) true left)

/-- A tree that is told to a builder becomes one item, in whatever item is open. -/
theorem tell_eq_add (t : CallTree) (b : Builder) : t.tell b = b.add t.outline := by
  induction t generalizing b with
  | number x => rfl
  | call op left right ihl ihr =>
    unfold tell
    rw [ihr, ihl]
    rfl

theorem rows_outline (margin : String) (isLast : Bool) (t : CallTree) :
    t.outline.rows margin isLast = t.drawingLines margin isLast := by
  induction t generalizing margin isLast with
  | number x => rfl
  | call op left right ihl ihr =>
    unfold drawingLines
    simp only [outline, Outline.rows, Outline.rowsOfAll, ihl, ihr, List.append_nil]
    rfl

/-- The drawing is the title and the lines of the tree, which is the last item below the title. -/
theorem drawing_eq_join (t : CallTree) :
    t.drawing = String.join (("expression" :: t.drawingLines "" true).map (· ++ "\n")) := by
  rw [drawing, tell_eq_add]
  show String.join (("expression" :: Outline.rowsOfAll "" [t.outline]).map (· ++ "\n")) = _
  rw [Outline.rowsOfAll, Outline.rowsOfAll, rows_outline, List.append_nil]
  rfl

end CallTree

end Polish
