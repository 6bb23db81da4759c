import Polish.Text.Blank
import Polish.Text.Width

/-!
# Diagnostics

A diagnostic is a message about a byte offset of an expression. It is shown on one line, or as a caret under
the place it is about.
-/

namespace Polish

/-- A message positioned at a byte offset of an expression. -/
structure Diagnostic where
  message : String
  offset : Nat
deriving DecidableEq

namespace Diagnostic

/-- The diagnostic on one line. -/
def summary (d : Diagnostic) : String := d.message ++ " at offset " ++ toString d.offset

/-- The number of blanks before the caret once leading blanks have been trimmed from the expression. -/
def column (d : Diagnostic) (expression : String) : Nat :=
  d.offset - Text.width (expression.toList.takeWhile Text.isBlank)

/-- The expression without leading blanks, a caret under the offset, and the message. The caret's column counts
bytes. -/
def display (d : Diagnostic) (expression : String) : String :=
  String.ofList (expression.toList.dropWhile Text.isBlank ++ '\n' :: List.replicate (d.column expression) ' ') ++
    "^\n" ++ d.message

end Diagnostic

end Polish
