import Polish.CallTree.CallText
import Polish.CallTree.Drawing
import Polish.CallTree.OfPrefix
import Polish.Lexer.Trace
import Polish.ShuntingYard.Trace

/-!
# Expressions

What becomes of an expression in text: its tokens in prefix order, its call tree, its call text and its drawing, with
the first error where there is none, and the log of the way there.
-/

namespace Polish

/-- Why an expression has no call tree or no drawing. -/
inductive Failure where
  | syntaxError (e : SyntaxError)
  | structureError (e : StructureError)
deriving DecidableEq

namespace Expression

/-- The tokens of an expression in prefix order. -/
def convert (expression : String) : Except SyntaxError (List Token) := (Lexer.tokenize expression).bind toPrefix

/-- The call tree of an expression. -/
def tree (expression : String) : Except Failure CallTree :=
  match convert expression with
  | .ok tokens => (CallTree.ofPrefix tokens).mapError .structureError
  | .error e => .error (.syntaxError e)

/-- The call text of an expression. -/
def render (expression : String) : Except Failure String := (tree expression).map CallTree.callText

/-- The drawing of an expression's tree, unless it is too deep. -/
def view (expression : String) : Except Failure String :=
  (tree expression).bind fun t => t.view?.mapError .structureError

/-- The records about converting an expression. -/
def records (expression : String) : List Log.Record :=
  Lexer.records expression ++
    match Lexer.tokenize expression with
    | .ok tokens => ShuntingYard.records tokens
    | .error _ => []

end Expression

/-- The call text of a prefix sequence. -/
def CallTree.renderPrefix (tokens : List Token) : Except StructureError String := (ofPrefix tokens).map callText

end Polish
