import Polish.Lexer.Basic
import Polish.Log
import Polish.Text.Quoted

/-!
# The log of reading tokens

One record for each character that starts or extends a token, and one with the number of tokens when the whole
expression has been read.
-/

namespace Polish.Lexer

open Log (Record)

/-- The record about the last token of a state, if the action that led there leaves one. -/
def Action.record? (a : Action) (after : State) : Option Record :=
  match a, after.tokens with
  | .start _, token :: _ => some ⟨.trace, "lexed " ++ token.trace ++ " at offset " ++ toString token.offset⟩
  | .extend, ⟨_, .number n, _⟩ :: _ => some ⟨.trace, "extended number to " ++ Text.quoted n.literal⟩
  | _, _ => none

/-- The records about the characters that are accepted, from a state on. -/
def State.records (s : State) : List Char → List Record
  | [] => []
  | c :: rest =>
    match action s.last? c with
    | .ok a => (a.record? (s.apply c a)).toList ++ (s.apply c a).records rest
    | .error _ => []

/-- The records about reading an expression. -/
def records (expression : String) : List Record :=
  State.records ⟨0, []⟩ expression.toList ++
    match tokenize expression with
    | .ok tokens =>
      [⟨.debug, "tokenized " ++ Text.quoted expression ++ " into " ++ toString tokens.length ++ " tokens"⟩]
    | .error _ => []

end Polish.Lexer
