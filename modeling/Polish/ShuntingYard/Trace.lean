import Polish.ShuntingYard.Basic
import Polish.Log

/-!
# The log of reordering tokens

One record for each operator that another one releases and for each parenthesis that is matched, and one with
the number of tokens when all have been reordered.
-/

namespace Polish.ShuntingYard

open Log (Record)

/-- The records about taking in one token. -/
def State.stepRecords (s : State) (token : Token) : List Record :=
  match token.kind with
  | .operator _ =>
    (s.released token).map fun top => ⟨.trace, "popped " ++ top.trace ++ " ahead of " ++ token.trace⟩
  | .closeParen =>
    if s.waiting.any opens then [⟨.trace, "matched ')' at offset " ++ toString token.offset⟩] else []
  | .number _ | .openParen => []

/-- The records about the tokens that are taken in, from a state on. -/
def State.records (s : State) : List Token → List Record
  | [] => []
  | token :: rest =>
    match s.step token with
    | .ok next => s.stepRecords token ++ next.records rest
    | .error _ => []

/-- The records about reordering tokens. -/
def records (tokens : List Token) : List Record :=
  State.records ⟨[], []⟩ tokens ++
    match toPrefix tokens with
    | .ok reordered => [⟨.debug, "converted into " ++ toString reordered.length ++ " prefix tokens"⟩]
    | .error _ => []

end Polish.ShuntingYard
