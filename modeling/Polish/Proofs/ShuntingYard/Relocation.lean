import Polish.ShuntingYard.Basic

/-!
# Tokens at other offsets

No step of the yard looks at an offset. So if all tokens are put at other offsets, the same tokens come out at these
offsets, or the same error is reported at the new offset of its token.
-/

namespace Polish

variable (f : Nat → Nat)

/-- The token at another offset. -/
def Token.relocate (t : Token) : Token := { t with offset := f t.offset }

/-- The error at another offset. -/
def SyntaxError.relocate (e : SyntaxError) : SyntaxError := { e with offset := f e.offset }

/-- What is found out, at other offsets. -/
def relocateVerdict {α : Type} (move : α → α) : Except SyntaxError α → Except SyntaxError α
  | .ok x => .ok (move x)
  | .error e => .error (e.relocate f)

theorem relocateVerdict_bind {α β : Type} {move : α → α} {move' : β → β} {next next' : α → Except SyntaxError β}
    (later : ∀ a, next' (move a) = relocateVerdict f move' (next a)) (x : Except SyntaxError α) :
    (relocateVerdict f move x).bind next' = relocateVerdict f move' (x.bind next) := by
  cases x with
  | ok a => exact later a
  | error e => rfl

namespace ShuntingYard

namespace State

/-- The state with all its tokens at other offsets. -/
def relocate (s : State) : State := ⟨s.waiting.map (Token.relocate f), s.output.map (Token.relocate f)⟩

variable (s : State) (token : Token) (tokens : List Token)

theorem sendOperator_relocate : (s.relocate f).sendOperator (token.relocate f) = (s.sendOperator token).relocate f := by
  have tests : releases (token.relocate f) ∘ Token.relocate f = releases token := rfl
  simp only [sendOperator, released, relocate, List.takeWhile_map, List.dropWhile_map, tests, List.map_cons,
    List.map_append, List.map_reverse]

theorem closeGroup?_relocate : (s.relocate f).closeGroup? = s.closeGroup?.map (relocate f) := by
  have tests : (!opens ·) ∘ Token.relocate f = (!opens ·) := rfl
  unfold closeGroup?
  simp only [relocate, List.takeWhile_map, List.dropWhile_map, tests]
  cases s.waiting.dropWhile (!opens ·) with
  | nil => rfl
  | cons opening outer => simp [relocate]

theorem step_relocate :
    (s.relocate f).step (token.relocate f) = relocateVerdict f (relocate f) (s.step token) := by
  obtain ⟨offset, kind, text⟩ := token
  cases kind with
  | number n =>
    simp only [step, Token.relocate]
    cases n.evaluate with
    | ok x => rfl
    | error cause => rfl
  | openParen => rfl
  | closeParen =>
    simp only [step, Token.relocate, closeGroup?_relocate]
    cases s.closeGroup? with
    | none => rfl
    | some next => rfl
  | operator op => exact congrArg Except.ok (s.sendOperator_relocate f ⟨offset, .operator op, text⟩)

theorem run_relocate :
    (s.relocate f).run (tokens.map (Token.relocate f)) = relocateVerdict f (relocate f) (s.run tokens) := by
  induction tokens generalizing s with
  | nil => rfl
  | cons token rest ih =>
    rw [List.map_cons, run, run, Fold.cons, Fold.cons, step_relocate]
    exact relocateVerdict_bind f ih (s.step token)

theorem finish_relocate :
    (s.relocate f).finish = relocateVerdict f (List.map (Token.relocate f)) s.finish := by
  have tests : opens ∘ Token.relocate f = opens := rfl
  rw [finish, finish, relocate, List.find?_map, tests]
  cases s.waiting.find? opens with
  | none => simp [relocateVerdict]
  | some token => rfl

end State

/-- Tokens at other offsets are reordered alike. -/
theorem toPrefix_relocate (tokens : List Token) :
    toPrefix (tokens.map (Token.relocate f)) =
      relocateVerdict f (List.map (Token.relocate f)) (toPrefix tokens) := by
  have run := State.run_relocate f ⟨[], []⟩ tokens
  rw [toPrefix, toPrefix, ← relocateVerdict_bind f (State.finish_relocate f), ← run]
  rfl

end ShuntingYard

end Polish
