import Mathlib.Data.List.TakeWhile
import Polish.ShuntingYard.Basic

/-!
# Steps of the shunting yard

What each kind of token does to the waiting tokens and to the output, in a form in which the waiting tokens are
already split into those that go and those that stay.
-/

namespace Polish.ShuntingYard

open SyntaxError (Cause)

/-- Two places in one list are the same, or the second is behind the first, or before it. -/
theorem same_or_behind_or_before {lefts rights before after : List Token} {first second : Token}
    (split : lefts ++ first :: rights = before ++ second :: after) :
    (lefts = before ∧ first = second ∧ rights = after) ∨
      (∃ between, before = lefts ++ first :: between ∧ rights = between ++ second :: after) ∨
        ∃ between, lefts = before ++ second :: between ∧ after = between ++ first :: rights := by
  rcases List.append_eq_append_iff.mp split with ⟨more, rfl, rest⟩ | ⟨more, rfl, rest⟩
  · rcases List.cons_eq_append_iff.mp rest with ⟨rfl, same⟩ | ⟨between, rfl, rfl⟩
    · cases same
      exact .inl ⟨(List.append_nil lefts).symm, rfl, rfl⟩
    · exact .inr (.inl ⟨between, rfl, rfl⟩)
  · rcases List.cons_eq_append_iff.mp rest with ⟨rfl, same⟩ | ⟨between, rfl, rfl⟩
    · cases same
      exact .inl ⟨List.append_nil before, rfl, rfl⟩
    · exact .inr (.inr ⟨between, rfl, rfl⟩)

theorem opens_iff {token : Token} : opens token = true ↔ token.kind = .openParen := by
  simp [opens]

theorem opens_eq_false_iff {token : Token} : opens token = false ↔ token.kind ≠ .openParen := by
  simp [opens]

theorem opens_of_operator {token : Token} {op : Operator} (operator : token.kind = .operator op) :
    opens token = false := by
  simp [opens, operator]

theorem precedence_of_operator {token : Token} {op : Operator} (operator : token.kind = .operator op) :
    token.precedence = op.precedence := by
  simp [Token.precedence, operator]

theorem precedence_of_openParen {token : Token} (opening : token.kind = .openParen) : token.precedence = 0 := by
  simp [Token.precedence, opening]

/-- An operator releases those that bind more tightly, and a power releases powers too. -/
theorem releases_iff {arriving top : Token} {op : Operator} (operator : arriving.kind = .operator op) :
    releases arriving top ↔ op.precedence < top.precedence ∨ (top.precedence = op.precedence ∧ op = .pow) := by
  simp [releases, precedence_of_operator operator, Token.isCaret, operator]

/-- Nothing releases a parenthesis. -/
theorem opens_of_releases {arriving top : Token} {op : Operator} (operator : arriving.kind = .operator op)
    (released : releases arriving top) : opens top = false := by
  cases opening : opens top with
  | false => rfl
  | true =>
    rw [releases_iff operator, precedence_of_openParen (opens_iff.mp opening)] at released
    cases op <;> simp [Operator.precedence] at released

namespace State

@[simp] theorem run_nil (s : State) : s.run [] = .ok s := rfl

theorem run_cons_of_step {s next : State} {token : Token} (step : s.step token = .ok next) (rest : List Token) :
    s.run (token :: rest) = next.run rest :=
  Fold.cons_of_ok step rest

theorem exists_step_of_run {s last : State} {token : Token} {rest : List Token}
    (run : s.run (token :: rest) = .ok last) : ∃ next, s.step token = .ok next ∧ next.run rest = .ok last :=
  Fold.exists_of_cons run

theorem exists_run_of_run_append {s last : State} {front back : List Token} (run : s.run (front ++ back) = .ok last) :
    ∃ middle, s.run front = .ok middle ∧ middle.run back = .ok last :=
  Fold.exists_of_append run

/-- A run over a last token ends with the step for it. -/
theorem exists_last_step_of_run {s last : State} {front : List Token} {token : Token}
    (run : s.run (front ++ [token]) = .ok last) :
    ∃ before, s.run front = .ok before ∧ before.step token = .ok last := by
  obtain ⟨before, start, step⟩ := exists_run_of_run_append run
  exact ⟨before, start, (Fold.singleton State.step before token).symm.trans step⟩

theorem run_append_of_run {s next : State} {front : List Token} (run : s.run front = .ok next) (back : List Token) :
    s.run (front ++ back) = next.run back :=
  Fold.append_of_ok run back

/-- A run ends in an error at the first token that is refused. -/
theorem run_eq_error_iff {s : State} {tokens : List Token} {e : SyntaxError} :
    s.run tokens = .error e ↔
      ∃ before token after last, tokens = before ++ token :: after ∧ s.run before = .ok last ∧
        last.step token = .error e :=
  Fold.eq_error_iff

theorem step_number {s : State} {token : Token} {n : Numeral} {x : Binary64} (kind : token.kind = .number n)
    (value : n.evaluate = .ok x) : s.step token = .ok (s.sendNumber token n x) := by
  simp [step, kind, value]

theorem step_openParen {s : State} {token : Token} (kind : token.kind = .openParen) :
    s.step token = .ok (s.wait token) := by
  simp [step, kind]

/-- An arriving operator lets go of the waiting operators above the first one that it does not release. -/
theorem step_operator {held waiting : List Token} {token : Token} {op : Operator}
    (kind : token.kind = .operator op) (released : ∀ top ∈ held, releases token top)
    (kept : ∀ top ∈ waiting.head?, ¬ releases token top) (output : List Token) :
    step ⟨held ++ waiting, output⟩ token = .ok ⟨token :: waiting, held.reverse ++ output⟩ := by
  have stay : waiting.takeWhile (releases token) = [] ∧ waiting.dropWhile (releases token) = waiting := by
    cases waiting with
    | nil => exact ⟨rfl, rfl⟩
    | cons top rest =>
      have keep := kept top rfl
      simp [keep]
  simp only [step, kind, sendOperator, State.released, List.takeWhile_append_of_pos released,
    List.dropWhile_append_of_pos released, stay, List.append_nil]

/-- A closing parenthesis lets go of the operators of its group, and the opening one disappears. -/
theorem step_closeParen {held : List Token} {opening token : Token} (kind : token.kind = .closeParen)
    (group : ∀ top ∈ held, opens top = false) (opened : opening.kind = .openParen) (waiting output : List Token) :
    step ⟨held ++ opening :: waiting, output⟩ token = .ok ⟨waiting, held.reverse ++ output⟩ := by
  have inside : ∀ top ∈ held, (!opens top) = true := by
    intro top member
    simp [group top member]
  have found : opens opening = true := opens_iff.mpr opened
  simp [step, kind, closeGroup?, List.dropWhile_append_of_pos inside, List.takeWhile_append_of_pos inside, found]

/-- What taking in a token does, by the kind of the token. -/
inductive Moves (s : State) (token : Token) : State → Prop where
  | number (n : Numeral) (x : Binary64) (kind : token.kind = .number n) (value : n.evaluate = .ok x) :
      Moves s token (s.sendNumber token n x)
  | openParen (kind : token.kind = .openParen) : Moves s token (s.wait token)
  /-- The innermost opening parenthesis goes, with the operators above it. -/
  | closeParen (kind : token.kind = .closeParen) (held : List Token) (opening : Token) (outer : List Token)
      (waiting : s.waiting = held ++ opening :: outer) (group : ∀ top ∈ held, opens top = false)
      (opened : opening.kind = .openParen) : Moves s token ⟨outer, held.reverse ++ s.output⟩
  /-- The released operators go, up to the first one that is not released. -/
  | operator (op : Operator) (kind : token.kind = .operator op) (held kept : List Token)
      (waiting : s.waiting = held ++ kept) (released : ∀ top ∈ held, releases token top)
      (stays : ∀ top ∈ kept.head?, ¬ releases token top) : Moves s token ⟨token :: kept, held.reverse ++ s.output⟩

theorem head_dropWhile {p : Token → Bool} {tokens : List Token} :
    ∀ token ∈ (tokens.dropWhile p).head?, p token = false := by
  intro token head
  have := List.head?_dropWhile_not p tokens
  simp_all

theorem moves_of_step {s next : State} {token : Token} (h : s.step token = .ok next) : Moves s token next := by
  rw [step] at h
  split at h
  · next n kind =>
    split at h
    · next x value =>
      cases h
      exact .number n x kind value
    · cases h
  · next kind =>
    cases h
    exact .openParen kind
  · next kind =>
    rw [closeGroup?] at h
    cases rest : s.waiting.dropWhile (!opens ·) with
    | nil =>
      rw [rest] at h
      cases h
    | cons opening outer =>
      rw [rest] at h
      cases h
      have found := @head_dropWhile (!opens ·) s.waiting opening (by simp [rest])
      refine .closeParen kind _ opening outer ?_ ?_ (opens_iff.mp (by simpa using found))
      · rw [← rest, List.takeWhile_append_dropWhile]
      · intro top member
        simpa using List.all_eq_true.mp List.all_takeWhile top member
  · next op kind =>
    cases h
    refine .operator op kind _ _ List.takeWhile_append_dropWhile.symm ?_ ?_
    · intro top member
      exact List.all_eq_true.mp List.all_takeWhile top member
    · intro top head
      simp [head_dropWhile top head]

/-- What every step keeps of the tokens taken in so far and of the state, a run keeps. -/
theorem keeps_taken_of_run {P : List Token → State → Prop}
    (keeps : ∀ before s token next, P before s → Moves s token next → P (before ++ [token]) next)
    {before tokens : List Token} {s last : State} (holds : P before s) (run : s.run tokens = .ok last) :
    P (before ++ tokens) last := by
  refine Fold.keeps_taken ?_ holds run
  intro before s token next holds step
  exact keeps before s token next holds (moves_of_step step)

/-- What every step keeps of the state, a run keeps. -/
theorem keeps_of_run {P : State → Prop} (keeps : ∀ s token next, P s → Moves s token next → P next)
    {tokens : List Token} {s last : State} (holds : P s) (run : s.run tokens = .ok last) : P last := by
  refine Fold.keeps ?_ holds run
  intro s token next holds step
  exact keeps s token next holds (moves_of_step step)

/-- How a token can be refused. -/
inductive Refuses (s : State) (token : Token) : SyntaxError → Prop where
  | number (n : Numeral) (cause : Cause) (kind : token.kind = .number n) (value : n.evaluate = .error cause) :
      Refuses s token ⟨cause, token.offset⟩
  /-- No opening parenthesis waits for a closing one. -/
  | closeParen (kind : token.kind = .closeParen) (none : s.waiting.filter opens = []) :
      Refuses s token ⟨.unmatchedClose, token.offset⟩

theorem step_eq_error_iff {s : State} {token : Token} {e : SyntaxError} :
    s.step token = .error e ↔ Refuses s token e := by
  constructor
  · intro h
    rw [step] at h
    split at h
    · next n kind =>
      split at h
      · cases h
      · next cause value =>
        cases h
        exact .number n cause kind value
    · cases h
    · next kind =>
      rw [closeGroup?] at h
      cases rest : s.waiting.dropWhile (!opens ·) with
      | nil =>
        rw [rest] at h
        cases h
        exact .closeParen kind (by simpa [List.filter_eq_nil_iff] using List.dropWhile_eq_nil_iff.mp rest)
      | cons opening outer =>
        rw [rest] at h
        cases h
    · cases h
  · intro refuses
    cases refuses with
    | number n cause kind value => simp [step, kind, value]
    | closeParen kind none =>
      have rest : s.waiting.dropWhile (!opens ·) = [] := by
        rw [List.dropWhile_eq_nil_iff]
        simpa [List.filter_eq_nil_iff] using none
      simp [step, kind, closeGroup?, rest]

/-- The parentheses that wait after a token, by those that waited before it. -/
def openAfter (token : Token) (opened : List Token) : List Token :=
  match token.kind with
  | .openParen => token :: opened
  | .closeParen => opened.tail
  | .number _ | .operator _ => opened

theorem filter_opens_of_operators {held : List Token} (operators : ∀ top ∈ held, opens top = false)
    (kept : List Token) : (held ++ kept).filter opens = kept.filter opens := by
  have none : held.filter opens = [] := by simpa [List.filter_eq_nil_iff] using operators
  rw [List.filter_append, none, List.nil_append]

theorem Moves.filter_opens {s next : State} {token : Token} (moves : Moves s token next) :
    next.waiting.filter opens = openAfter token (s.waiting.filter opens) := by
  cases moves with
  | number n x kind value => simp [sendNumber, openAfter, kind]
  | openParen kind => simp [wait, openAfter, kind, opens]
  | closeParen kind held opening outer waiting group opened =>
    rw [waiting, filter_opens_of_operators group, List.filter_cons_of_pos (opens_iff.mpr opened)]
    simp [openAfter, kind]
  | operator op kind held kept waiting released stays =>
    have operators : ∀ top ∈ held, opens top = false := fun top member => opens_of_releases kind (released top member)
    rw [waiting, filter_opens_of_operators operators]
    simp [openAfter, kind, opens_of_operator kind]

/-- Only operators and opening parentheses wait. -/
def Stacked (s : State) : Prop := ∀ top ∈ s.waiting, opens top = false → ∃ op, top.kind = .operator op

theorem stacked_start : Stacked ⟨[], []⟩ := by
  simp [Stacked]

theorem Moves.stacked {s next : State} {token : Token} (moves : Moves s token next) (stacked : s.Stacked) :
    next.Stacked := by
  intro top member plain
  cases moves with
  | number n x kind value => exact stacked top member plain
  | openParen kind =>
    rcases List.mem_cons.mp member with rfl | below
    · exact absurd kind (opens_eq_false_iff.mp plain)
    · exact stacked top below plain
  | closeParen kind held opening outer waiting group opened =>
    refine stacked top ?_ plain
    rw [waiting]
    exact List.mem_append_right held (List.mem_cons_of_mem opening member)
  | operator op kind held kept waiting released stays =>
    rcases List.mem_cons.mp member with rfl | below
    · exact ⟨op, kind⟩
    · refine stacked top ?_ plain
      rw [waiting]
      exact List.mem_append_right held below

/-- At the end the waiting operators leave, if there are only operators. -/
theorem finish_of_operators {waiting output : List Token} (operators : ∀ top ∈ waiting, opens top = false) :
    finish ⟨waiting, output⟩ = .ok (waiting.reverse ++ output) := by
  have none : waiting.find? opens = none := by
    rw [List.find?_eq_none]
    intro top member
    simp [operators top member]
  simp [finish, none]

/-- An end without error: only operators wait, and they leave. -/
theorem finish_eq_ok_iff {s : State} {reordered : List Token} :
    s.finish = .ok reordered ↔ (∀ top ∈ s.waiting, opens top = false) ∧ reordered = s.waiting.reverse ++ s.output := by
  constructor
  · intro h
    rw [finish] at h
    split at h
    · cases h
    · next none =>
      cases h
      refine ⟨?_, rfl⟩
      intro top member
      simpa using List.find?_eq_none.mp none top member
  · rintro ⟨operators, rfl⟩
    exact finish_of_operators operators

/-- An end with an error: the last opening parenthesis that waits was not closed. -/
theorem finish_eq_error_iff {s : State} {e : SyntaxError} :
    s.finish = .error e ↔
      ∃ token, (s.waiting.filter opens).head? = some token ∧ e = ⟨.unmatchedOpen, token.offset⟩ := by
  rw [finish, List.head?_filter]
  cases s.waiting.find? opens with
  | none => simp
  | some token => simp [eq_comm]

end State

/-- A reordering that succeeds is a run that ends with operators only. -/
theorem exists_run_of_toPrefix {tokens reordered : List Token} (h : toPrefix tokens = .ok reordered) :
    ∃ last, State.run ⟨[], []⟩ tokens = .ok last ∧ (∀ top ∈ last.waiting, opens top = false) ∧
      reordered = last.waiting.reverse ++ last.output := by
  rw [toPrefix] at h
  cases run : State.run ⟨[], []⟩ tokens with
  | error e =>
    rw [run] at h
    cases h
  | ok last =>
    rw [run] at h
    exact ⟨last, rfl, State.finish_eq_ok_iff.mp h⟩

/-- A reordering that fails is a run that fails, or one that ends with an open parenthesis. -/
theorem toPrefix_eq_error_iff {tokens : List Token} {e : SyntaxError} :
    toPrefix tokens = .error e ↔
      State.run ⟨[], []⟩ tokens = .error e ∨ ∃ last, State.run ⟨[], []⟩ tokens = .ok last ∧ last.finish = .error e := by
  rw [toPrefix]
  cases State.run ⟨[], []⟩ tokens with
  | error e' => simp [Except.bind]
  | ok last => simp [Except.bind]

end Polish.ShuntingYard
