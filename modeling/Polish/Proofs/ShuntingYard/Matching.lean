import Polish.Proofs.ShuntingYard.Steps

/-!
# Matching parentheses

`Matched` says that every parenthesis among some tokens has its partner among them too. It knows nothing of the
shunting yard. `OpenGroups` lists the opening parentheses that still have none, and these are the parentheses that wait
in the yard (`OpenGroups.run`). An unmatched parenthesis can be told by what stands on one side of it only:
`AwaitsClose` is about the tokens before a closing one, and `Closed` about those after an opening one.
-/

namespace Polish.ShuntingYard

/-- Whether the token is a closing parenthesis. -/
def closes (t : Token) : Bool := t.kind = .closeParen

/-- Tokens whose parentheses all have partners among them. -/
inductive Matched : List Token → Prop where
  | nil : Matched []
  | plain {token : Token} {rest : List Token} (notOpen : token.kind ≠ .openParen) (notClose : token.kind ≠ .closeParen)
      (later : Matched rest) : Matched (token :: rest)
  | group {opening closing : Token} {inner rest : List Token} (opened : opening.kind = .openParen)
      (inside : Matched inner) (closed : closing.kind = .closeParen) (later : Matched rest) :
      Matched (opening :: (inner ++ closing :: rest))

/-- A closing parenthesis right behind the tokens has its partner among them. -/
def AwaitsClose (before : List Token) : Prop :=
  ∃ front opening inner, before = front ++ opening :: inner ∧ opening.kind = .openParen ∧ Matched inner

/-- An opening parenthesis right before the tokens has its partner among them. -/
def Closed (after : List Token) : Prop :=
  ∃ inner closing rest, after = inner ++ closing :: rest ∧ closing.kind = .closeParen ∧ Matched inner

section

variable {tokens front back before after opened : List Token} {token : Token}

theorem Closed.append (closed : Closed front) (back : List Token) : Closed (front ++ back) := by
  obtain ⟨inner, closing, rest, rfl, kind, matched⟩ := closed
  exact ⟨inner, closing, rest ++ back, by simp, kind, matched⟩

namespace Matched

theorem append (first : Matched front) (second : Matched back) : Matched (front ++ back) := by
  induction first with
  | nil => exact second
  | plain notOpen notClose later ih => exact .plain notOpen notClose ih
  | @group opening closing inner rest opened inside closed later _ ih =>
    have longer := Matched.group opened inside closed ih
    simpa using longer

/-- Partners come in pairs. -/
theorem count_eq (matched : Matched tokens) : tokens.countP closes = tokens.countP opens := by
  induction matched with
  | nil => rfl
  | plain notOpen notClose later ih => simpa [opens, closes, notOpen, notClose] using ih
  | group opened inside closed later ihInside ihLater =>
    simp [opens, closes, opened, closed, ihInside, ihLater]
    omega

/-- Of the parentheses before a closing one more open than close. -/
theorem count_lt (matched : Matched tokens) (split : tokens = before ++ token :: after)
    (kind : token.kind = .closeParen) : before.countP closes < before.countP opens := by
  induction matched generalizing before after with
  | nil => simp at split
  | plain notOpen notClose later ih =>
    rcases List.cons_eq_append_iff.mp split with ⟨rfl, same⟩ | ⟨front, rfl, more⟩
    · cases same
      exact absurd kind notClose
    · simpa [opens, closes, notOpen, notClose] using ih more
  | @group opening closing inner rest opened inside closed later ihInside ihLater =>
    rcases List.cons_eq_append_iff.mp split with ⟨rfl, same⟩ | ⟨front, rfl, more⟩
    · cases same
      simp [opened] at kind
    · have pairs := inside.count_eq
      rcases same_or_behind_or_before more with ⟨rfl, -, -⟩ | ⟨between, rfl, behind⟩ | ⟨between, rfl, -⟩
      · simp [opens, closes, opened, pairs]
      · have less := ihLater behind
        simp [opens, closes, opened, closed, pairs]
        omega
      · have less := ihInside rfl
        simp [opens, closes, opened]
        omega

/-- The opening parentheses among matched tokens have their partners behind them. -/
theorem closed_of_open (matched : Matched tokens) (split : tokens = before ++ token :: after)
    (kind : token.kind = .openParen) : Closed after := by
  induction matched generalizing before after with
  | nil => simp at split
  | plain notOpen notClose later ih =>
    rcases List.cons_eq_append_iff.mp split with ⟨rfl, same⟩ | ⟨front, rfl, more⟩
    · cases same
      exact absurd kind notOpen
    · exact ih more
  | @group opening closing inner rest opened inside closed later ihInside ihLater =>
    rcases List.cons_eq_append_iff.mp split with ⟨rfl, same⟩ | ⟨front, rfl, more⟩
    · cases same
      exact ⟨inner, closing, rest, rfl, closed, inside⟩
    · rcases same_or_behind_or_before more with ⟨rfl, rfl, -⟩ | ⟨between, rfl, behind⟩ | ⟨between, rfl, rfl⟩
      · simp [closed] at kind
      · exact ihLater behind
      · exact (ihInside rfl).append (closing :: rest)

/-- Behind an opening parenthesis and matched tokens it has no partner. -/
theorem not_closed (matched : Matched tokens) : ¬ Closed tokens := by
  rintro ⟨inner, closing, rest, split, kind, inside⟩
  have less := matched.count_lt split kind
  rw [inside.count_eq] at less
  exact Nat.lt_irrefl _ less

theorem not_awaitsClose (matched : Matched tokens) : ¬ AwaitsClose tokens := by
  rintro ⟨front, opening, inner, split, kind, inside⟩
  exact inside.not_closed (matched.closed_of_open split kind)

end Matched

/-! ## Open groups -/

/-- The tokens with the opening parentheses among them that have no partner, the last one first; all closing ones
have partners. -/
inductive OpenGroups : List Token → (opened : List Token) → Prop where
  | outside {tokens : List Token} (matched : Matched tokens) : OpenGroups tokens []
  | group {front opened inner : List Token} {opening : Token} (outer : OpenGroups front opened)
      (kind : opening.kind = .openParen) (inside : Matched inner) :
      OpenGroups (front ++ opening :: inner) (opening :: opened)

namespace OpenGroups

theorem append (groups : OpenGroups front opened) (matched : Matched back) : OpenGroups (front ++ back) opened := by
  cases groups with
  | outside outside => exact .outside (outside.append matched)
  | group outer kind inside =>
    rw [List.append_assoc]
    exact .group outer kind (inside.append matched)

/-- A closing parenthesis closes the last open group. -/
theorem close {opening : Token} (groups : OpenGroups front (opening :: opened)) (kind : token.kind = .closeParen) :
    OpenGroups (front ++ [token]) opened := by
  cases groups with
  | group outer opened inside =>
    rw [List.append_assoc]
    exact outer.append (.group opened inside kind .nil)

theorem awaitsClose_iff (groups : OpenGroups tokens opened) : AwaitsClose tokens ↔ opened ≠ [] := by
  cases groups with
  | outside matched => simpa using matched.not_awaitsClose
  | group outer kind inside => simpa using ⟨_, _, _, rfl, kind, inside⟩

/-- The waiting parentheses are those without partners. -/
theorem step {s next : State} (groups : OpenGroups tokens (s.waiting.filter opens)) (moves : State.Moves s token next) :
    OpenGroups (tokens ++ [token]) (next.waiting.filter opens) := by
  rw [moves.filter_opens]
  cases moves with
  | number n x kind value =>
    simp only [State.openAfter, kind]
    exact groups.append (.plain (by simp [kind]) (by simp [kind]) .nil)
  | openParen kind =>
    simp only [State.openAfter, kind]
    exact .group groups kind .nil
  | closeParen kind held opening outer waiting group opened =>
    rw [waiting, State.filter_opens_of_operators group, List.filter_cons_of_pos (opens_iff.mpr opened)] at groups ⊢
    simp only [State.openAfter, kind, List.tail_cons]
    exact groups.close kind
  | operator op kind held kept waiting released stays =>
    simp only [State.openAfter, kind]
    exact groups.append (.plain (by simp [kind]) (by simp [kind]) .nil)

theorem run {s last : State} (groups : OpenGroups before (s.waiting.filter opens)) (run : s.run tokens = .ok last) :
    OpenGroups (before ++ tokens) (last.waiting.filter opens) := by
  refine State.keeps_taken_of_run (P := fun before s => OpenGroups before (s.waiting.filter opens)) ?_ groups run
  intro before s token next groups moves
  exact groups.step moves

/-- After a run from the start the waiting parentheses are those without partners. -/
theorem of_run {last : State} (run : State.run ⟨[], []⟩ tokens = .ok last) :
    OpenGroups tokens (last.waiting.filter opens) := by
  have start : OpenGroups [] (List.filter opens []) := .outside .nil
  exact start.run (s := ⟨[], []⟩) run

end OpenGroups

end

end Polish.ShuntingYard
