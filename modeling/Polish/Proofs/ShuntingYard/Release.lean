import Polish.Proofs.ShuntingYard.Waiting

/-!
# When operators leave

A waiting operator leaves with the first operator of its own group that it gives way to, else with the parenthesis that
closes its group, else at the end of the tokens, and operators that leave together do so in the reverse of the order in
which they came (`ReleaseRule`). Two places are in one group if the parentheses between them match, which is to say that
the same parenthesis is the innermost open one at both (`matched_iff_innermost`).
-/

namespace Polish.ShuntingYard

/-- The number of tokens before the innermost parenthesis that is open behind the tokens, if one is. -/
def Innermost (tokens : List Token) : (place? : Option Nat) → Prop
  | none => Matched tokens
  | some place =>
    ∃ front opening inner, tokens = front ++ opening :: inner ∧ front.length = place ∧ opening.kind = .openParen ∧
      Matched inner

/-- How operators leave a yard that has taken in some tokens. -/
structure ReleaseRule (before : List Token) (s : State) : Prop where
  /-- The opening parentheses without partners wait, and those operators of open groups that have not given way. -/
  waiting : LastFirst Waits before s.waiting
  /-- An operator sends out exactly those for which it is the first one of their group that they give way to. -/
  operator : ∀ token arriving, token.kind = .operator arriving →
    ∃ row kept, s.waiting = row ++ kept ∧ s.step token = .ok ⟨token :: kept, row.reverse ++ s.output⟩ ∧
      LastFirst (ReleasedBy arriving) before row
  /-- A closing parenthesis sends out what is left in its group. Without a partner it stops the run, and all operators
  that wait then are of its group, which no parenthesis opened. -/
  closeParen : ∀ token, token.kind = .closeParen →
    (∃ row opening outer, s.waiting = row ++ opening :: outer ∧ opening.kind = .openParen ∧
      s.step token = .ok ⟨outer, row.reverse ++ s.output⟩ ∧ LastFirst LeftInGroup before row) ∨
    (¬ AwaitsClose before ∧ s.step token = .error ⟨.unmatchedClose, token.offset⟩ ∧
      LastFirst LeftInGroup before s.waiting)
  /-- No other token moves an operator. -/
  other : ∀ token next, token.kind ≠ .closeParen → token.isOperator = false → s.step token = .ok next →
    next.waiting.filter Token.isOperator = s.waiting.filter Token.isOperator ∧
      next.output.filter Token.isOperator = s.output.filter Token.isOperator
  /-- The end sends out all that are left, unless a parenthesis is open. -/
  finish :
    (AllClosed before ∧ s.finish = .ok (s.waiting.reverse ++ s.output) ∧ LastFirst LeftInGroup before s.waiting) ∨
    (¬ AllClosed before ∧ ∃ e, s.finish = .error e)
  /-- What is between two places of one group matches: the same parenthesis is the innermost open one at both. -/
  sameGroup : ∀ front token between, before = front ++ token :: between → token.kind ≠ .openParen →
    token.kind ≠ .closeParen → (Matched between ↔ ∃ place?, Innermost front place? ∧ Innermost before place?)

section

variable {before front between : List Token} {s : State} {token : Token} {arriving : Operator}

theorem OpenGroups.exists_innermost {tokens opened : List Token} (groups : OpenGroups tokens opened) :
    ∃ place?, Innermost tokens place? := by
  cases groups with
  | outside matched => exact ⟨none, matched⟩
  | group outer kind inside => exact ⟨some _, _, _, _, rfl, rfl, kind, inside⟩

theorem Innermost.append {tokens back : List Token} {place? : Option Nat} (innermost : Innermost tokens place?)
    (matched : Matched back) : Innermost (tokens ++ back) place? := by
  cases place? with
  | none => exact Matched.append innermost matched
  | some place =>
    obtain ⟨front, opening, inner, rfl, length, kind, inside⟩ := innermost
    exact ⟨front, opening, inner ++ back, by simp, length, kind, inside.append matched⟩

theorem Innermost.matched_of_append {tokens back : List Token} {place? : Option Nat} (first : Innermost tokens place?)
    (second : Innermost (tokens ++ back) place?) : Matched back := by
  cases place? with
  | none => exact Matched.of_append second first
  | some place =>
    obtain ⟨front, opening, inner, rfl, length, -, inside⟩ := first
    obtain ⟨front', opening', inner', split, length', -, inside'⟩ := second
    rw [List.append_assoc] at split
    obtain ⟨-, rest⟩ := List.append_inj split (length.trans length'.symm)
    cases rest
    exact inside'.of_append inside

/-- The parenthesis that is innermost at a token still is at a later place exactly if those between match. -/
theorem matched_iff_innermost (run : State.run ⟨[], []⟩ (front ++ token :: between) = .ok s)
    (notOpen : token.kind ≠ .openParen) (notClose : token.kind ≠ .closeParen) :
    Matched between ↔ ∃ place?, Innermost front place? ∧ Innermost (front ++ token :: between) place? := by
  constructor
  · intro matched
    obtain ⟨middle, start, -⟩ := State.exists_run_of_run_append run
    obtain ⟨place?, innermost⟩ := (OpenGroups.of_run start).exists_innermost
    exact ⟨place?, innermost, innermost.append (.plain notOpen notClose matched)⟩
  · rintro ⟨place?, first, second⟩
    have matched : Matched ([token] ++ between) := first.matched_of_append second
    exact matched.of_append (.plain notOpen notClose .nil)

/-! ## The tokens that send operators out -/

theorem exists_row_of_operator (waits : LastFirst Waits before s.waiting) (kind : token.kind = .operator arriving) :
    ∃ row kept, s.waiting = row ++ kept ∧ s.step token = .ok ⟨token :: kept, row.reverse ++ s.output⟩ ∧
      LastFirst (ReleasedBy arriving) before row := by
  obtain ⟨next, step, -⟩ := exists_step_of_isOperator (show token.isOperator by simp [Token.isOperator, kind]) s
  cases State.moves_of_step step with
  | operator op _ held kept waiting released stays =>
    rw [waiting] at waits
    exact ⟨held, kept, waiting, step, (waits.part_operator kind released stays).1⟩
  | number n x other value => simp [kind] at other
  | openParen other => simp [kind] at other
  | closeParen other => simp [kind] at other

theorem row_of_closeParen (run : State.run ⟨[], []⟩ before = .ok s) (kind : token.kind = .closeParen) :
    (∃ row opening outer, s.waiting = row ++ opening :: outer ∧ opening.kind = .openParen ∧
      s.step token = .ok ⟨outer, row.reverse ++ s.output⟩ ∧ LastFirst LeftInGroup before row) ∨
    (¬ AwaitsClose before ∧ s.step token = .error ⟨.unmatchedClose, token.offset⟩ ∧
      LastFirst LeftInGroup before s.waiting) := by
  have waits := waits_of_run run
  cases step : s.step token with
  | ok next =>
    cases State.moves_of_step step with
    | closeParen _ held opening outer waiting group opened =>
      rw [waiting] at waits
      exact .inl ⟨held, opening, outer, waiting, opened, rfl, (waits.part_closeParen group opened).1⟩
    | number n x other value => simp [kind] at other
    | openParen other => simp [kind] at other
    | operator op other => simp [kind] at other
  | error e =>
    cases State.step_eq_error_iff.mp step with
    | closeParen _ none =>
      have operators : ∀ top ∈ s.waiting, opens top = false := by simpa [List.filter_eq_nil_iff] using none
      refine .inr ⟨?_, rfl, waits.leftInGroup operators⟩
      rw [(OpenGroups.of_run run).awaitsClose_iff, not_not]
      exact none
    | number n cause other value => simp [kind] at other

theorem operators_of_other {next : State} (notClose : token.kind ≠ .closeParen) (notOperator : token.isOperator = false)
    (step : s.step token = .ok next) :
    next.waiting.filter Token.isOperator = s.waiting.filter Token.isOperator ∧
      next.output.filter Token.isOperator = s.output.filter Token.isOperator := by
  cases State.moves_of_step step with
  | number n x kind value => simp [State.sendNumber, Token.isOperator]
  | openParen kind => simp [State.wait, notOperator]
  | closeParen kind => exact absurd kind notClose
  | operator op kind => simp [Token.isOperator, kind] at notOperator

theorem row_of_finish (run : State.run ⟨[], []⟩ before = .ok s) :
    (AllClosed before ∧ s.finish = .ok (s.waiting.reverse ++ s.output) ∧ LastFirst LeftInGroup before s.waiting) ∨
      (¬ AllClosed before ∧ ∃ e, s.finish = .error e) := by
  have waits := waits_of_run run
  cases finish : s.finish with
  | ok reordered =>
    obtain ⟨operators, rfl⟩ := State.finish_eq_ok_iff.mp finish
    exact .inl ⟨waits.allClosed operators, rfl, waits.leftInGroup operators⟩
  | error e =>
    obtain ⟨opening, head, -⟩ := State.finish_eq_error_iff.mp finish
    obtain ⟨front, after, split, kind, matched⟩ := exists_of_head_opened run head
    exact .inr ⟨fun closed => matched.not_closed (closed front opening after split kind), e, rfl⟩

end

/-- Between any two tokens: what waits, which of it the next token or the end sends out, and in which order. -/
theorem releaseRule_of_run {before : List Token} {s : State} (run : State.run ⟨[], []⟩ before = .ok s) :
    ReleaseRule before s where
  waiting := waits_of_run run
  operator _ _ kind := exists_row_of_operator (waits_of_run run) kind
  closeParen _ kind := row_of_closeParen run kind
  other _ _ notClose notOperator step := operators_of_other notClose notOperator step
  finish := row_of_finish run
  sameGroup := by
    rintro front token between rfl
    exact matched_iff_innermost run

/-- For instance `* ( - ) ^` and then a plus, which sends the power out before the product; the minus has left with its
parenthesis. -/
theorem releaseRule_of_run_power :
    let product : Token := ⟨0, .operator .mul, "*"⟩
    let opening : Token := ⟨1, .openParen, "("⟩
    let minus : Token := ⟨2, .operator .sub, "-"⟩
    let closing : Token := ⟨3, .closeParen, ")"⟩
    let power : Token := ⟨4, .operator .pow, "^"⟩
    let plus : Token := ⟨5, .operator .add, "+"⟩
    State.run ⟨[], []⟩ [product, opening, minus, closing, power] = .ok ⟨[power, product], [minus]⟩ ∧
      State.step ⟨[power, product], [minus]⟩ plus = .ok ⟨[plus], [product, power, minus]⟩ ∧
      LastFirst (ReleasedBy .add) [product, opening, minus, closing, power] [power, product] := by
  intro product opening minus closing power plus
  have run : State.run ⟨[], []⟩ [product, opening, minus, closing, power] = .ok ⟨[power, product], [minus]⟩ := rfl
  have sent : State.step ⟨[power, product], [minus]⟩ plus = .ok ⟨[plus], [product, power, minus]⟩ := rfl
  refine ⟨run, sent, ?_⟩
  obtain ⟨row, kept, waiting, step, marked⟩ := (releaseRule_of_run run).operator plus .add rfl
  rw [sent] at step
  obtain ⟨rfl, -⟩ : kept = [] ∧ _ := by simpa using step
  rw [List.append_nil] at waiting
  rwa [← waiting] at marked

end Polish.ShuntingYard
