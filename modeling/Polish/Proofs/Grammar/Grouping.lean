import Polish.Proofs.Grammar.Derivation
import Polish.Proofs.ShuntingYard.Balance

/-!
# Finding a derivation

Alternating tokens whose parentheses match can be derived. The derivation grows from left to right: an operator and an
operand are added at the end of a derivation (`exists_append`), at the place on its right edge that the operator's
precedence asks for. Inside open groups the tokens read so far are those before the groups (`Enclosing`) and those of
the innermost group; `InGroup` is the invariant of the run, with as many groups open as parentheses wait.
-/

namespace Polish.Grammar

open ShuntingYard

/-- Whether the tokens have a derivation. -/
def Derivable (tokens : List Token) : Prop := ∃ d : Derivation .expr, d.tokens = tokens

/-! ## One more operand at the end -/

section Append

variable {token : Token} {op : Operator} (kind : token.kind = .operator op) (a : Derivation .atom)

include kind in
theorem exists_append_term (tight : ¬ (op = .add ∨ op = .sub)) :
    (d : Derivation .term) → ∃ longer : Derivation .term, longer.tokens = d.tokens ++ token :: a.tokens
  | .ofPower p => by
    by_cases pow : op = .pow
    · subst pow
      exact ⟨.ofPower (.pow p token a kind), rfl⟩
    · have isProduct : op = .mul ∨ op = .div ∨ op = .mod := by
        cases op <;> simp at tight pow ⊢
      exact ⟨.product p token op (.ofPower (.ofAtom a)) kind isProduct, rfl⟩
  | .product p other op' t kind' isProduct => by
    obtain ⟨longer, tokens⟩ := exists_append_term tight t
    exact ⟨.product p other op' longer kind' isProduct, by simp [Derivation.tokens, tokens]⟩

include kind in
/-- An operator and an operand behind a derivation give a derivation again. -/
theorem exists_append :
    (d : Derivation .expr) → ∃ longer : Derivation .expr, longer.tokens = d.tokens ++ token :: a.tokens
  | .ofTerm t => by
    by_cases isSum : op = .add ∨ op = .sub
    · exact ⟨.sum t token op (.ofTerm (.ofPower (.ofAtom a))) kind isSum, rfl⟩
    · obtain ⟨longer, tokens⟩ := exists_append_term kind a isSum t
      exact ⟨.ofTerm longer, tokens⟩
  | .sum t other op' e kind' isSum => by
    obtain ⟨longer, tokens⟩ := exists_append e
    exact ⟨.sum t other op' longer kind' isSum, by simp [Derivation.tokens, tokens]⟩

end Append

/-! ## Open groups -/

/-- What stands before an operand in its group: nothing, or a derivation and an operator. -/
inductive Pending : List Token → Prop where
  | start : Pending []
  | behind (d : Derivation .expr) {token : Token} {op : Operator} (kind : token.kind = .operator op) :
      Pending (d.tokens ++ [token])

theorem Pending.derivable {front : List Token} (pending : Pending front) (a : Derivation .atom) :
    Derivable (front ++ a.tokens) := by
  cases pending with
  | start => exact ⟨.ofTerm (.ofPower (.ofAtom a)), rfl⟩
  | behind d kind =>
    obtain ⟨longer, tokens⟩ := exists_append kind a d
    exact ⟨longer, by simp [tokens]⟩

/-- The tokens up to the innermost of some open groups. -/
inductive Enclosing : (depth : Nat) → List Token → Prop where
  | outside : Enclosing 0 []
  | group {depth : Nat} {front before : List Token} {opening : Token} (outer : Enclosing depth front)
      (pending : Pending before) (opens : opening.kind = .openParen) :
      Enclosing (depth + 1) (front ++ before ++ [opening])

/-- The tokens read so far, in the innermost group right behind a value or where an operand is to begin. -/
inductive InGroup (depth : Nat) : (afterValue : Bool) → List Token → Prop where
  | value {front : List Token} (enclosing : Enclosing depth front) (d : Derivation .expr) :
      InGroup depth true (front ++ d.tokens)
  | operand {front before : List Token} (enclosing : Enclosing depth front) (pending : Pending before) :
      InGroup depth false (front ++ before)

/-- The number of groups that are open. -/
def openCount (waiting : List Token) : Nat := waiting.countP opens

theorem openCount_append_of_operators {held : List Token} (operators : ∀ top ∈ held, opens top = false)
    (kept : List Token) : openCount (held ++ kept) = openCount kept := by
  rw [openCount, openCount, List.countP_eq_length_filter, List.countP_eq_length_filter,
    State.filter_opens_of_operators operators]

/-- One token more, as the shunting yard takes it in. -/
theorem InGroup.step {s next : State} {afterValue : Bool} {tokens : List Token} {token : Token}
    (inGroup : InGroup (openCount s.waiting) afterValue tokens) (starts : token.kind.startsOperand = !afterValue)
    (moves : State.Moves s token next) : InGroup (openCount next.waiting) token.isValue (tokens ++ [token]) := by
  cases moves with
  | number n x kind value =>
    obtain rfl : afterValue = false := by simpa [kind, Token.Kind.startsOperand] using starts
    rw [Token.isValue_of_number kind]
    cases inGroup with
    | operand enclosing pending =>
      obtain ⟨d, tokens⟩ := pending.derivable (.number token n kind)
      rw [List.append_assoc, show _ ++ [token] = d.tokens from tokens.symm]
      exact .value enclosing d
  | openParen kind =>
    obtain rfl : afterValue = false := by simpa [kind, Token.Kind.startsOperand] using starts
    rw [Token.isValue_of_openParen kind]
    have deeper : openCount (s.wait token).waiting = openCount s.waiting + 1 := by
      simp [State.wait, openCount, opens_iff.mpr kind]
    rw [deeper]
    cases inGroup with
    | operand enclosing pending =>
      have inner := InGroup.operand (.group enclosing pending kind) .start
      simpa using inner
  | closeParen kind held opening outer waiting group opened =>
    obtain rfl : afterValue = true := by simpa [kind, Token.Kind.startsOperand] using starts
    rw [Token.isValue_of_closeParen kind]
    have deeper : openCount s.waiting = openCount outer + 1 := by
      rw [waiting, openCount_append_of_operators group]
      simp [openCount, opens_iff.mpr opened]
    rw [deeper] at inGroup
    cases inGroup with
    | value enclosing d =>
      cases enclosing with
      | @group _ front before opening' around pending opens =>
        obtain ⟨closed, tokens⟩ := pending.derivable (.group opening' d token opens kind)
        have whole : front ++ before ++ [opening'] ++ d.tokens ++ [token] = front ++ closed.tokens := by
          simp [tokens, Derivation.tokens]
        rw [whole]
        exact .value around closed
  | operator op kind held kept waiting released stays =>
    obtain rfl : afterValue = true := by simpa [kind, Token.Kind.startsOperand] using starts
    rw [Token.isValue_of_operator kind]
    have operators : ∀ top ∈ held, opens top = false := by
      intro top member
      exact opens_of_releases kind (released top member)
    have same : openCount s.waiting = openCount (token :: kept) := by
      rw [waiting, openCount_append_of_operators operators]
      simp [openCount, opens_of_operator kind]
    rw [same] at inGroup
    cases inGroup with
    | value enclosing d =>
      rw [List.append_assoc]
      exact .operand enclosing (.behind d kind)

theorem InGroup.run {tokens before : List Token} {s last : State} {afterValue : Bool}
    (inGroup : InGroup (openCount s.waiting) afterValue before) (alternates : Alternates afterValue tokens)
    (run : s.run tokens = .ok last) :
    InGroup (openCount last.waiting) (endsInValue afterValue tokens) (before ++ tokens) := by
  refine State.keeps_alternating_of_run
    (P := fun afterValue before s => InGroup (openCount s.waiting) afterValue before) ?_ inGroup alternates run
  intro afterValue before s token next inGroup starts moves
  exact inGroup.step starts moves

/-- Alternating tokens that are reordered and end in a value have a derivation. -/
theorem derivable_of_toPrefix {tokens reordered : List Token} (alternates : Alternates false tokens)
    (value : endsInValue false tokens = true) (h : toPrefix tokens = .ok reordered) : Derivable tokens := by
  obtain ⟨last, run, operators, -⟩ := exists_run_of_toPrefix h
  have start : InGroup (openCount []) false [] := .operand .outside .start
  have inGroup := start.run (s := ⟨[], []⟩) alternates run
  have closed : openCount last.waiting = 0 := by
    have := openCount_append_of_operators operators []
    simpa [openCount] using this
  rw [value, closed, List.nil_append] at inGroup
  cases inGroup with
  | value enclosing d =>
    cases enclosing with
    | outside => exact ⟨d, rfl⟩

end Polish.Grammar
