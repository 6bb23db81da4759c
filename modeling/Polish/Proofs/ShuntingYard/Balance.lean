import Polish.Proofs.CallTree.Operands
import Polish.Proofs.Lexer.Alternation
import Polish.Proofs.ShuntingYard.Steps

/-!
# Operands and waiting operators in balance

Between two tokens of an alternating sequence the output of the shunting yard can be read as trees, and there are as
many of them as there are waiting operators, and one more right behind a value (`Balanced`). A step keeps this, so
every run does. At the end it decides what the reordered tokens are: one tree behind a value, and one operand too few
behind an operator.
-/

namespace Polish.ShuntingYard

open CallTree

/-- The number of operators among waiting tokens. -/
def operatorCount (waiting : List Token) : Nat := waiting.countP (!opens ·)

/-- Only operators and opening parentheses wait, and the output holds one tree for each waiting operator, and one more
behind a value. -/
structure Balanced (s : State) (afterValue : Bool) : Prop where
  waits : ∀ top ∈ s.waiting, opens top = false → ∃ op, top.kind = .operator op
  trees : ∃ trees, placeAll s.output.reverse [] = .ok trees ∧
    trees.length = operatorCount s.waiting + afterValue.toNat

theorem balanced_start : Balanced ⟨[], []⟩ false where
  waits := by simp
  trees := ⟨[], rfl, rfl⟩

theorem operatorCount_append (front back : List Token) :
    operatorCount (front ++ back) = operatorCount front + operatorCount back := by
  simp [operatorCount]

theorem operatorCount_of_operators {held : List Token} (operators : ∀ top ∈ held, opens top = false) :
    operatorCount held = held.length := by
  rw [operatorCount, List.countP_eq_length]
  intro top member
  simp [operators top member]

/-- Behind a value the operators above any waiting token can leave. -/
theorem Balanced.send {s : State} (balanced : Balanced s true) {held kept : List Token}
    (waiting : s.waiting = held ++ kept) (operators : ∀ top ∈ held, opens top = false) :
    Balanced ⟨kept, held.reverse ++ s.output⟩ true := by
  obtain ⟨trees, placed, count⟩ := balanced.trees
  have held_operators : ∀ top ∈ held, ∃ op, top.kind = .operator op := by
    intro top member
    exact balanced.waits top (by simp [waiting, member]) (operators top member)
  rw [waiting, operatorCount_append, operatorCount_of_operators operators, Bool.toNat_true] at count
  obtain ⟨rest, more, length⟩ := length_placeAll_operators held_operators (show held.length < trees.length by omega)
  refine ⟨?_, rest, ?_, ?_⟩
  · intro top member
    exact balanced.waits top (by simp [waiting, show top ∈ kept from member])
  · rw [List.reverse_append, List.reverse_reverse, placeAll_append_of_placeAll placed, more]
  · simp only [Bool.toNat_true]
    omega

/-- One token keeps the balance. -/
theorem Balanced.step {s next : State} {afterValue : Bool} {token : Token} (balanced : Balanced s afterValue)
    (starts : token.kind.startsOperand = !afterValue) (moves : State.Moves s token next) :
    Balanced next token.isValue := by
  have stacked := moves.stacked balanced.waits
  cases moves with
  | number n x kind value =>
    obtain rfl : afterValue = false := by simpa [kind, Token.Kind.startsOperand] using starts
    obtain ⟨trees, placed, count⟩ := balanced.trees
    rw [Token.isValue_of_number kind]
    refine ⟨stacked, .number x :: trees, ?_, ?_⟩
    · rw [State.sendNumber, List.reverse_cons, placeAll_append_of_placeAll placed, placeAll_singleton]
      simp [place]
    · rw [List.length_cons, count]
      simp [State.sendNumber]
  | openParen kind =>
    obtain rfl : afterValue = false := by simpa [kind, Token.Kind.startsOperand] using starts
    obtain ⟨trees, placed, count⟩ := balanced.trees
    have opening : opens token = true := opens_iff.mpr kind
    rw [Token.isValue_of_openParen kind]
    refine ⟨stacked, trees, placed, ?_⟩
    simpa [State.wait, operatorCount, opening] using count
  | closeParen kind held opening outer waiting group opened =>
    obtain rfl : afterValue = true := by simpa [kind, Token.Kind.startsOperand] using starts
    obtain ⟨-, trees, placed, count⟩ := balanced.send waiting group
    rw [Token.isValue_of_closeParen kind]
    refine ⟨stacked, trees, placed, ?_⟩
    simpa [operatorCount, opens_iff.mpr opened] using count
  | operator op kind held kept waiting released stays =>
    obtain rfl : afterValue = true := by simpa [kind, Token.Kind.startsOperand] using starts
    have operators : ∀ top ∈ held, opens top = false := by
      intro top member
      exact opens_of_releases kind (released top member)
    obtain ⟨-, trees, placed, count⟩ := balanced.send waiting operators
    rw [Token.isValue_of_operator kind]
    refine ⟨stacked, trees, placed, ?_⟩
    simpa [operatorCount, opens_of_operator kind] using count

/-- What every step keeps that takes in a token where such a token may come, a run over an alternating sequence
keeps. -/
theorem State.keeps_alternating_of_run {P : Bool → List Token → State → Prop}
    (keeps : ∀ afterValue before s token next, P afterValue before s → token.kind.startsOperand = !afterValue →
      Moves s token next → P token.isValue (before ++ [token]) next)
    {afterValue : Bool} {before tokens : List Token} {s last : State} (holds : P afterValue before s)
    (alternates : Alternates afterValue tokens) (run : s.run tokens = .ok last) :
    P (endsInValue afterValue tokens) (before ++ tokens) last := by
  induction tokens generalizing s afterValue before with
  | nil =>
    cases run
    rwa [List.append_nil]
  | cons token rest ih =>
    obtain ⟨starts, later⟩ := alternates
    obtain ⟨next, step, more⟩ := exists_step_of_run run
    have longer := ih (keeps afterValue before s token next holds starts (moves_of_step step)) later more
    rwa [List.append_assoc] at longer

/-- A run over an alternating sequence keeps the balance. -/
theorem Balanced.run {tokens : List Token} {s last : State} {afterValue : Bool} (balanced : Balanced s afterValue)
    (alternates : Alternates afterValue tokens) (run : s.run tokens = .ok last) :
    Balanced last (endsInValue afterValue tokens) := by
  refine @State.keeps_alternating_of_run (fun afterValue _ s => Balanced s afterValue) ?_ afterValue [] tokens s last
    balanced alternates run
  intro afterValue before s token next balanced starts moves
  exact balanced.step starts moves

/-! ## What the balance decides at the end -/

/-- The reordered tokens end with the output, so the waiting operators are placed last. -/
theorem Balanced.exists_trees {s : State} {afterValue : Bool} (balanced : Balanced s afterValue)
    (operators : ∀ top ∈ s.waiting, opens top = false) :
    (∀ top ∈ s.waiting, ∃ op, top.kind = .operator op) ∧
      ∃ trees, trees.length = s.waiting.length + afterValue.toNat ∧
        placeAll (s.waiting.reverse ++ s.output).reverse [] = placeAll s.waiting trees := by
  obtain ⟨trees, placed, count⟩ := balanced.trees
  refine ⟨fun top member => balanced.waits top member (operators top member), trees, ?_, ?_⟩
  · rw [count, operatorCount_of_operators operators]
  · rw [List.reverse_append, List.reverse_reverse, placeAll_append_of_placeAll placed]

/-- Behind a value the reordered tokens are one tree. -/
theorem exists_ofPrefix_of_endsInValue {tokens reordered : List Token} (alternates : Alternates false tokens)
    (value : endsInValue false tokens = true) (h : toPrefix tokens = .ok reordered) :
    ∃ t, ofPrefix reordered = .ok t := by
  obtain ⟨last, run, operators, rfl⟩ := exists_run_of_toPrefix h
  have balanced := balanced_start.run alternates run
  rw [value] at balanced
  obtain ⟨waits, trees, count, placed⟩ := balanced.exists_trees operators
  rw [Bool.toNat_true] at count
  obtain ⟨rest, reduced, length⟩ := length_placeAll_operators waits (show last.waiting.length < trees.length by omega)
  obtain ⟨t, rfl⟩ := List.length_eq_one_iff.mp (show rest.length = 1 by omega)
  refine ⟨t, ?_⟩
  rw [ofPrefix, placed, reduced]
  rfl

/-- Behind an operator the operator that is placed last, the first of the reordered tokens, lacks an operand. -/
theorem ofPrefix_eq_error_of_operator {front reordered : List Token} {token : Token} {op : Operator}
    (alternates : Alternates false (front ++ [token])) (kind : token.kind = .operator op)
    (h : toPrefix (front ++ [token]) = .ok reordered) :
    ∃ first other, reordered.head? = some first ∧ first.kind = .operator other ∧
      ofPrefix reordered = .error (.oneOperand other) := by
  obtain ⟨last, run, operators, rfl⟩ := exists_run_of_toPrefix h
  have balanced := balanced_start.run alternates run
  rw [endsInValue_concat, Token.isValue_of_operator kind] at balanced
  obtain ⟨waits, trees, count, placed⟩ := balanced.exists_trees operators
  -- The operator itself waits, so something is at the bottom.
  have some : last.waiting ≠ [] := by
    obtain ⟨before, -, step⟩ := State.exists_last_step_of_run run
    cases State.moves_of_step step with
    | number n x kind' value => simp [kind] at kind'
    | openParen kind' => simp [kind] at kind'
    | closeParen kind' held opening outer waiting group opened => simp [kind] at kind'
    | operator op' kind' held kept waiting released stays => simp
  obtain ⟨row, bottom, bottom_eq⟩ := (List.eq_nil_or_concat last.waiting).resolve_left some
  rw [List.concat_eq_append] at bottom_eq
  rw [bottom_eq] at waits count placed
  obtain ⟨other, kindOther⟩ := waits bottom (by simp)
  refine ⟨bottom, other, by simp [bottom_eq], kindOther, ?_⟩
  have rowOperators : ∀ top ∈ row, ∃ op, top.kind = .operator op := by
    intro top member
    exact waits top (by simp [member])
  have short : trees.length = row.length + 1 := by simpa using count
  rw [ofPrefix, bottom_eq, placed, placeAll_operators_eq_error rowOperators kindOther short]
  rfl

/-- Nothing is reordered that ends with an opening parenthesis. -/
theorem kind_ne_openParen_of_toPrefix {front reordered : List Token} {token : Token}
    (h : toPrefix (front ++ [token]) = .ok reordered) : token.kind ≠ .openParen := by
  intro kind
  obtain ⟨last, run, operators, -⟩ := exists_run_of_toPrefix h
  obtain ⟨before, -, step⟩ := State.exists_last_step_of_run run
  rw [State.step_openParen kind] at step
  cases step
  have waiting := operators token List.mem_cons_self
  simp [opens, kind] at waiting

/-- What is reordered ends with a value or with an operator. -/
theorem value_or_operator_of_toPrefix {tokens reordered : List Token} (some : tokens ≠ [])
    (h : toPrefix tokens = .ok reordered) :
    endsInValue false tokens = true ∨ ∃ front last op, tokens = front ++ [last] ∧ last.kind = .operator op := by
  obtain ⟨front, last, rfl⟩ := (List.eq_nil_or_concat tokens).resolve_left some
  rw [List.concat_eq_append] at h ⊢
  rw [endsInValue_concat, Token.isValue]
  cases kind : last.kind with
  | number n => exact .inl rfl
  | closeParen => exact .inl rfl
  | openParen => exact absurd kind (kind_ne_openParen_of_toPrefix h)
  | operator op => exact .inr ⟨front, last, op, rfl, kind⟩

end Polish.ShuntingYard
