import Polish.Proofs.CallTree.Flatten
import Polish.Proofs.Grammar.Derivation
import Polish.Proofs.ShuntingYard.Steps

/-!
# Reordering a derivation

The shunting yard takes in the tokens of a derivation (`Derivation.leaves`) without touching what waited before, if
nothing there binds too tightly. It leaves some operators waiting and the rest in the output, and these, with the
waiting ones in front, write the tree of the derivation. How tightly the waiting ones bind depends only on the
symbol that the derivation starts from.
-/

namespace Polish.Grammar

open ShuntingYard CallTree

/-- How tightly the last waiting token may bind when a derivation begins. -/
def Level.ceiling : Level → Nat
  | expr => 1
  | term | power => 2
  | atom => 3

/-- How tightly the operators bind at least that a derivation leaves waiting; none does after an atom. -/
def Level.floor : Level → Nat
  | expr => 1
  | term => 2
  | power => 3
  | atom => 4

/-- The last waiting token binds no more tightly than that. -/
def Below (s : State) (ceiling : Nat) : Prop := ∀ top ∈ s.waiting.head?, top.precedence ≤ ceiling

theorem Below.mono {s : State} {low high : Nat} (h : Below s low) (le : low ≤ high) : Below s high := by
  intro top head
  have := h top head
  omega

theorem below_of_operator {token : Token} {op : Operator} (kind : token.kind = .operator op) {ceiling : Nat}
    (le : op.precedence ≤ ceiling) (waiting output : List Token) : Below ⟨token :: waiting, output⟩ ceiling := by
  intro top head
  cases head
  rw [precedence_of_operator kind]
  omega

theorem below_of_openParen {token : Token} (kind : token.kind = .openParen) (s : State) (ceiling : Nat) :
    Below (s.wait token) ceiling := by
  intro top head
  cases head
  rw [precedence_of_openParen kind]
  omega

/-- The tokens leave `held` waiting and `sent` in the output, and together these write the tree. -/
structure Leaves (s : State) (tokens : List Token) (floor : Nat) (t : CallTree) (held sent : List Token) : Prop where
  run : s.run tokens = .ok ⟨held ++ s.waiting, sent ++ s.output⟩
  operators : ∀ top ∈ held, ∃ op, top.kind = .operator op ∧ floor ≤ op.precedence
  writes : Writes (held.reverse ++ sent) t

section

variable {s : State} {t l r : CallTree} {held sent : List Token} {floor : Nat}

theorem Leaves.mono {tokens : List Token} {floor' : Nat} (h : Leaves s tokens floor t held sent)
    (le : floor' ≤ floor) : Leaves s tokens floor' t held sent where
  run := h.run
  operators := by
    intro top member
    obtain ⟨op, kind, least⟩ := h.operators top member
    exact ⟨op, kind, by omega⟩
  writes := h.writes

theorem Leaves.operators_only {tokens : List Token} (h : Leaves s tokens floor t held sent) :
    ∀ top ∈ held, opens top = false := by
  intro top member
  obtain ⟨op, kind, -⟩ := h.operators top member
  exact opens_of_operator kind

/-- An operator between two derivations: on its arrival all that the left one left waiting goes, and nothing of what
waited before, so that it waits right below what the right one leaves. -/
theorem Leaves.call {lefts rights : List Token} {token : Token} {op : Operator} {lower upper : Nat}
    (left : Leaves s lefts lower l held sent) (kind : token.kind = .operator op)
    (releases : op.precedence < lower ∨ (op = .pow ∧ op.precedence ≤ lower))
    (below : Below s op.precedence) (belowPow : op = .pow → Below s 2)
    (right : ∃ held' sent', Leaves ⟨token :: s.waiting, held.reverse ++ sent ++ s.output⟩ rights upper r held' sent')
    (floor_le : floor ≤ op.precedence) (upper_le : op.precedence ≤ upper) :
    ∃ held sent, Leaves s (lefts ++ token :: rights) floor (.call op l r) held sent := by
  obtain ⟨held', sent', right⟩ := right
  have released : ∀ top ∈ held, ShuntingYard.releases token top := by
    intro top member
    obtain ⟨other, otherKind, least⟩ := left.operators top member
    rw [releases_iff kind, precedence_of_operator otherKind]
    rcases releases with tighter | ⟨pow, same⟩
    · exact .inl (by omega)
    · rcases Nat.lt_or_eq_of_le (Nat.le_trans same least) with tighter | equal
      · exact .inl (by omega)
      · exact .inr ⟨by omega, pow⟩
  have kept : ∀ top ∈ s.waiting.head?, ¬ ShuntingYard.releases token top := by
    intro top head
    have le := below top head
    rw [releases_iff kind]
    rintro (above | ⟨same, rfl⟩)
    · omega
    · have lower := belowPow rfl top head
      simp only [Operator.precedence] at same
      omega
  have step := State.step_operator kind released kept (sent ++ s.output)
  refine ⟨held' ++ [token], sent' ++ (held.reverse ++ sent), ?_, ?_, ?_⟩
  · rw [State.run_append_of_run left.run, State.run_cons_of_step step, ← List.append_assoc, right.run]
    simp
  · intro top member
    rcases List.mem_append.mp member with inner | outer
    · obtain ⟨other, otherKind, least⟩ := right.operators top inner
      exact ⟨other, otherKind, by omega⟩
    · rw [List.mem_singleton.mp outer]
      exact ⟨op, kind, floor_le⟩
  · have together := writes_call kind right.writes left.writes
    simpa using together

end

/-- Taking in the tokens of a derivation above tokens that bind no more tightly than the ceiling of its symbol. -/
theorem Derivation.leaves {level : Level} (d : Derivation level) {t : CallTree} (tree : d.tree? = some t) (s : State)
    (below : Below s level.ceiling) : ∃ held sent, Leaves s d.tokens level.floor t held sent := by
  induction d generalizing t s with
  | number token n kind =>
    cases value : n.evaluate with
    | error cause => simp [tree?, value, Except.toOption] at tree
    | ok x =>
      simp only [tree?, value, Except.toOption, Option.map_some, Option.some.injEq] at tree
      subst tree
      refine ⟨[], [{ token with kind := .number { n with value? := some x } }], ?_, by simp, ?_⟩
      · rw [tokens, State.run_cons_of_step (State.step_number kind value)]
        rfl
      · simp [Writes, flatten, Token.symbol?]
  | group opening inner closing opens closes ih =>
    obtain ⟨held, sent, leaves⟩ := ih tree (s.wait opening) (below_of_openParen opens s _)
    have close := State.step_closeParen closes leaves.operators_only opens s.waiting (sent ++ s.output)
    refine ⟨[], held.reverse ++ sent, ?_, by simp, by simpa using leaves.writes⟩
    rw [tokens, State.run_cons_of_step (State.step_openParen opens), State.run_append_of_run leaves.run, State.wait,
      State.run_cons_of_step close]
    simp
  | ofAtom operand ih =>
    obtain ⟨held, sent, leaves⟩ := ih tree s (below.mono (by decide))
    exact ⟨held, sent, leaves.mono (by decide)⟩
  | ofPower operand ih =>
    obtain ⟨held, sent, leaves⟩ := ih tree s below
    exact ⟨held, sent, leaves.mono (by decide)⟩
  | ofTerm operand ih =>
    obtain ⟨held, sent, leaves⟩ := ih tree s (below.mono (by decide))
    exact ⟨held, sent, leaves.mono (by decide)⟩
  | pow left token right kind ihl ihr =>
    obtain ⟨l, r, treeL, treeR, rfl⟩ := exists_of_tree_call tree
    obtain ⟨held, sent, leaves⟩ := ihl treeL s below
    have rights := ihr treeR ⟨token :: s.waiting, held.reverse ++ sent ++ s.output⟩
      (below_of_operator kind (by decide) _ _)
    exact leaves.call kind (.inr ⟨rfl, by decide⟩) (below.mono (by decide)) (fun _ => below) rights (by decide)
      (by decide)
  | product left token op right kind isProduct ihl ihr =>
    obtain ⟨l, r, treeL, treeR, rfl⟩ := exists_of_tree_call tree
    have two := precedence_of_product isProduct
    obtain ⟨held, sent, leaves⟩ := ihl treeL s below
    have rights := ihr treeR ⟨token :: s.waiting, held.reverse ++ sent ++ s.output⟩
      (below_of_operator kind (by simp [two, Level.ceiling]) _ _)
    exact leaves.call kind (.inl (by simp [two, Level.floor])) (two ▸ below) (fun _ => below) rights
      (by simp [two, Level.floor]) (by simp [two, Level.floor])
  | sum left token op right kind isSum ihl ihr =>
    obtain ⟨l, r, treeL, treeR, rfl⟩ := exists_of_tree_call tree
    have one := precedence_of_sum isSum
    obtain ⟨held, sent, leaves⟩ := ihl treeL s (below.mono (by decide))
    have rights := ihr treeR ⟨token :: s.waiting, held.reverse ++ sent ++ s.output⟩
      (below_of_operator kind (by simp [one, Level.ceiling]) _ _)
    exact leaves.call kind (.inl (by simp [one, Level.floor])) (one ▸ below) (fun _ => below.mono (by decide)) rights
      (by simp [one, Level.floor]) (by simp [one, Level.floor])

/-- What is derived is reordered, and the result writes the tree of the derivation. -/
theorem Derivation.exists_toPrefix (d : Derivation .expr) {t : CallTree} (tree : d.tree? = some t) :
    ∃ reordered, toPrefix d.tokens = .ok reordered ∧ Writes reordered t := by
  have below : Below ⟨[], []⟩ Level.expr.ceiling := by
    intro top head
    cases head
  obtain ⟨held, sent, leaves⟩ := d.leaves tree ⟨[], []⟩ below
  refine ⟨held.reverse ++ sent, ?_, leaves.writes⟩
  rw [toPrefix, leaves.run]
  simp only [List.append_nil]
  exact State.finish_of_operators leaves.operators_only

end Polish.Grammar
