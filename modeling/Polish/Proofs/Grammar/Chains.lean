import Polish.Proofs.CallTree.Inverse
import Polish.Proofs.Grammar.Reordering
import Polish.Proofs.ShuntingYard.Conservation

/-!
# Chains

The height of a tree is at most the number of its operators. A derivation without parentheses whose operators bind
equally tightly is a chain: one operand of each operator is a number, because a symbol of the grammar derives no
operator that binds less tightly than its floor. So its tree is as high as it has operators.
-/

namespace Polish

theorem CallTree.height_le_length_operators (t : CallTree) : t.height ≤ t.operators.length := by
  induction t with
  | number x => exact Nat.le_refl 0
  | call op left right ihl ihr =>
    simp only [height, operators, List.length_cons, List.length_append]
    omega

/-- Tokens without parentheses. -/
def Unparenthesised (tokens : List Token) : Prop := ∀ token ∈ tokens, token.isParenthesis = false

/-- The operators among the tokens bind at least as tightly as the floor. -/
def AtLeast (floor : Nat) (tokens : List Token) : Prop := ∀ op ∈ operators tokens, floor ≤ op.precedence

/-- The operators among the tokens bind exactly as tightly as the precedence says. -/
def AllOf (precedence : Nat) (tokens : List Token) : Prop := ∀ op ∈ operators tokens, op.precedence = precedence

namespace Grammar

open CallTree

variable {level : Level} {token : Token} {op : Operator} {lefts rights : List Token} {floor precedence : Nat}

theorem operators_number {n : Numeral} (kind : token.kind = .number n) : operators [token] = [] := by
  simp [operators, Token.asOperator?, kind]

theorem operators_around (kind : token.kind = .operator op) (lefts rights : List Token) :
    operators (lefts ++ token :: rights) = operators lefts ++ op :: operators rights := by
  have operator : token.asOperator? = some op := by simp [Token.asOperator?, kind]
  rw [operators, List.filterMap_append, List.filterMap_cons_some operator]
  rfl

theorem unparenthesised_around :
    Unparenthesised (lefts ++ token :: rights) ↔
      Unparenthesised lefts ∧ token.isParenthesis = false ∧ Unparenthesised rights := by
  simp only [Unparenthesised, List.forall_mem_append, List.forall_mem_cons]

theorem allOf_around (kind : token.kind = .operator op) :
    AllOf precedence (lefts ++ token :: rights) ↔
      AllOf precedence lefts ∧ op.precedence = precedence ∧ AllOf precedence rights := by
  simp only [AllOf, operators_around kind, List.forall_mem_append, List.forall_mem_cons]

theorem atLeast_around (kind : token.kind = .operator op) :
    AtLeast floor (lefts ++ token :: rights) ↔ AtLeast floor lefts ∧ floor ≤ op.precedence ∧ AtLeast floor rights := by
  simp only [AtLeast, operators_around kind, List.forall_mem_append, List.forall_mem_cons]

theorem AtLeast.mono {tokens : List Token} {lower : Nat} (h : AtLeast floor tokens) (le : lower ≤ floor) :
    AtLeast lower tokens :=
  fun op member => Nat.le_trans le (h op member)

/-- Without parentheses the operators bind at least as tightly as the floor of the symbol. -/
theorem Derivation.atLeast_floor (d : Derivation level) (plain : Unparenthesised d.tokens) :
    AtLeast level.floor d.tokens := by
  induction d with
  | number token n kind =>
    unfold AtLeast
    rw [tokens, operators_number kind]
    simp
  | group opening inner closing opens closes ih =>
    have parenthesis := plain opening List.mem_cons_self
    simp [Token.isParenthesis, opens] at parenthesis
  | ofAtom operand ih => exact AtLeast.mono (ih plain) (by decide)
  | ofPower operand ih => exact AtLeast.mono (ih plain) (by decide)
  | ofTerm operand ih => exact AtLeast.mono (ih plain) (by decide)
  | pow left token right kind ihl ihr =>
    obtain ⟨plainLeft, -, plainRight⟩ := unparenthesised_around.mp plain
    exact (atLeast_around kind).mpr ⟨ihl plainLeft, by decide, AtLeast.mono (ihr plainRight) (by decide)⟩
  | product left token op right kind isProduct ihl ihr =>
    obtain ⟨plainLeft, -, plainRight⟩ := unparenthesised_around.mp plain
    have two := precedence_of_product isProduct
    exact (atLeast_around kind).mpr ⟨AtLeast.mono (ihl plainLeft) (by decide), Nat.le_of_eq two.symm, ihr plainRight⟩
  | sum left token op right kind isSum ihl ihr =>
    obtain ⟨plainLeft, -, plainRight⟩ := unparenthesised_around.mp plain
    have one := precedence_of_sum isSum
    exact (atLeast_around kind).mpr ⟨AtLeast.mono (ihl plainLeft) (by decide), Nat.le_of_eq one.symm, ihr plainRight⟩

/-- A symbol derives no operators that all bind less tightly than its floor. -/
theorem Derivation.operators_eq_nil (d : Derivation level) (plain : Unparenthesised d.tokens)
    (same : AllOf precedence d.tokens) (less : precedence < level.floor) : operators d.tokens = [] := by
  rw [List.eq_nil_iff_forall_not_mem]
  intro op member
  have least := d.atLeast_floor plain op member
  rw [same op member] at least
  omega

/-- An operator adds its operand to a chain if the other operand has no operators. -/
theorem height_call_of_nil (kind : token.kind = .operator op) {l r : CallTree}
    (heightL : l.height = (operators lefts).length) (heightR : r.height = (operators rights).length)
    (none : operators lefts = [] ∨ operators rights = []) :
    (call op l r).height = (operators (lefts ++ token :: rights)).length := by
  rw [operators_around kind, List.length_append, List.length_cons, height]
  rcases none with none | none
  · rw [none, List.length_nil] at heightL ⊢
    omega
  · rw [none, List.length_nil] at heightR ⊢
    omega

/-- The tree of a chain is as high as it has operators: of the two operands of an operator one is a number. -/
theorem Derivation.height_eq (d : Derivation level) {t : CallTree} (tree : d.tree? = some t)
    (plain : Unparenthesised d.tokens) (same : AllOf precedence d.tokens) :
    t.height = (operators d.tokens).length := by
  induction d generalizing t with
  | number token n kind =>
    obtain ⟨x, -, rfl⟩ := Option.map_eq_some_iff.mp tree
    rw [tokens, operators_number kind]
    rfl
  | group opening inner closing opens closes ih =>
    have parenthesis := plain opening List.mem_cons_self
    simp [Token.isParenthesis, opens] at parenthesis
  | ofAtom operand ih => exact ih tree plain same
  | ofPower operand ih => exact ih tree plain same
  | ofTerm operand ih => exact ih tree plain same
  | pow left token right kind ihl ihr =>
    obtain ⟨l, r, treeL, treeR, rfl⟩ := exists_of_tree_call tree
    obtain ⟨plainLeft, -, plainRight⟩ := unparenthesised_around.mp plain
    obtain ⟨sameLeft, rfl, sameRight⟩ := (allOf_around kind).mp same
    have none := right.operators_eq_nil plainRight sameRight (by decide)
    exact height_call_of_nil kind (ihl treeL plainLeft sameLeft) (ihr treeR plainRight sameRight) (.inr none)
  | product left token op right kind isProduct ihl ihr =>
    obtain ⟨l, r, treeL, treeR, rfl⟩ := exists_of_tree_call tree
    obtain ⟨plainLeft, -, plainRight⟩ := unparenthesised_around.mp plain
    obtain ⟨sameLeft, rfl, sameRight⟩ := (allOf_around kind).mp same
    have none := left.operators_eq_nil plainLeft sameLeft (by rw [precedence_of_product isProduct]; decide)
    exact height_call_of_nil kind (ihl treeL plainLeft sameLeft) (ihr treeR plainRight sameRight) (.inl none)
  | sum left token op right kind isSum ihl ihr =>
    obtain ⟨l, r, treeL, treeR, rfl⟩ := exists_of_tree_call tree
    obtain ⟨plainLeft, -, plainRight⟩ := unparenthesised_around.mp plain
    obtain ⟨sameLeft, rfl, sameRight⟩ := (allOf_around kind).mp same
    have none := left.operators_eq_nil plainLeft sameLeft (by rw [precedence_of_sum isSum]; decide)
    exact height_call_of_nil kind (ihl treeL plainLeft sameLeft) (ihr treeR plainRight sameRight) (.inl none)

end Grammar

end Polish
