import Polish.ShuntingYard.Basic
import Polish.CallTree.Basic

/-!
# The grammar of expressions

Sums and products group to the right and powers to the left:

    Expr  ::= Term  | Term (+|-) Expr
    Term  ::= Power | Power (*|/|%) Term
    Power ::= Atom  | Power ^ Atom
    Atom  ::= number | '(' Expr ')'

A `Derivation` is a derivation in this grammar, with its tokens at the leaves. `tokens` lists them, and `tree?` is
the tree of calls that the derivation describes, if the literals of its numbers are accepted.
-/

namespace Polish.Grammar

/-- The nonterminal symbols. -/
inductive Level where
  | expr
  | term
  | power
  | atom

/-- Derivations, by the symbol that they start from. -/
inductive Derivation : Level → Type where
  | number (token : Token) (n : Numeral) (kind : token.kind = .number n) : Derivation .atom
  | group (opening : Token) (inner : Derivation .expr) (closing : Token) (opens : opening.kind = .openParen)
      (closes : closing.kind = .closeParen) : Derivation .atom
  | ofAtom (operand : Derivation .atom) : Derivation .power
  | pow (left : Derivation .power) (token : Token) (right : Derivation .atom)
      (kind : token.kind = .operator .pow) : Derivation .power
  | ofPower (operand : Derivation .power) : Derivation .term
  | product (left : Derivation .power) (token : Token) (op : Operator) (right : Derivation .term)
      (kind : token.kind = .operator op) (isProduct : op = .mul ∨ op = .div ∨ op = .mod) : Derivation .term
  | ofTerm (operand : Derivation .term) : Derivation .expr
  | sum (left : Derivation .term) (token : Token) (op : Operator) (right : Derivation .expr)
      (kind : token.kind = .operator op) (isSum : op = .add ∨ op = .sub) : Derivation .expr

/-- Whether all numbers among the tokens have literals that are accepted. -/
def Accepted (tokens : List Token) : Prop :=
  ∀ token ∈ tokens, ∀ n, token.kind = .number n → ∃ x, n.evaluate = .ok x

theorem accepted_append {front back : List Token} : Accepted (front ++ back) ↔ Accepted front ∧ Accepted back := by
  simp only [Accepted, List.mem_append]
  constructor
  · intro h
    exact ⟨fun token member => h token (.inl member), fun token member => h token (.inr member)⟩
  · rintro ⟨h, h'⟩ token (member | member)
    · exact h token member
    · exact h' token member

theorem accepted_cons {token : Token} {rest : List Token} :
    Accepted (token :: rest) ↔ (∀ n, token.kind = .number n → ∃ x, n.evaluate = .ok x) ∧ Accepted rest := by
  simp [Accepted]

theorem precedence_of_product {op : Operator} (isProduct : op = .mul ∨ op = .div ∨ op = .mod) : op.precedence = 2 := by
  rcases isProduct with rfl | rfl | rfl <;> rfl

theorem precedence_of_sum {op : Operator} (isSum : op = .add ∨ op = .sub) : op.precedence = 1 := by
  rcases isSum with rfl | rfl <;> rfl

namespace Derivation

variable {level : Level}

/-- The tokens that are derived. -/
def tokens : {level : Level} → Derivation level → List Token
  | _, number token _ _ => [token]
  | _, group opening inner closing _ _ => opening :: (inner.tokens ++ [closing])
  | _, ofAtom operand => operand.tokens
  | _, ofPower operand => operand.tokens
  | _, ofTerm operand => operand.tokens
  | _, pow left token right _ => left.tokens ++ token :: right.tokens
  | _, product left token _ right _ _ => left.tokens ++ token :: right.tokens
  | _, sum left token _ right _ _ => left.tokens ++ token :: right.tokens

/-- The tree of the derivation: the left operand is the one to the left in the text, the numbers are the values of
the literals, and parentheses leave no trace. Nothing if a literal has no value. -/
def tree? : {level : Level} → Derivation level → Option CallTree
  | _, number _ n _ => n.evaluate.toOption.map .number
  | _, group _ inner _ _ _ => inner.tree?
  | _, ofAtom operand => operand.tree?
  | _, ofPower operand => operand.tree?
  | _, ofTerm operand => operand.tree?
  | _, pow left _ right _ => left.tree?.bind fun l => right.tree?.map (.call .pow l ·)
  | _, product left _ op right _ _ => left.tree?.bind fun l => right.tree?.map (.call op l ·)
  | _, sum left _ op right _ _ => left.tree?.bind fun l => right.tree?.map (.call op l ·)

theorem exists_of_tree_call {left? right? : Option CallTree} {op : Operator} {t : CallTree}
    (tree : (left?.bind fun l => right?.map (.call op l ·)) = some t) :
    ∃ l r, left? = some l ∧ right? = some r ∧ t = .call op l r := by
  obtain ⟨l, treeL, rest⟩ := Option.bind_eq_some_iff.mp tree
  obtain ⟨r, treeR, rfl⟩ := Option.map_eq_some_iff.mp rest
  exact ⟨l, r, treeL, treeR, rfl⟩

/-- A derivation over accepted literals has a tree. -/
theorem exists_tree (d : Derivation level) (accepted : Accepted d.tokens) : ∃ t, d.tree? = some t := by
  induction d with
  | number token n kind =>
    obtain ⟨x, value⟩ := accepted token List.mem_cons_self n kind
    exact ⟨.number x, by simp [tree?, value, Except.toOption]⟩
  | group opening inner closing opens closes ih =>
    rw [tokens, accepted_cons, accepted_append] at accepted
    exact ih accepted.2.1
  | ofAtom operand ih => exact ih accepted
  | ofPower operand ih => exact ih accepted
  | ofTerm operand ih => exact ih accepted
  | pow left token right kind ihl ihr =>
    rw [tokens, accepted_append, accepted_cons] at accepted
    obtain ⟨l, treeL⟩ := ihl accepted.1
    obtain ⟨r, treeR⟩ := ihr accepted.2.2
    exact ⟨.call .pow l r, by simp [tree?, treeL, treeR]⟩
  | product left token op right kind isProduct ihl ihr =>
    rw [tokens, accepted_append, accepted_cons] at accepted
    obtain ⟨l, treeL⟩ := ihl accepted.1
    obtain ⟨r, treeR⟩ := ihr accepted.2.2
    exact ⟨.call op l r, by simp [tree?, treeL, treeR]⟩
  | sum left token op right kind isSum ihl ihr =>
    rw [tokens, accepted_append, accepted_cons] at accepted
    obtain ⟨l, treeL⟩ := ihl accepted.1
    obtain ⟨r, treeR⟩ := ihr accepted.2.2
    exact ⟨.call op l r, by simp [tree?, treeL, treeR]⟩

/-- Between two atoms any operator may stand. -/
theorem exists_call {token : Token} {op : Operator} (kind : token.kind = .operator op) (left right : Derivation .atom)
    {l r : CallTree} (treeL : left.tree? = some l) (treeR : right.tree? = some r) :
    ∃ d : Derivation .expr, d.tokens = left.tokens ++ token :: right.tokens ∧ d.tree? = some (.call op l r) := by
  by_cases isSum : op = .add ∨ op = .sub
  · exact ⟨.sum (.ofPower (.ofAtom left)) token op (.ofTerm (.ofPower (.ofAtom right))) kind isSum, rfl,
      by simp [tree?, treeL, treeR]⟩
  · by_cases isProduct : op = .mul ∨ op = .div ∨ op = .mod
    · exact ⟨.ofTerm (.product (.ofAtom left) token op (.ofPower (.ofAtom right)) kind isProduct), rfl,
        by simp [tree?, treeL, treeR]⟩
    · obtain rfl : op = .pow := by cases op <;> simp at isSum isProduct ⊢
      exact ⟨.ofTerm (.ofPower (.pow (.ofAtom left) token right kind)), rfl, by simp [tree?, treeL, treeR]⟩

end Derivation

end Polish.Grammar
