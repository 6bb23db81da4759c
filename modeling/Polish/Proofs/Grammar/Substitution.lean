import Polish.Proofs.CallTree.ReplaceLeaf
import Polish.Proofs.ShuntingYard.Steps

/-!
# Substitution in derivations

The numbers among the tokens of a derivation are the leaves of its tree, in the same order
(`Derivation.map_evaluate_numerals`). So an operand may stand for a number: the tokens of an atom in the place of the
number's token are derived too, and the tree of the atom is in the place of the leaf (`Derivation.exists_substitute`).
What the atom is made of does not matter, as no operator around it sees more than that it is an atom.
-/

namespace Polish

/-- The numbers among the tokens. -/
def numerals (tokens : List Token) : List Numeral := tokens.filterMap Token.asNumber?

variable {token : Token} {n : Numeral}

theorem Token.asNumber?_of_number (kind : token.kind = .number n) : token.asNumber? = some n := by
  rw [asNumber?, kind]

@[simp] theorem numerals_append (front back : List Token) :
    numerals (front ++ back) = numerals front ++ numerals back :=
  List.filterMap_append

theorem numerals_cons_number (kind : token.kind = .number n) (rest : List Token) :
    numerals (token :: rest) = n :: numerals rest :=
  List.filterMap_cons_some (Token.asNumber?_of_number kind)

theorem numerals_cons_other (other : ∀ n, token.kind ≠ .number n) (rest : List Token) :
    numerals (token :: rest) = numerals rest := by
  refine List.filterMap_cons_none ?_
  rw [Token.asNumber?]
  split
  · next n kind => exact absurd kind (other n)
  · rfl

namespace Grammar

open CallTree ShuntingYard

variable {level : Level} {op : Operator}

theorem ne_number_of_operator (kind : token.kind = .operator op) (n : Numeral) : token.kind ≠ .number n := by
  simp [kind]

theorem numerals_operator (kind : token.kind = .operator op) (lefts rights : List Token) :
    numerals (lefts ++ token :: rights) = numerals lefts ++ numerals rights := by
  rw [numerals_append, numerals_cons_other (ne_number_of_operator kind)]

/-! ## Numbers and leaves -/

/-- The numbers in a derivation are the leaves of its tree. -/
theorem Derivation.map_evaluate_numerals (d : Derivation level) {t : CallTree} (tree : d.tree? = some t) :
    (numerals d.tokens).map Numeral.evaluate = t.leaves.map .ok := by
  induction d generalizing t with
  | number token n kind =>
    cases value : n.evaluate with
    | error cause => simp [tree?, value, Except.toOption] at tree
    | ok x =>
      simp only [tree?, value, Except.toOption, Option.map_some, Option.some.injEq] at tree
      subst tree
      rw [tokens, numerals_cons_number kind, CallTree.leaves]
      simp [numerals, value]
  | group opening inner closing opens closes ih =>
    rw [tokens, numerals_cons_other (by simp [opens]), numerals_append, numerals_cons_other (by simp [closes])]
    simpa [numerals] using ih tree
  | ofAtom operand ih => exact ih tree
  | ofPower operand ih => exact ih tree
  | ofTerm operand ih => exact ih tree
  | pow left token right kind ihl ihr =>
    obtain ⟨l, r, treeL, treeR, rfl⟩ := exists_of_tree_call tree
    rw [tokens, numerals_operator kind, List.map_append, ihl treeL, ihr treeR, CallTree.leaves, List.map_append]
  | product left token op right kind isProduct ihl ihr =>
    obtain ⟨l, r, treeL, treeR, rfl⟩ := exists_of_tree_call tree
    rw [tokens, numerals_operator kind, List.map_append, ihl treeL, ihr treeR, CallTree.leaves, List.map_append]
  | sum left token op right kind isSum ihl ihr =>
    obtain ⟨l, r, treeL, treeR, rfl⟩ := exists_of_tree_call tree
    rw [tokens, numerals_operator kind, List.map_append, ihl treeL, ihr treeR, CallTree.leaves, List.map_append]

theorem Derivation.length_numerals (d : Derivation level) {t : CallTree} (tree : d.tree? = some t) :
    (numerals d.tokens).length = t.leaves.length := by
  simpa using congrArg List.length (d.map_evaluate_numerals tree)

/-! ## Two properties of derivations -/

/-- Tokens of the same kinds have a derivation with the same tree. -/
def Derivation.ReadsKinds (d : Derivation level) : Prop :=
  ∀ others : List Token, others.map Token.kind = d.tokens.map Token.kind →
    ∃ d' : Derivation level, d'.tokens = others ∧ d'.tree? = d.tree?

/-- The tokens of an atom in the place of a number have a derivation, with the atom's tree in the place of the leaf. -/
def Derivation.Substitutes (d : Derivation level) (a : Derivation .atom) (u : CallTree) : Prop :=
  ∀ before token after n t, d.tokens = before ++ token :: after → token.kind = .number n → d.tree? = some t →
    ∃ d' : Derivation level, d'.tokens = before ++ a.tokens ++ after ∧
      d'.tree? = some (t.replaceLeaf (numerals before).length u)

section Call

-- The three rules with an operator differ in the symbols of the operands and in the operators only.
variable {leftLevel rightLevel : Level}
  (build : (sign : Token) → sign.kind = .operator op → Derivation leftLevel → Derivation rightLevel → Derivation level)
  (tokens_build : ∀ sign kind l r, (build sign kind l r).tokens = l.tokens ++ sign :: r.tokens)
  (tree_build : ∀ sign kind l r, (build sign kind l r).tree? = l.tree?.bind fun x => r.tree?.map (.call op x ·))
  {left : Derivation leftLevel} {right : Derivation rightLevel} {sign : Token} (kind : sign.kind = .operator op)

include tokens_build tree_build

theorem readsKinds_call (ihl : left.ReadsKinds) (ihr : right.ReadsKinds) : (build sign kind left right).ReadsKinds := by
  intro others kinds
  rw [tokens_build, List.map_append, List.map_cons] at kinds
  obtain ⟨lefts, rest, rfl, kindsL, kinds⟩ := List.map_eq_append_iff.mp kinds
  obtain ⟨sign', rights, rfl, same, kindsR⟩ := List.map_eq_cons_iff.mp kinds
  obtain ⟨l, rfl, treeL⟩ := ihl lefts kindsL
  obtain ⟨r, rfl, treeR⟩ := ihr rights kindsR
  exact ⟨build sign' (same.trans kind) l r, tokens_build _ _ _ _, by rw [tree_build, tree_build, treeL, treeR]⟩

theorem substitutes_call {a : Derivation .atom} {u : CallTree} (ihl : left.Substitutes a u)
    (ihr : right.Substitutes a u) : (build sign kind left right).Substitutes a u := by
  intro before token after n t split number tree
  rw [tree_build] at tree
  obtain ⟨l, r, treeL, treeR, rfl⟩ := Derivation.exists_of_tree_call tree
  have leavesL := left.length_numerals treeL
  rw [tokens_build] at split
  rcases same_or_behind_or_before split with ⟨-, rfl, -⟩ | ⟨between, rfl, place⟩ | ⟨between, place, rfl⟩
  · exact absurd number (ne_number_of_operator kind n)
  · obtain ⟨r', tokens, tree'⟩ := ihr between token after n r place number treeR
    refine ⟨build sign kind left r', ?_, ?_⟩
    · rw [tokens_build, tokens]
      simp
    · rw [numerals_operator kind, List.length_append, leavesL, replaceLeaf_right, tree_build, treeL, tree']
      rfl
  · obtain ⟨l', tokens, tree'⟩ := ihl before token between n l place number treeL
    have inside : (numerals before).length < l.leaves.length := by
      rw [← leavesL, place, numerals_append, numerals_cons_number number, List.length_append, List.length_cons]
      omega
    refine ⟨build sign kind l' right, ?_, ?_⟩
    · rw [tokens_build, tokens]
      simp
    · rw [replaceLeaf_left inside, tree_build, tree', treeR]
      rfl

end Call

namespace Derivation

/-! ## Equal kinds -/

/-- Only the kinds of tokens matter. -/
theorem readsKinds (d : Derivation level) : d.ReadsKinds := by
  induction d with
  | number token n kind =>
    intro others kinds
    obtain ⟨token', rfl, same⟩ := List.map_eq_singleton_iff.mp kinds
    exact ⟨.number token' n (same.trans kind), rfl, rfl⟩
  | group opening inner closing opens closes ih =>
    intro others kinds
    rw [tokens, List.map_cons, List.map_append] at kinds
    obtain ⟨opening', rest, rfl, sameOpening, kinds'⟩ := List.map_eq_cons_iff.mp kinds
    obtain ⟨inside, last, rfl, kindsInside, sameLast⟩ := List.map_eq_append_iff.mp kinds'
    obtain ⟨closing', rfl, sameClosing⟩ := List.map_eq_singleton_iff.mp sameLast
    obtain ⟨inner', rfl, tree⟩ := ih inside kindsInside
    exact ⟨.group opening' inner' closing' (sameOpening.trans opens) (sameClosing.trans closes), rfl, tree⟩
  | ofAtom operand ih =>
    intro others kinds
    obtain ⟨d', tokens, tree⟩ := ih others kinds
    exact ⟨.ofAtom d', tokens, tree⟩
  | ofPower operand ih =>
    intro others kinds
    obtain ⟨d', tokens, tree⟩ := ih others kinds
    exact ⟨.ofPower d', tokens, tree⟩
  | ofTerm operand ih =>
    intro others kinds
    obtain ⟨d', tokens, tree⟩ := ih others kinds
    exact ⟨.ofTerm d', tokens, tree⟩
  | pow left token right kind ihl ihr =>
    exact readsKinds_call (fun sign kind l r => .pow l sign r kind) (fun _ _ _ _ => rfl) (fun _ _ _ _ => rfl) kind
      ihl ihr
  | product left token op right kind isProduct ihl ihr =>
    exact readsKinds_call (fun sign kind l r => .product l sign op r kind isProduct) (fun _ _ _ _ => rfl)
      (fun _ _ _ _ => rfl) kind ihl ihr
  | sum left token op right kind isSum ihl ihr =>
    exact readsKinds_call (fun sign kind l r => .sum l sign op r kind isSum) (fun _ _ _ _ => rfl)
      (fun _ _ _ _ => rfl) kind ihl ihr

/-! ## An atom for a number -/

/-- An atom may stand for any number of a derivation. -/
theorem substitutes (d : Derivation level) {a : Derivation .atom} {u : CallTree} (treeA : a.tree? = some u) :
    d.Substitutes a u := by
  induction d with
  | number token' n' kind' =>
    intro before token after n t split kind tree
    obtain ⟨rfl, rfl, rfl⟩ : before = [] ∧ token' = token ∧ after = [] := by
      rcases List.cons_eq_append_iff.mp split with ⟨rfl, same⟩ | ⟨between, rfl, same⟩
      · simpa [eq_comm] using same
      · simp at same
    obtain ⟨x, -, rfl⟩ := Option.map_eq_some_iff.mp tree
    exact ⟨a, by simp, treeA⟩
  | group opening inner closing opens closes ih =>
    intro before token after n t split kind tree
    rw [tokens] at split
    -- The number is neither of the parentheses.
    rcases List.cons_eq_append_iff.mp split with ⟨rfl, same⟩ | ⟨behind, rfl, split'⟩
    · cases same
      simp [kind] at opens
    · rcases same_or_behind_or_before split' with ⟨-, rfl, -⟩ | ⟨between, -, none⟩ | ⟨between, place, rfl⟩
      · simp [kind] at closes
      · simp at none
      · obtain ⟨inner', tokens', tree'⟩ := ih behind token between n t place kind tree
        refine ⟨.group opening inner' closing opens closes, ?_, ?_⟩
        · simp [tokens, tokens']
        · rw [numerals_cons_other (by simp [opens])]
          exact tree'
  | ofAtom operand ih =>
    intro before token after n t split kind tree
    obtain ⟨d', tokens, tree'⟩ := ih before token after n t split kind tree
    exact ⟨.ofAtom d', tokens, tree'⟩
  | ofPower operand ih =>
    intro before token after n t split kind tree
    obtain ⟨d', tokens, tree'⟩ := ih before token after n t split kind tree
    exact ⟨.ofPower d', tokens, tree'⟩
  | ofTerm operand ih =>
    intro before token after n t split kind tree
    obtain ⟨d', tokens, tree'⟩ := ih before token after n t split kind tree
    exact ⟨.ofTerm d', tokens, tree'⟩
  | pow left token right kind ihl ihr =>
    exact substitutes_call (fun sign kind l r => .pow l sign r kind) (fun _ _ _ _ => rfl) (fun _ _ _ _ => rfl) kind
      ihl ihr
  | product left token op right kind isProduct ihl ihr =>
    exact substitutes_call (fun sign kind l r => .product l sign op r kind isProduct) (fun _ _ _ _ => rfl)
      (fun _ _ _ _ => rfl) kind ihl ihr
  | sum left token op right kind isSum ihl ihr =>
    exact substitutes_call (fun sign kind l r => .sum l sign op r kind isSum) (fun _ _ _ _ => rfl)
      (fun _ _ _ _ => rfl) kind ihl ihr

/-- A group may stand for any number of a derivation, whatever the offsets of the tokens are then. -/
theorem exists_substitute (d : Derivation level) {before after tokens : List Token} {token : Token} {n : Numeral}
    {t u : CallTree} (split : d.tokens = before ++ token :: after) (kind : token.kind = .number n)
    (tree : d.tree? = some t) (inner : Derivation .expr) (treeInner : inner.tree? = some u)
    (kinds : tokens.map Token.kind =
      before.map Token.kind ++ .openParen :: (inner.tokens.map Token.kind ++ .closeParen :: after.map Token.kind)) :
    ∃ d' : Derivation level, d'.tokens = tokens ∧ d'.tree? = some (t.replaceLeaf (numerals before).length u) := by
  obtain ⟨d', tokens', tree'⟩ := d.substitutes (a := .group ⟨0, .openParen, "("⟩ inner ⟨0, .closeParen, ")"⟩ rfl rfl)
    treeInner before token after n t split kind tree
  obtain ⟨moved, rfl, same⟩ := d'.readsKinds tokens (by simp [kinds, tokens', Derivation.tokens])
  exact ⟨moved, rfl, same.trans tree'⟩

end Derivation

end Grammar

end Polish
