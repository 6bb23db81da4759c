import Polish.Proofs.CallTree.Inverse
import Polish.Proofs.CallTree.Operands
import Polish.Proofs.Grammar.Substitution

/-!
# Reading by counting

How many trees there are when a token of a prefix sequence is read can be told from the tokens behind it: one for each
number, less one for each operator (`surplus`). So what the reader reports can be told without any trees. A token
reports something because of what it is or because of the surplus behind it (`Decides`), and the last token
that does so decides; if there is none, the surplus of the whole sequence does (`Verdict`).
-/

namespace Polish.CallTree

/-- How many numbers more than operators are among the tokens. -/
def surplus (tokens : List Token) : Int := (numerals tokens).length - (Polish.operators tokens).length

/-- What a token reports, given the tokens behind it. -/
inductive Decides (behind : List Token) (token : Token) : (chain : List String) → Prop where
  | unevaluated (n : Numeral) (kind : token.kind = .number n) (noValue : n.value? = none) :
      Decides behind token ["Number '" ++ n.literal ++ "' has not been converted"]
  | parenthesis (kind : token.kind = .openParen ∨ token.kind = .closeParen) :
      Decides behind token ["There should not be any parenthesis present in the input"]
  | noOperand (op : Operator) (kind : token.kind = .operator op) (count : surplus behind = 0) :
      Decides behind token ["Expected a second operand for " ++ token.trace,
        "Prefix sequence ended before the call tree was complete"]
  | oneOperand (op : Operator) (kind : token.kind = .operator op) (count : surplus behind = 1) :
      Decides behind token ["Expected a first operand for " ++ token.trace,
        "Prefix sequence ended before the call tree was complete"]

/-- No token reports anything. -/
def Undecided (tokens : List Token) : Prop :=
  ∀ before token behind chain, tokens = before ++ token :: behind → ¬ Decides behind token chain

/-- What is reported about a prefix sequence. -/
inductive Verdict (tokens : List Token) : (chain : List String) → Prop where
  /-- The last token that reports something. -/
  | token (before : List Token) (token : Token) (behind : List Token) (chain : List String)
      (split : tokens = before ++ token :: behind) (undecided : Undecided behind)
      (decides : Decides behind token chain) : Verdict tokens chain
  | noTree (empty : tokens = []) : Verdict tokens ["No call tree root found"]
  | severalTrees (undecided : Undecided tokens) (k : Nat) (count : surplus tokens = k) (several : 2 ≤ k) :
      Verdict tokens ["Found " ++ toString k ++ " call trees where the prefix sequence should hold one"]

section

variable {before behind tokens : List Token} {token : Token} {n : Numeral} {op : Operator}
  {operands next trees : List CallTree} {chain : List String} {e : StructureError} {t : CallTree}

/-! ## The surplus -/

theorem surplus_cons_number (kind : token.kind = .number n) (rest : List Token) :
    surplus (token :: rest) = surplus rest + 1 := by
  have noOperator : token.asOperator? = none := by simp [Token.asOperator?, kind]
  unfold surplus Polish.operators
  rw [numerals_cons_number kind, List.filterMap_cons_none noOperator, List.length_cons]
  omega

theorem surplus_cons_operator (kind : token.kind = .operator op) (rest : List Token) :
    surplus (token :: rest) = surplus rest - 1 := by
  have operator : token.asOperator? = some op := by simp [Token.asOperator?, kind]
  unfold surplus Polish.operators
  rw [numerals_cons_other (Grammar.ne_number_of_operator kind), List.filterMap_cons_some operator, List.length_cons]
  omega

/-- A token that is placed changes the number of trees by as much as the surplus. -/
theorem length_of_place (placed : place token operands = .ok next) (count : operands.length = surplus behind) :
    next.length = surplus (token :: behind) := by
  unfold place at placed
  split at placed
  · next n kind =>
    rw [surplus_cons_number kind]
    split at placed
    · cases placed
      simp only [List.length_cons]
      omega
    · cases placed
  · next op kind =>
    rw [surplus_cons_operator kind]
    split at placed
    · cases placed
      simp only [List.length_cons] at count ⊢
      omega
    all_goals cases placed
  all_goals cases placed

/-! ## One token -/

/-- With as many trees as the surplus says, a token reports what the reader reports. -/
theorem decides_iff (count : operands.length = surplus behind) :
    Decides behind token chain ↔ ∃ e, place token operands = .error e ∧ e.chain = chain := by
  constructor
  · intro decides
    cases decides with
    | unevaluated n kind noValue => exact ⟨.unevaluated n.literal, by simp [place, kind, noValue], rfl⟩
    | parenthesis kind =>
      refine ⟨.parenthesis, ?_, rfl⟩
      rcases kind with kind | kind <;> simp [place, kind]
    | noOperand op kind zero =>
      obtain rfl : operands = [] := List.length_eq_zero_iff.mp (by omega)
      exact ⟨.noOperand op, by simp [place, kind], StructureError.chain_noOperand kind⟩
    | oneOperand op kind one =>
      obtain ⟨operand, rfl⟩ := List.length_eq_one_iff.mp (show operands.length = 1 by omega)
      exact ⟨.oneOperand op, by simp [place, kind], StructureError.chain_oneOperand kind⟩
  · rintro ⟨e, failed, rfl⟩
    unfold place at failed
    split at failed
    · next n kind =>
      split at failed
      · cases failed
      · next noValue =>
        cases failed
        exact .unevaluated n kind noValue
    · next op kind =>
      split at failed
      · cases failed
      · cases failed
        rw [StructureError.chain_oneOperand kind]
        refine .oneOperand op kind ?_
        simp only [List.length_cons, List.length_nil] at count
        omega
      · cases failed
        rw [StructureError.chain_noOperand kind]
        refine .noOperand op kind ?_
        simp only [List.length_nil] at count
        omega
    · next kind =>
      cases failed
      exact .parenthesis (.inl kind)
    · next kind =>
      cases failed
      exact .parenthesis (.inr kind)

/-! ## From the end of the sequence -/

theorem undecided_nil : Undecided [] := by
  intro before token behind chain split
  simp at split

theorem undecided_cons : Undecided (token :: behind) ↔ Undecided behind ∧ ∀ chain, ¬ Decides behind token chain := by
  constructor
  · intro undecided
    constructor
    · intro before other rest chain split
      exact undecided (token :: before) other rest chain (by rw [split, List.cons_append])
    · intro chain
      exact undecided [] token behind chain rfl
  · rintro ⟨later, first⟩ before other rest chain split
    rcases List.cons_eq_append_iff.mp split with ⟨rfl, same⟩ | ⟨more, rfl, same⟩
    · cases same
      exact first chain
    · exact later more other rest chain same

/-- The first token of a sequence is placed last. -/
theorem placeAll_reverse_cons (token : Token) (behind : List Token) :
    placeAll (token :: behind).reverse [] = (placeAll behind.reverse []).bind (place token) := by
  rw [List.reverse_cons, placeAll, Fold.append]
  congr 1
  funext operands
  exact placeAll_singleton token operands

/-- What comes of the tokens of a sequence, the last one first. -/
inductive Reached (tokens : List Token) : Except StructureError (List CallTree) → Prop where
  | stopped (before : List Token) (token : Token) (behind : List Token) (split : tokens = before ++ token :: behind)
      (undecided : Undecided behind) (e : StructureError) (decides : Decides behind token e.chain) :
      Reached tokens (.error e)
  | start (undecided : Undecided tokens) (trees : List CallTree) (count : trees.length = surplus tokens) :
      Reached tokens (.ok trees)

/-- The reader stops at the last token that reports something, and has as many trees as the surplus says until then. -/
theorem reached (tokens : List Token) : Reached tokens (placeAll tokens.reverse []) := by
  induction tokens with
  | nil => exact .start undecided_nil [] rfl
  | cons token behind ih =>
    rw [placeAll_reverse_cons]
    generalize placeAll behind.reverse [] = result at ih
    cases ih with
    | stopped before other rest split undecided e decides =>
      exact .stopped (token :: before) other rest (by rw [split, List.cons_append]) undecided e decides
    | start undecided trees count =>
      show Reached (token :: behind) (place token trees)
      cases step : place token trees with
      | error e => exact .stopped [] token behind rfl undecided e ((decides_iff count).mpr ⟨e, step, rfl⟩)
      | ok next =>
        refine .start (undecided_cons.mpr ⟨undecided, ?_⟩) next (length_of_place step count)
        intro chain decides
        obtain ⟨e, failed, -⟩ := (decides_iff count).mp decides
        rw [step] at failed
        cases failed

theorem exists_trees_of_undecided (undecided : Undecided tokens) :
    ∃ trees, placeAll tokens.reverse [] = .ok trees ∧ trees.length = surplus tokens := by
  have reached := reached tokens
  generalize placeAll tokens.reverse [] = result at reached
  cases reached with
  | stopped before token behind split _ e decides => exact absurd decides (undecided before token behind _ split)
  | start _ trees count => exact ⟨trees, rfl, count⟩

theorem exists_error_of_decides (undecided : Undecided behind) (decides : Decides behind token chain)
    (before : List Token) : ∃ e, placeAll (before ++ token :: behind).reverse [] = .error e ∧ e.chain = chain := by
  obtain ⟨trees, placed, count⟩ := exists_trees_of_undecided undecided
  obtain ⟨e, failed, told⟩ := (decides_iff count).mp decides
  refine ⟨e, ?_, told⟩
  have stops : placeAll (token :: behind).reverse [] = .error e := by
    rw [placeAll_reverse_cons, placed]
    exact failed
  rw [List.reverse_append]
  exact Fold.append_of_error stops _

/-! ## The whole sequence -/

/-- An operator that reports nothing has two trees, so at least one is left in front of any token. -/
theorem surplus_pos_of_undecided (undecided : Undecided (token :: behind)) : 0 < surplus (token :: behind) := by
  obtain ⟨later, first⟩ := undecided_cons.mp undecided
  obtain ⟨trees, -, count⟩ := exists_trees_of_undecided later
  cases kind : token.kind with
  | number n =>
    rw [surplus_cons_number kind]
    omega
  | openParen => exact absurd (.parenthesis (.inl kind)) (first _)
  | closeParen => exact absurd (.parenthesis (.inr kind)) (first _)
  | operator op =>
    have some : surplus behind ≠ 0 := fun none => first _ (.noOperand op kind none)
    have several : surplus behind ≠ 1 := fun one => first _ (.oneOperand op kind one)
    rw [surplus_cons_operator kind]
    omega

/-- Only an empty sequence leaves no tree. -/
theorem eq_nil_of_surplus_eq_zero (undecided : Undecided tokens) (none : surplus tokens = 0) : tokens = [] := by
  cases tokens with
  | nil => rfl
  | cons token behind =>
    have := surplus_pos_of_undecided undecided
    omega

theorem only_eq_error_iff {trees : List CallTree} :
    only trees = .error e ↔ (trees = [] ∧ e = .noTree) ∨ (2 ≤ trees.length ∧ e = .severalTrees trees.length) := by
  rcases trees with _ | ⟨first, _ | ⟨second, others⟩⟩
  · simp [only, eq_comm]
  · simp [only]
  · simp [only, eq_comm]

theorem verdict_of_error (failed : ofPrefix tokens = .error e) : Verdict tokens e.chain := by
  unfold ofPrefix at failed
  have reached := reached tokens
  generalize placeAll tokens.reverse [] = result at reached failed
  cases reached with
  | stopped before token behind split undecided e' decides =>
    cases failed
    exact .token before token behind _ split undecided decides
  | start undecided trees count =>
    rcases only_eq_error_iff.mp failed with ⟨rfl, rfl⟩ | ⟨several, rfl⟩
    · exact .noTree (eq_nil_of_surplus_eq_zero undecided count.symm)
    · exact .severalTrees undecided _ count.symm several

theorem exists_error_of_verdict (verdict : Verdict tokens chain) :
    ∃ e, ofPrefix tokens = .error e ∧ e.chain = chain := by
  cases verdict with
  | token before token behind chain split undecided decides =>
    subst split
    obtain ⟨e, failed, told⟩ := exists_error_of_decides undecided decides before
    refine ⟨e, ?_, told⟩
    rw [ofPrefix, failed]
    rfl
  | noTree empty =>
    subst empty
    exact ⟨.noTree, rfl, rfl⟩
  | severalTrees undecided k count several =>
    obtain ⟨trees, placed, length⟩ := exists_trees_of_undecided undecided
    obtain rfl : trees.length = k := by omega
    refine ⟨.severalTrees trees.length, ?_, rfl⟩
    rw [ofPrefix, placed]
    exact only_eq_error_iff.mpr (.inr ⟨several, rfl⟩)

theorem exists_ofPrefix_iff : (∃ t, ofPrefix tokens = .ok t) ↔ Undecided tokens ∧ surplus tokens = 1 := by
  unfold ofPrefix
  have reached := reached tokens
  generalize placeAll tokens.reverse [] = result at reached
  cases reached with
  | stopped before token behind split undecided e decides =>
    constructor
    · rintro ⟨t, read⟩
      cases read
    · rintro ⟨nothing, -⟩
      exact absurd decides (nothing before token behind _ split)
  | start undecided trees count =>
    show (∃ t, only trees = .ok t) ↔ _
    simp only [only_eq_ok_iff, undecided, ← count, true_and]
    rw [← List.length_eq_one_iff]
    omega

end

/-- The outcome of reading a prefix sequence by counting. What is reported is what the last token that reports something
says, or else that the sequence is empty or how many trees there are if there are several; and otherwise, with one
number more than operators, a tree is read. -/
theorem ofPrefix_reports (tokens : List Token) :
    (∀ chain, (∃ e, ofPrefix tokens = .error e ∧ e.chain = chain) ↔ Verdict tokens chain) ∧
      ((∃ t, ofPrefix tokens = .ok t) ↔ Undecided tokens ∧ tokens ≠ [] ∧ ¬ 2 ≤ surplus tokens) ∧
      ((∃ t, ofPrefix tokens = .ok t) ↔ Undecided tokens ∧ surplus tokens = 1) := by
  refine ⟨?_, ?_, exists_ofPrefix_iff⟩
  · intro chain
    constructor
    · rintro ⟨e, failed, rfl⟩
      exact verdict_of_error failed
    · exact exists_error_of_verdict
  · rw [exists_ofPrefix_iff]
    constructor
    · rintro ⟨undecided, one⟩
      refine ⟨undecided, ?_, by omega⟩
      rintro rfl
      cases one
    · rintro ⟨undecided, some, few⟩
      obtain ⟨token, behind, rfl⟩ := List.exists_cons_of_ne_nil some
      have := surplus_pos_of_undecided undecided
      exact ⟨undecided, by omega⟩

end Polish.CallTree
