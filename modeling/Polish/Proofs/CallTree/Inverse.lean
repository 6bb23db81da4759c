import Polish.Proofs.CallTree.Flatten

/-!
# Reading inverts flattening

A sequence is read as a tree exactly if it stands for the symbols of the tree. A token that is placed puts its symbol
in front of those of the operands (`exists_symbol_of_place`), so what has been placed can be read off the operands at
any time, and nothing that is read goes missing (`symbols_of_placeAll`).

Hence a tree is determined by its symbols, and a sequence that is read has one number more than it has operators.
-/

namespace Polish

/-- The operator of a symbol, if it is one. -/
def Symbol.operator? : Symbol → Option Operator
  | number _ => none
  | operator op => some op

/-- A token that stands for the symbol. -/
def Symbol.token : Symbol → Token
  | number x => ⟨0, .number { literal := x.text, value? := some x }, x.text⟩
  | operator op => ⟨0, .operator op, .singleton op.symbol⟩

namespace Token

/-- The operator that the token is, if any. -/
def asOperator? (t : Token) : Option Operator :=
  match t.kind with
  | .operator op => some op
  | .number _ | .openParen | .closeParen => none

@[simp] theorem symbol?_token (symbol : Symbol) : symbol.token.symbol? = some symbol := by
  cases symbol with
  | number x => rfl
  | operator op => rfl

/-- The operator of a token is that of its symbol. -/
theorem asOperator?_eq_bind (t : Token) : t.asOperator? = t.symbol?.bind Symbol.operator? := by
  rw [asOperator?, symbol?]
  cases t.kind with
  | number n => cases value : n.value? <;> simp [value, Symbol.operator?]
  | openParen => rfl
  | closeParen => rfl
  | operator op => rfl

/-- The tokens with a symbol are the operators and the numbers with a value. -/
theorem exists_symbol_iff {t : Token} :
    (∃ symbol, t.symbol? = some symbol) ↔
      (∃ op, t.kind = .operator op) ∨ ∃ n x, t.kind = .number n ∧ n.value? = some x := by
  rw [symbol?]
  cases t.kind with
  | number n => cases value : n.value? <;> simp [value]
  | openParen => simp
  | closeParen => simp
  | operator op => simp

end Token

/-- The operators among the tokens. -/
def operators (tokens : List Token) : List Operator := tokens.filterMap Token.asOperator?

namespace CallTree

/-- The operators of a tree in prefix order. -/
def operators : CallTree → List Operator
  | number _ => []
  | call op left right => op :: (right.operators ++ left.operators)

theorem filterMap_operator_flatten (t : CallTree) : t.flatten.filterMap Symbol.operator? = t.operators := by
  induction t with
  | number x => rfl
  | call op left right ihl ihr =>
    have first : Symbol.operator? (.operator op) = some op := rfl
    rw [flatten, List.filterMap_cons_some first, List.filterMap_append, ihl, ihr, operators]

/-- A tree has one number more than it has operators. -/
theorem length_flatten (t : CallTree) : t.flatten.length = 2 * t.operators.length + 1 := by
  induction t with
  | number x => rfl
  | call op left right ihl ihr =>
    simp only [flatten, operators, List.length_cons, List.length_append, ihl, ihr]
    omega

/-! ## What is written -/

variable {token : Token} {tokens : List Token} {t : CallTree}

/-- What writes a tree consists of tokens with symbols, and these are the symbols of the tree. -/
theorem writes_iff :
    Writes tokens t ↔ (∀ token ∈ tokens, ∃ symbol, token.symbol? = some symbol) ∧
      tokens.filterMap Token.symbol? = t.flatten := by
  rw [Writes]
  generalize t.flatten = symbols
  induction tokens generalizing symbols with
  | nil => cases symbols <;> simp
  | cons token rest ih =>
    cases symbol : token.symbol? with
    | none => cases symbols <;> simp [symbol]
    | some first => cases symbols <;> simp [symbol, ih, and_left_comm]

theorem writes_token (t : CallTree) : Writes (t.flatten.map Symbol.token) t := by
  rw [Writes, List.map_map]
  exact List.map_congr_left fun symbol _ => Token.symbol?_token symbol

/-- The operators of a tree are those of the tokens that write it. -/
theorem operators_of_writes (writes : Writes tokens t) : Polish.operators tokens = t.operators := by
  obtain ⟨-, symbols⟩ := writes_iff.mp writes
  calc Polish.operators tokens = tokens.filterMap fun token => token.symbol?.bind Symbol.operator? := by
        simp only [Polish.operators, ← Token.asOperator?_eq_bind]
    _ = (tokens.filterMap Token.symbol?).filterMap Symbol.operator? := List.filterMap_filterMap.symm
    _ = t.operators := by rw [symbols, filterMap_operator_flatten]

theorem length_of_writes (writes : Writes tokens t) : tokens.length = 2 * (Polish.operators tokens).length + 1 := by
  have symbols := congrArg List.length writes
  rw [List.length_map, List.length_map, length_flatten] at symbols
  rw [symbols, operators_of_writes writes]

/-! ## What is read -/

/-- A token that is placed puts its symbol in front of the symbols of the operands. -/
theorem exists_symbol_of_place {operands next : List CallTree} (placed : place token operands = .ok next) :
    ∃ symbol, token.symbol? = some symbol ∧ next.flatMap flatten = symbol :: operands.flatMap flatten := by
  rw [place] at placed
  rw [Token.symbol?]
  cases kind : token.kind with
  | number n =>
    cases value : n.value? with
    | none => simp [kind, value] at placed
    | some x =>
      simp only [kind, value, Except.ok.injEq] at placed
      subst placed
      exact ⟨.number x, by simp [value], rfl⟩
  | operator op =>
    cases operands with
    | nil => simp [kind] at placed
    | cons right others =>
      cases others with
      | nil => simp [kind] at placed
      | cons left rest =>
        simp only [kind, Except.ok.injEq] at placed
        subst placed
        exact ⟨.operator op, rfl, by simp [flatten]⟩
  | openParen => simp [kind] at placed
  | closeParen => simp [kind] at placed

/-- Whatever operands there were, the symbols of the tokens that are placed are now in front of theirs. -/
theorem symbols_of_placeAll {operands last : List CallTree} (placed : placeAll tokens operands = .ok last) :
    (last.flatMap flatten).map some =
      tokens.reverse.map Token.symbol? ++ (operands.flatMap flatten).map some := by
  -- What is placed later comes in front, so the symbol of the first token ends up next to those of the operands.
  induction tokens generalizing operands with
  | nil =>
    cases placed
    rfl
  | cons token earlier ih =>
    obtain ⟨next, step, more⟩ := Fold.exists_of_cons placed
    obtain ⟨symbol, here, symbols⟩ := exists_symbol_of_place step
    rw [ih more, symbols, List.map_cons, ← here, List.reverse_cons, List.map_append]
    simp

theorem only_eq_ok_iff {trees : List CallTree} : only trees = .ok t ↔ trees = [t] := by
  cases trees with
  | nil => simp [only]
  | cons tree others => cases others <;> simp [only]

/-- What is read as a tree writes the tree. -/
theorem writes_of_ofPrefix (parsed : ofPrefix tokens = .ok t) : Writes tokens t := by
  rw [ofPrefix] at parsed
  cases placed : placeAll tokens.reverse [] with
  | error e => simp [placed, Except.bind] at parsed
  | ok last =>
    rw [placed] at parsed
    obtain rfl := only_eq_ok_iff.mp parsed
    have symbols := symbols_of_placeAll placed
    simpa [Writes, eq_comm] using symbols

theorem ofPrefix_eq_ok_iff_writes : ofPrefix tokens = .ok t ↔ Writes tokens t :=
  ⟨writes_of_ofPrefix, ofPrefix_of_writes⟩

/-- The symbols of two trees differ if the trees do. -/
theorem flatten_injective : Function.Injective flatten := by
  intro a b same
  have readA := ofPrefix_of_writes a.writes_token
  rw [same, ofPrefix_of_writes b.writes_token] at readA
  cases readA
  rfl

/-- Reading inverts flattening. A sequence is read as a tree exactly if it consists of operators and of numbers with a
value, and these are the symbols of the tree. So no two trees have the same symbols, every tree is read from its own,
and the length of what is read is odd. -/
theorem ofPrefix_eq_ok_iff_flatten :
    (∀ tokens t, ofPrefix tokens = .ok t ↔
      (∀ token ∈ tokens, (∃ op, token.kind = .operator op) ∨ ∃ n x, token.kind = .number n ∧ n.value? = some x) ∧
        tokens.filterMap Token.symbol? = t.flatten) ∧
    Function.Injective flatten ∧
    (∀ t, ofPrefix (t.flatten.map Symbol.token) = .ok t) ∧
    ∀ tokens t, ofPrefix tokens = .ok t → tokens.length = 2 * (Polish.operators tokens).length + 1 := by
  refine ⟨?_, flatten_injective, fun t => ofPrefix_of_writes t.writes_token, ?_⟩
  · intro tokens t
    simp only [← Token.exists_symbol_iff]
    exact ofPrefix_eq_ok_iff_writes.trans writes_iff
  · intro tokens t parsed
    exact length_of_writes (writes_of_ofPrefix parsed)

theorem ofPrefix_eq_ok_iff_flatten_nan :
    ∃ tokens t, Token.traceAll tokens = "[sub][num:NaN][pow][num:2][num:-inf]" ∧ ofPrefix tokens = .ok t ∧
      tokens.filterMap Token.symbol? = t.flatten ∧ tokens.length = 2 * (Polish.operators tokens).length + 1 := by
  generalize tree_eq : call .sub (call .pow (number (.infinity true)) (number (.ofBits 0x4000000000000000)))
    (number .nan) = t
  have traced : Token.traceAll (t.flatten.map Symbol.token) = "[sub][num:NaN][pow][num:2][num:-inf]" := by
    rw [← tree_eq]
    decide +kernel
  obtain ⟨iff, -, reads, length⟩ := ofPrefix_eq_ok_iff_flatten
  exact ⟨t.flatten.map Symbol.token, t, traced, reads t, ((iff _ t).mp (reads t)).2, length _ t (reads t)⟩

end CallTree

end Polish
