import Polish.CallTree.OfPrefix

/-!
# Trees as prefix sequences

`CallTree.flatten` lists the operators and numbers of a tree, an operator before its operands and the right operand
before the left. `Writes` says that a sequence of tokens stands for that list. What writes a tree is read as that
tree, whatever operands were read before (`placeAll_of_writes`).
-/

namespace Polish

/-- What a prefix sequence is made of. -/
inductive Symbol where
  | number (value : Binary64)
  | operator (op : Operator)
deriving DecidableEq

/-- The symbol that a token stands for in a prefix sequence, if any. -/
def Token.symbol? (token : Token) : Option Symbol :=
  match token.kind with
  | .number n => n.value?.map .number
  | .operator op => some (.operator op)
  | .openParen | .closeParen => none

namespace CallTree

/-- The symbols of a tree in prefix order, the right operand before the left. -/
def flatten : CallTree → List Symbol
  | number x => [.number x]
  | call op left right => .operator op :: (flatten right ++ flatten left)

/-- The tokens stand for the symbols of the tree. -/
def Writes (tokens : List Token) (t : CallTree) : Prop := tokens.map Token.symbol? = t.flatten.map some

theorem writes_call {token : Token} {op : Operator} {rights lefts : List Token} {left right : CallTree}
    (operator : token.kind = .operator op) (writesRight : Writes rights right) (writesLeft : Writes lefts left) :
    Writes (token :: (rights ++ lefts)) (.call op left right) := by
  unfold Writes at writesRight writesLeft ⊢
  simp [flatten, Token.symbol?, operator, writesRight, writesLeft]

/-! ## Placing tokens -/

theorem placeAll_singleton (token : Token) (operands : List CallTree) :
    placeAll [token] operands = place token operands :=
  Fold.singleton _ operands token

theorem placeAll_cons_of_place {token : Token} {operands next : List CallTree}
    (placed : place token operands = .ok next) (earlier : List Token) :
    placeAll (token :: earlier) operands = placeAll earlier next :=
  Fold.cons_of_ok placed earlier

theorem placeAll_append_of_placeAll {front : List Token} {operands rest : List CallTree}
    (placed : placeAll front operands = .ok rest) (back : List Token) :
    placeAll (front ++ back) operands = placeAll back rest :=
  Fold.append_of_ok placed back

theorem place_of_number {token : Token} {x : Binary64} (symbol : token.symbol? = some (.number x))
    (operands : List CallTree) : place token operands = .ok (number x :: operands) := by
  unfold Token.symbol? at symbol
  split at symbol
  · next n kind =>
    cases value : n.value? with
    | none => simp [value] at symbol
    | some y =>
      simp only [value, Option.map_some, Option.some.injEq, Symbol.number.injEq] at symbol
      simp [place, kind, value, symbol]
  all_goals cases symbol

theorem kind_of_operator {token : Token} {op : Operator} (symbol : token.symbol? = some (.operator op)) :
    token.kind = .operator op := by
  unfold Token.symbol? at symbol
  split at symbol
  · next n kind => cases value : n.value? <;> simp [value] at symbol
  · next kind =>
    cases symbol
    exact kind
  all_goals cases symbol

theorem place_of_operator {token : Token} {op : Operator} (operator : token.kind = .operator op)
    (right left : CallTree) (operands : List CallTree) :
    place token (right :: left :: operands) = .ok (call op left right :: operands) := by
  simp [place, operator]

/-! ## Reading what writes a tree -/

/-- The induction is on the tree: its tokens are the operator, those of the right operand and those of the left, and
they are read in the opposite order. -/
theorem placeAll_of_writes {t : CallTree} {tokens : List Token} (writes : Writes tokens t)
    (operands : List CallTree) : placeAll tokens.reverse operands = .ok (t :: operands) := by
  induction t generalizing tokens operands with
  | number x =>
    obtain ⟨token, rfl, symbol⟩ := List.map_eq_singleton_iff.mp writes
    rw [List.reverse_singleton, placeAll_singleton, place_of_number symbol]
  | call op left right ihl ihr =>
    have symbols : tokens.map Token.symbol? =
        some (.operator op) :: (right.flatten.map some ++ left.flatten.map some) := by
      rw [writes, flatten, List.map_cons, List.map_append]
    obtain ⟨token, rest, rfl, symbol, more⟩ := List.map_eq_cons_iff.mp symbols
    obtain ⟨rights, lefts, rfl, writesRight, writesLeft⟩ := List.map_eq_append_iff.mp more
    rw [List.reverse_cons, List.reverse_append, List.append_assoc,
      placeAll_append_of_placeAll (ihl writesLeft operands),
      placeAll_append_of_placeAll (ihr writesRight (left :: operands)), placeAll_singleton,
      place_of_operator (kind_of_operator symbol)]

theorem ofPrefix_of_writes {t : CallTree} {tokens : List Token} (writes : Writes tokens t) :
    ofPrefix tokens = .ok t := by
  rw [ofPrefix, placeAll_of_writes writes]
  rfl

end CallTree

end Polish
