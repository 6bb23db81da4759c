import Polish.Proofs.Expression.Stages
import Polish.Proofs.ShuntingYard.Correspondence

/-!
# What becomes of corresponding tokens

Two expressions whose tokens are of the same kinds, one by one, have the same prefix trace and the same call text, or
both have no call tree for the same reason, or both are refused for the same cause (`SameResult`). In the last case
the two errors are about corresponding tokens.
-/

namespace Polish

namespace CallTree

variable {P : Nat → Nat → Prop} {a b : Token} {as bs : List Token}

theorem place_eq_of_same (same : a.kind.Same b.kind) (operands : List CallTree) :
    place a operands = place b operands := by
  obtain ⟨offset, kind, text⟩ := a
  obtain ⟨offset', kind', text'⟩ := b
  cases same with
  | number numeral => simp only [place, numeral.value?, numeral.literal]
  | openParen => rfl
  | closeParen => rfl
  | operator op => rfl

theorem placeAll_eq_of_corresponds (tokens : List.Forall₂ (Token.Corresponds P) as bs) (operands : List CallTree) :
    placeAll as operands = placeAll bs operands := by
  induction tokens generalizing operands with
  | nil => rfl
  | cons first more ih =>
    rw [placeAll, placeAll, Fold.cons, Fold.cons, place_eq_of_same first.kind]
    cases place _ operands with
    | ok next => exact ih next
    | error e => rfl

/-- The reader of prefix sequences looks at the kinds of the tokens only. -/
theorem ofPrefix_eq_of_corresponds (tokens : List.Forall₂ (Token.Corresponds P) as bs) : ofPrefix as = ofPrefix bs := by
  rw [ofPrefix, ofPrefix, placeAll_eq_of_corresponds (List.rel_reverse tokens)]

end CallTree

namespace Expression

open CallTree

/-- The same becomes of two expressions, but for the places of errors, which are related by `P`. -/
inductive SameResult (P : Nat → Nat → Prop) (expression other : String) : Prop where
  /-- Both have the same prefix trace and the same call text. -/
  | rendered (reordered reordered' : List Token) (text : String) (converted : convert expression = .ok reordered)
      (converted' : convert other = .ok reordered') (trace : Token.traceAll reordered = Token.traceAll reordered')
      (rendered : render expression = .ok text) (rendered' : render other = .ok text)
  /-- Both have the same prefix trace, and for the same reason no call tree. -/
  | unfinished (reordered reordered' : List Token) (cause : StructureError)
      (converted : convert expression = .ok reordered) (converted' : convert other = .ok reordered')
      (trace : Token.traceAll reordered = Token.traceAll reordered')
      (failed : ofPrefix reordered = .error cause) (failed' : ofPrefix reordered' = .error cause)
  /-- The tokens of both are refused for the same cause. -/
  | refused (cause : SyntaxError.Cause) (first second : Nat) (failed : convert expression = .error ⟨cause, first⟩)
      (failed' : convert other = .error ⟨cause, second⟩) (offsets : P first second)

/-- The offsets are those of two tokens with the same index. -/
def AtSameIndex (as bs : List Token) (first second : Nat) : Prop :=
  ∃ (index : Nat) (a b : Token), as[index]? = some a ∧ bs[index]? = some b ∧ first = a.offset ∧ second = b.offset

variable {P : Nat → Nat → Prop} {expression other : String} {as bs : List Token}

theorem corresponds_atSameIndex (same : List.Forall₂ (fun a b : Token => a.kind.Same b.kind) as bs) :
    List.Forall₂ (Token.Corresponds (AtSameIndex as bs)) as bs := by
  refine List.forall₂_iff_get.mpr ⟨same.length_eq, ?_⟩
  intro index inside inside'
  refine ⟨same.get inside inside', index, _, _, ?_, ?_, rfl, rfl⟩
  · exact List.getElem?_eq_getElem inside
  · exact List.getElem?_eq_getElem inside'

/-- The same becomes of expressions whose tokens correspond. -/
theorem sameResult_of_corresponds (read : Lexer.tokenize expression = .ok as) (read' : Lexer.tokenize other = .ok bs)
    (tokens : List.Forall₂ (Token.Corresponds P) as bs) : SameResult P expression other := by
  have converted := convert_of_tokenize read
  have converted' := convert_of_tokenize read'
  have verdict := ShuntingYard.sameVerdict_toPrefix tokens
  rw [← converted, ← converted'] at verdict
  generalize first : convert expression = x at verdict
  generalize second : convert other = y at verdict
  cases verdict with
  | refused cause offsets => exact .refused cause _ _ first second offsets
  | @accepted reordered reordered' results =>
    have trace := Token.traceAll_eq results
    have trees := ofPrefix_eq_of_corresponds results
    cases parsed : ofPrefix reordered with
    | error cause => exact .unfinished _ _ cause first second trace parsed (trees ▸ parsed)
    | ok t =>
      have parsed' : ofPrefix reordered' = .ok t := trees ▸ parsed
      have rendered := render_of_tree (tree_eq_ok_iff.mpr ⟨reordered, first, parsed⟩)
      have rendered' := render_of_tree (tree_eq_ok_iff.mpr ⟨reordered', second, parsed'⟩)
      exact .rendered _ _ t.callText first second trace rendered rendered'

end Expression

end Polish
