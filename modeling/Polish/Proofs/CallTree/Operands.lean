import Polish.Proofs.CallTree.Flatten

/-!
# Counting operands

An operator turns two operands into one. So a row of operators can be placed as long as there are more operands than
operators, and when there are just as many, the last operator finds only one. An error about a missing operand names
the operator by its trace form, and one about a tree that is not drawn names its depth.
-/

namespace Polish

namespace StructureError

variable {token : Token} {op : Operator}

theorem chain_noOperand (kind : token.kind = .operator op) :
    (noOperand op).chain = ["Expected a second operand for " ++ token.trace,
      "Prefix sequence ended before the call tree was complete"] := by
  have bracket : "Expected a second operand for [" = "Expected a second operand for " ++ "[" := by decide
  rw [chain, endedEarly, Token.trace, kind, Token.Kind.label, bracket]
  simp only [String.append_assoc]

theorem chain_oneOperand (kind : token.kind = .operator op) :
    (oneOperand op).chain = ["Expected a first operand for " ++ token.trace,
      "Prefix sequence ended before the call tree was complete"] := by
  have bracket : "Expected a first operand for [" = "Expected a first operand for " ++ "[" := by decide
  rw [chain, endedEarly, Token.trace, kind, Token.Kind.label, bracket]
  simp only [String.append_assoc]

theorem chain_tooDeep (depth : Nat) :
    (tooDeep depth 256).chain =
      ["Call tree is " ++ toString depth ++ " levels deep, too deep to draw (at most 256)"] := by
  have closing : " levels deep, too deep to draw (at most 256)" =
    " levels deep, too deep to draw (at most " ++ toString 256 ++ ")" := by decide
  rw [closing, chain]
  simp only [String.append_assoc]

end StructureError

namespace CallTree

theorem length_placeAll_operators {row : List Token} (operators : ∀ token ∈ row, ∃ op, token.kind = .operator op)
    {operands : List CallTree} (enough : row.length < operands.length) :
    ∃ rest, placeAll row operands = .ok rest ∧ rest.length + row.length = operands.length := by
  induction row generalizing operands with
  | nil => exact ⟨operands, rfl, rfl⟩
  | cons token row ih =>
    obtain ⟨op, kind⟩ := operators token List.mem_cons_self
    match operands, enough with
    | right :: left :: operands, enough =>
      have fewer : row.length < (call op left right :: operands).length := by simp at enough ⊢; omega
      obtain ⟨rest, placed, count⟩ := ih (fun other member => operators other (List.mem_cons_of_mem _ member)) fewer
      refine ⟨rest, ?_, by simp at count ⊢; omega⟩
      rw [placeAll_cons_of_place (place_of_operator kind right left operands), placed]

/-- With as many operands as operators the last operator is left with one operand. -/
theorem placeAll_operators_eq_error {row : List Token} {last : Token} {op : Operator}
    (operators : ∀ token ∈ row, ∃ op, token.kind = .operator op) (kind : last.kind = .operator op)
    {operands : List CallTree} (short : operands.length = row.length + 1) :
    placeAll (row ++ [last]) operands = .error (.oneOperand op) := by
  obtain ⟨rest, placed, count⟩ := length_placeAll_operators operators (show row.length < operands.length by omega)
  obtain ⟨operand, rfl⟩ := List.length_eq_one_iff.mp (show rest.length = 1 by omega)
  rw [placeAll_append_of_placeAll placed, placeAll_singleton]
  simp [place, kind]

end CallTree

end Polish
