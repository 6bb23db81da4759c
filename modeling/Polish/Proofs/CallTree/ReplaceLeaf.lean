import Polish.Proofs.CallTree.InfixText

/-!
# Replacing a leaf

`replaceLeaf` puts a tree in the place of one leaf, which is counted from the left. The other leaves and all calls stay
as they are: a leaf in its own place gives the tree again.
-/

namespace Polish.CallTree

/-- The tree with another tree in place of a leaf, `index` leaves being to the left of it. -/
def replaceLeaf : CallTree → (index : Nat) → (new : CallTree) → CallTree
  | number _, 0, new => new
  | number x, _ + 1, _ => number x
  | call op left right, index, new =>
    if index < left.leaves.length then call op (left.replaceLeaf index new) right
    else call op left (right.replaceLeaf (index - left.leaves.length) new)

variable {op : Operator} {left right t : CallTree} {index : Nat} {x : Binary64}

theorem replaceLeaf_left (inside : index < left.leaves.length) (new : CallTree) :
    (call op left right).replaceLeaf index new = call op (left.replaceLeaf index new) right := by
  rw [replaceLeaf, if_pos inside]

theorem replaceLeaf_right (index : Nat) (new : CallTree) :
    (call op left right).replaceLeaf (left.leaves.length + index) new = call op left (right.replaceLeaf index new) := by
  rw [replaceLeaf, if_neg (by omega), Nat.add_sub_cancel_left]

/-- An index of the leaves of a call belongs to a leaf on the left, or to one on the right. -/
theorem left_or_right (leaf : (call op left right).leaves[index]? = some x) :
    (index < left.leaves.length ∧ left.leaves[index]? = some x) ∨
      ∃ k, index = left.leaves.length + k ∧ right.leaves[k]? = some x := by
  rw [leaves] at leaf
  by_cases inside : index < left.leaves.length
  · rw [List.getElem?_append_left inside] at leaf
    exact .inl ⟨inside, leaf⟩
  · rw [List.getElem?_append_right (by omega)] at leaf
    exact .inr ⟨index - left.leaves.length, by omega, leaf⟩

/-- A leaf in its own place leaves the tree as it is. -/
theorem replaceLeaf_self (leaf : t.leaves[index]? = some x) : t.replaceLeaf index (number x) = t := by
  induction t generalizing index with
  | number y =>
    cases index with
    | zero =>
      cases leaf
      rfl
    | succ index => simp [leaves] at leaf
  | call op left right ihl ihr =>
    rcases left_or_right leaf with ⟨inside, leafL⟩ | ⟨k, rfl, leafR⟩
    · rw [replaceLeaf_left inside, ihl leafL]
    · rw [replaceLeaf_right, ihr leafR]

/-- The leaves of the new tree take the place of the leaf. -/
theorem leaves_replaceLeaf (leaf : t.leaves[index]? = some x) (new : CallTree) :
    (t.replaceLeaf index new).leaves = t.leaves.take index ++ new.leaves ++ t.leaves.drop (index + 1) := by
  induction t generalizing index with
  | number y =>
    cases index with
    | zero => simp [replaceLeaf, leaves]
    | succ index => simp [leaves] at leaf
  | call op left right ihl ihr =>
    rcases left_or_right leaf with ⟨inside, leafL⟩ | ⟨k, rfl, leafR⟩
    · rw [replaceLeaf_left inside, leaves, leaves, ihl leafL, List.take_append_of_le_length (Nat.le_of_lt inside),
        List.drop_append_of_le_length inside]
      simp only [List.append_assoc]
    · rw [replaceLeaf_right, leaves, leaves, ihr leafR, Nat.add_assoc, List.take_length_add_append,
        List.drop_length_add_append]
      simp only [List.append_assoc]

end Polish.CallTree
