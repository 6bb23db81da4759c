import Polish.Proofs.CallTree.Lines
import Polish.Proofs.CallTree.Pieces

/-!
# Measuring the depth of a tree

`deepest` is a loop over the greatest level seen so far and the trees that wait (`Measuring`). A turn looks at the level
of the first tree and lets its operands wait. The level that will have been seen in the end does not change with
a turn (`result_turn`), and the number of turns that are left, one for each node, goes down by one (`turnsLeft_turn`).

The depth is also what the call text is indented by: no line begins with more than two blanks for each level, and some
line begins with as many.
-/

namespace Polish.CallTree

open Line (indented commaIf)
open Text (lines)

/-- The operands of a call, each with the level. -/
def operandsAt (level : Nat) : CallTree → List (CallTree × Nat)
  | number _ => []
  | call _ left right => [(right, level), (left, level)]

/-- The loop between two turns. -/
structure Measuring where
  /-- The greatest level seen so far. -/
  seen : Nat
  /-- The trees that wait, each with its level, the next one first. -/
  waiting : List (CallTree × Nat)

namespace Measuring

/-- One turn of the loop. -/
def turn : Measuring → Measuring
  | ⟨seen, []⟩ => ⟨seen, []⟩
  | ⟨seen, (t, level) :: rest⟩ => ⟨max seen level, t.operandsAt (level + 1) ++ rest⟩

/-- The greatest level that will have been seen in the end. -/
def result (m : Measuring) : Nat := deepest m.seen m.waiting

/-- The number of turns until nothing waits. -/
def turnsLeft (m : Measuring) : Nat := sizeOfAll m.waiting

theorem result_turn (m : Measuring) : m.turn.result = m.result := by
  obtain ⟨seen, waiting⟩ := m
  match waiting with
  | [] => rfl
  | (number x, level) :: rest =>
    unfold result turn
    rw [deepest]
    rfl
  | (call op left right, level) :: rest =>
    unfold result turn
    rw [deepest]
    rfl

theorem turnsLeft_turn (m : Measuring) : m.turn.turnsLeft = m.turnsLeft - 1 := by
  obtain ⟨seen, waiting⟩ := m
  match waiting with
  | [] => rfl
  | (number x, level) :: rest =>
    simp only [turn, turnsLeft, operandsAt, List.nil_append, sizeOfAll, size]
    omega
  | (call op left right, level) :: rest =>
    simp only [turn, turnsLeft, operandsAt, List.cons_append, List.nil_append, sizeOfAll, size]
    omega

theorem turnsLeft_eq_zero {m : Measuring} : m.turnsLeft = 0 ↔ m.waiting = [] := by
  obtain ⟨seen, waiting⟩ := m
  match waiting with
  | [] => simp [turnsLeft, sizeOfAll]
  | (t, level) :: rest =>
    have := t.size_pos
    simp only [turnsLeft, sizeOfAll, reduceCtorEq, iff_false]
    omega

/-- The loop that measures. -/
def loop : Loop Measuring (CallTree × Nat) Nat where
  turn := turn
  waiting := waiting
  result := result
  turnsLeft := turnsLeft
  result_turn := result_turn
  turnsLeft_turn := turnsLeft_turn
  turnsLeft_eq_zero _ := turnsLeft_eq_zero

theorem eq_of_waiting_eq_nil {m : Measuring} (none : m.waiting = []) : m = ⟨m.result, []⟩ := by
  obtain ⟨seen, waiting⟩ := m
  obtain rfl : waiting = [] := none
  rw [result, deepest]

end Measuring

theorem result_start (t : CallTree) : (Measuring.mk 0 [(t, 0)]).result = t.height := t.depth_eq_height

/-- The loop has come to its end once it has had a turn for each node of the tree, and not before. -/
theorem waiting_iterate_start_eq_nil_iff (t : CallTree) (count : Nat) :
    (Measuring.turn^[count] ⟨0, [(t, 0)]⟩).waiting = [] ↔ t.size ≤ count :=
  Measuring.loop.waiting_iterate_eq_nil_iff ⟨0, [(t, 0)]⟩ count

/-- The loop takes a turn for each node of the tree, and has then seen the height. -/
theorem iterate_turn_start (t : CallTree) : Measuring.turn^[t.size] ⟨0, [(t, 0)]⟩ = ⟨t.height, []⟩ := by
  obtain ⟨none, same⟩ := Measuring.loop.ended ⟨0, [(t, 0)]⟩
  have same : (Measuring.turn^[t.size] ⟨0, [(t, 0)]⟩).result = t.height := same.trans t.result_start
  rw [← same]
  exact Measuring.eq_of_waiting_eq_nil none

/-! ## Indentation -/

/-- The number of blanks that a line begins with. -/
def indentation (line : List Char) : Nat := (line.takeWhile (· == ' ')).length

theorem indentation_indented (level : Nat) {first : Char} (solid : first ≠ ' ') (rest : List Char) :
    indentation (indented level (first :: rest)) = 2 * level := by
  rw [indentation, indented, indent, String.toList_ofList, List.takeWhile_append_of_pos (by simp),
    List.takeWhile_cons_of_neg (by simpa using solid)]
  simp

theorem indentation_indented_append {label : List Char} (isLabel : IsLabel label) (level : Nat) (rest : List Char) :
    indentation (indented level (label ++ rest)) = 2 * level := by
  obtain ⟨first, more, rfl, solid⟩ := isLabel.exists_cons
  refine indentation_indented level ?_ (more ++ rest)
  rintro rfl
  cases solid

/-- A tree at a level is indented by its own level and by what its height adds to that. -/
theorem indentation_callLines (level : Nat) (comma : Bool) (t : CallTree) :
    (∀ line ∈ t.callLines level comma, indentation line ≤ 2 * (level + t.height)) ∧
      ∃ line ∈ t.callLines level comma, indentation line = 2 * (level + t.height) := by
  induction t generalizing level comma with
  | number x =>
    have line := indentation_indented_append x.isLabel_chars level (commaIf comma)
    simp only [callLines, List.mem_singleton, forall_eq, exists_eq_left, height, Nat.add_zero]
    exact ⟨Nat.le_of_eq line, line⟩
  | call op left right ihl ihr =>
    have opening := indentation_indented_append op.isLabel_callName level ['(']
    have closing := indentation_indented level (show ')' ≠ ' ' by decide) (commaIf comma)
    obtain ⟨rights, deepRight, inRight, right_eq⟩ := ihr (level + 1) true
    obtain ⟨lefts, deepLeft, inLeft, left_eq⟩ := ihl (level + 1) false
    simp only [callLines, height, List.mem_cons, List.mem_append, List.not_mem_nil, or_false]
    constructor
    · rintro line (rfl | inside | inside | rfl)
      · omega
      · have := rights line inside
        omega
      · have := lefts line inside
        omega
      · omega
    · -- The deeper operand has the line that is indented most.
      by_cases deeper : left.height ≤ right.height
      · exact ⟨deepRight, .inr (.inl inRight), by omega⟩
      · exact ⟨deepLeft, .inr (.inr (.inl inLeft)), by omega⟩

/-- The greatest indentation in the call text is two blanks for each level. -/
theorem max_indentation_callText (t : CallTree) :
    ((lines t.callText.toList).map indentation).max? = some (2 * t.height) := by
  obtain ⟨all, line, inside, deepest⟩ := indentation_callLines 0 false t
  rw [Nat.zero_add] at all deepest
  rw [lines_callText, List.max?_eq_some_iff]
  constructor
  · exact List.mem_map.mpr ⟨line, inside, deepest⟩
  · intro b member
    obtain ⟨other, inside', rfl⟩ := List.mem_map.mp member
    exact all other inside'

/-! ## The limit of drawings -/

theorem view?_eq (t : CallTree) :
    t.view? = if 256 < t.height then .error (.tooDeep t.height 256) else .ok t.drawing := by
  rw [view?, depth_eq_height, drawingLimit]

end Polish.CallTree
