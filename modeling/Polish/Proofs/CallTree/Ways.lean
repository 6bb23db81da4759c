import Mathlib.Data.List.Nodup
import Polish.Proofs.CallTree.Labels

/-!
# Ways down a tree

A way leads from the root of a tree to one of its nodes and says at each call which operand comes next. `at?` follows a
way, and `ways` lists all of them in prefix order, so that the ways of a tree and its symbols go together. In a
drawing the way to a node is all that its line needs but its label (`drawingLines_eq`).
-/

namespace Polish

/-- The operands of a call. -/
inductive Side where
  | left
  | right
deriving DecidableEq

namespace CallTree

/-- The symbol at the root of a tree. -/
def rootSymbol : CallTree → Symbol
  | number x => .number x
  | call op _ _ => .operator op

/-- The tree to which a way leads. -/
def at? : CallTree → List Side → Option CallTree
  | t, [] => some t
  | call _ left _, .left :: way => left.at? way
  | call _ _ right, .right :: way => right.at? way
  | number _, _ :: _ => none

/-- The ways to all nodes in prefix order, the right operand before the left. -/
def ways : CallTree → List (List Side)
  | number _ => [[]]
  | call _ left right => [] :: (right.ways.map (.right :: ·) ++ left.ways.map (.left :: ·))

/-- The ways lead to the nodes of the tree. -/
theorem mem_ways_iff {t : CallTree} {way : List Side} : way ∈ t.ways ↔ ∃ s, t.at? way = some s := by
  induction t generalizing way with
  | number x => cases way <;> simp [ways, at?]
  | call op left right ihl ihr =>
    cases way with
    | nil => simp [ways, at?]
    | cons side way => cases side <;> simp [ways, at?, ihl, ihr]

/-- No node is listed twice. -/
theorem nodup_ways (t : CallTree) : t.ways.Nodup := by
  induction t with
  | number x => exact List.nodup_singleton []
  | call op left right ihl ihr =>
    rw [ways, List.nodup_cons, List.nodup_append]
    refine ⟨by simp, ihr.map (List.cons_injective), ihl.map (List.cons_injective), ?_⟩
    intro way inRight way' inLeft
    obtain ⟨_, _, rfl⟩ := List.mem_map.mp inRight
    obtain ⟨_, _, rfl⟩ := List.mem_map.mp inLeft
    simp

/-- The symbols of a tree are those at the ends of its ways. -/
theorem map_rootSymbol_ways (t : CallTree) :
    t.ways.map (fun way => (t.at? way).map rootSymbol) = t.flatten.map some := by
  induction t with
  | number x => rfl
  | call op left right ihl ihr =>
    simp only [ways, flatten, List.map_cons, List.map_append, List.map_map, Function.comp_def, at?, ihl, ihr]
    rfl

theorem length_ways (t : CallTree) : t.ways.length = t.flatten.length := by
  simpa using congrArg List.length t.map_rootSymbol_ways

/-! ## Margins -/

/-- What stands in front of the label of a node, three characters for each node on the way to it: a connector for the
node itself, and for each node above it a bar or blanks. A node that is a right operand has a left one below it. -/
def margin : (isRight : Bool) → List Side → List String
  | isRight, [] => [if isRight then "├─ " else "└─ "]
  | isRight, side :: way => (if isRight then "│  " else "   ") :: margin (side = .right) way

theorem length_margin (isRight : Bool) (way : List Side) : (margin isRight way).length = way.length + 1 := by
  induction way generalizing isRight with
  | nil => rfl
  | cons side way ih => rw [margin, List.length_cons, ih, List.length_cons]

theorem length_of_mem_margin {isRight : Bool} {way : List Side} {group : String} (member : group ∈ margin isRight way) :
    group.length = 3 := by
  induction way generalizing isRight with
  | nil =>
    rw [margin, List.mem_singleton] at member
    cases isRight <;> subst member <;> rfl
  | cons side way ih =>
    rw [margin, List.mem_cons] at member
    rcases member with rfl | below
    · cases isRight <;> rfl
    · exact ih below

/-- Each line of a drawing is the margin of a way and a label. -/
theorem drawingLines_eq (start : String) (isRight : Bool) (t : CallTree) :
    t.drawingLines start (!isRight) =
      List.zipWith (fun way label => start ++ String.join (margin isRight way) ++ label) t.ways t.labels := by
  induction t generalizing start isRight with
  | number x => cases isRight <;> simp [drawingLines, ways, labels_number, margin, connector, label]
  | call op left right ihl ihr =>
    have group : continuation (!isRight) = if isRight then "│  " else "   " := by cases isRight <;> rfl
    have lengths : (right.ways.map (Side.right :: ·)).length = right.labels.length := by
      rw [List.length_map, length_ways, labels, List.length_map]
    unfold drawingLines
    rw [ways, labels_call, List.zipWith_cons_cons, List.zipWith_append lengths, List.zipWith_map_left,
      List.zipWith_map_left]
    congr 1
    · cases isRight <;> simp [margin, connector, label]
    · have rights := ihr (start ++ continuation (!isRight)) true
      have lefts := ihl (start ++ continuation (!isRight)) false
      rw [Bool.not_true] at rights
      rw [Bool.not_false] at lefts
      rw [rights, lefts, group]
      simp only [margin, String.join_cons, String.append_assoc, decide_true, reduceCtorEq, decide_false]

end CallTree

end Polish
