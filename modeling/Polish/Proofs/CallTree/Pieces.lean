import Polish.CallTree.CallText
import Polish.Proofs.CallTree.Loop

/-!
# Writing call text with a list of pieces

`writePieces` is a loop over what has been written and the pieces that wait (`Writing`). A turn writes the beginning of
the first piece and lets the pieces of the rest wait in front of the others. What will have been written in the end does
not change with a turn (`finished_turn`), and the number of turns that are left goes down by one (`turnsLeft_turn`),
although there may be more pieces after a turn than before. So the loop ends, and has written the texts of all pieces.
-/

namespace Polish.CallTree

theorem size_pos (t : CallTree) : 0 < t.size := by
  cases t with
  | number x => exact Nat.one_pos
  | call op left right => exact Nat.succ_pos _

namespace Piece

/-- What is written of a piece before the next turn. -/
def opening : Piece → String
  | tree (number x) level => indent level ++ x.text
  | tree (call op _ _) level => indent level ++ op.callName ++ "(\n"
  | separator => ",\n"
  | close level => "\n" ++ indent level ++ ")"

/-- The pieces that are still to be written of a piece. -/
def parts : Piece → List Piece
  | tree (call _ left right) level => [tree right (level + 1), separator, tree left (level + 1), close level]
  | tree (number _) _ | separator | close _ => []

/-- The number of turns that the loop takes until the piece is written. -/
def turns : Piece → Nat
  | tree t _ => 2 * t.size - 1
  | separator | close _ => 1

/-- The number of turns that all pieces take. -/
def turnsOfAll : List Piece → Nat
  | [] => 0
  | piece :: rest => piece.turns + turnsOfAll rest

theorem turnsOfAll_append (front back : List Piece) :
    turnsOfAll (front ++ back) = turnsOfAll front + turnsOfAll back := by
  induction front with
  | nil => exact (Nat.zero_add _).symm
  | cons piece rest ih => rw [List.cons_append, turnsOfAll, turnsOfAll, ih, Nat.add_assoc]

theorem text_eq (piece : Piece) : piece.text = piece.opening ++ String.join (piece.parts.map text) := by
  cases piece with
  | tree t level =>
    cases t with
    | number x => simp [text, nested, opening, parts]
    | call op left right => simp [text, nested, opening, parts, String.append_assoc]
  | separator => simp [text, opening, parts]
  | close level => simp [text, opening, parts]

theorem turns_eq (piece : Piece) : piece.turns = turnsOfAll piece.parts + 1 := by
  cases piece with
  | tree t level =>
    cases t with
    | number x => rfl
    | call op left right =>
      have := left.size_pos
      have := right.size_pos
      simp only [turns, parts, turnsOfAll, size]
      omega
  | separator => rfl
  | close level => rfl

end Piece

/-- The loop between two turns. -/
structure Writing where
  /-- The text written so far. -/
  written : String
  /-- The pieces that wait, the next one first. -/
  waiting : List Piece

namespace Writing

/-- One turn of the loop. -/
def turn : Writing → Writing
  | ⟨written, []⟩ => ⟨written, []⟩
  | ⟨written, piece :: rest⟩ => ⟨written ++ piece.opening, piece.parts ++ rest⟩

/-- What will have been written in the end. -/
def finished (w : Writing) : String := w.written ++ String.join (w.waiting.map Piece.text)

/-- The number of turns until nothing waits. -/
def turnsLeft (w : Writing) : Nat := Piece.turnsOfAll w.waiting

theorem finished_turn (w : Writing) : w.turn.finished = w.finished := by
  obtain ⟨written, waiting⟩ := w
  cases waiting with
  | nil => rfl
  | cons piece rest =>
    simp only [turn, finished, List.map_append, List.map_cons, String.join_append, String.join_cons, piece.text_eq,
      String.append_assoc]

theorem turnsLeft_turn (w : Writing) : w.turn.turnsLeft = w.turnsLeft - 1 := by
  obtain ⟨written, waiting⟩ := w
  cases waiting with
  | nil => rfl
  | cons piece rest =>
    simp only [turn, turnsLeft, Piece.turnsOfAll_append, Piece.turnsOfAll, piece.turns_eq]
    omega

theorem turnsLeft_eq_zero {w : Writing} : w.turnsLeft = 0 ↔ w.waiting = [] := by
  obtain ⟨written, waiting⟩ := w
  cases waiting with
  | nil => simp [turnsLeft, Piece.turnsOfAll]
  | cons piece rest => simp [turnsLeft, Piece.turnsOfAll, piece.turns_eq]

/-- The loop that writes. -/
def loop : Loop Writing Piece String where
  turn := turn
  waiting := waiting
  result := finished
  turnsLeft := turnsLeft
  result_turn := finished_turn
  turnsLeft_turn := turnsLeft_turn
  turnsLeft_eq_zero _ := turnsLeft_eq_zero

theorem eq_of_waiting_eq_nil {w : Writing} (none : w.waiting = []) : w = ⟨w.finished, []⟩ := by
  obtain ⟨written, waiting⟩ := w
  obtain rfl : waiting = [] := none
  simp [finished]

/-! ## The loop -/

theorem writePieces_turn (w : Writing) (some : w.waiting ≠ []) :
    writePieces w.written w.waiting = writePieces w.turn.written w.turn.waiting := by
  obtain ⟨written, waiting⟩ := w
  cases waiting with
  | nil => exact absurd rfl some
  | cons piece rest =>
    cases piece with
    | tree t level =>
      cases t with
      | number x => simp only [turn, Piece.opening, Piece.parts, writePieces, String.append_assoc, List.nil_append]
      | call op left right =>
        simp only [turn, Piece.opening, Piece.parts, String.append_assoc, List.cons_append, List.nil_append]
        rw [writePieces]
        simp only [String.append_assoc]
    | separator => simp only [turn, Piece.opening, Piece.parts, writePieces, List.nil_append]
    | close level => simp only [turn, Piece.opening, Piece.parts, writePieces, String.append_assoc, List.nil_append]

/-- The loop writes what is left to write, whatever waits. -/
theorem writePieces_eq_finished (w : Writing) : writePieces w.written w.waiting = w.finished := by
  refine loop.eq_result w (f := fun w => writePieces w.written w.waiting) ?_ writePieces_turn
  intro w (none : w.waiting = [])
  show writePieces w.written w.waiting = w.finished
  simp [none, writePieces, finished]

end Writing

/-- The call text is the text by recursion. The loop that writes it takes one turn for each node of the tree and two
more for each call: then nothing waits, and the whole text has been written. -/
theorem callText_written_in_turns (t : CallTree) :
    t.callText = t.nested 0 ∧
    (∀ w : Writing, writePieces w.written w.waiting =
      if w.waiting.isEmpty then w.written else writePieces w.turn.written w.turn.waiting) ∧
    (∀ count, (Writing.turn^[count] ⟨"", [.tree t 0]⟩).waiting = [] ↔ 2 * t.size - 1 ≤ count) ∧
    Writing.turn^[2 * t.size - 1] ⟨"", [.tree t 0]⟩ = ⟨t.nested 0, []⟩ := by
  have text : (Writing.mk "" [.tree t 0]).finished = t.nested 0 := by simp [Writing.finished, Piece.text]
  refine ⟨?_, ?_, ?_, ?_⟩
  · rw [callText, Writing.writePieces_eq_finished ⟨"", [.tree t 0]⟩, text]
  · intro w
    cases none : w.waiting.isEmpty with
    | true => rw [List.isEmpty_iff.mp none, if_pos rfl, writePieces]
    | false => exact w.writePieces_turn (by simpa using none)
  · intro count
    exact Writing.loop.waiting_iterate_eq_nil_iff ⟨"", [.tree t 0]⟩ count
  · obtain ⟨none, same⟩ := Writing.loop.ended ⟨"", [.tree t 0]⟩
    have same : (Writing.turn^[2 * t.size - 1] ⟨"", [.tree t 0]⟩).finished = t.nested 0 := same.trans text
    rw [← same]
    exact Writing.eq_of_waiting_eq_nil none

end Polish.CallTree
