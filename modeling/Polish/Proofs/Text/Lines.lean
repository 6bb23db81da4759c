/-!
# Lines of text

`lines` cuts a text at its line ends. A line end closes a line, so there is no empty line behind the last one, and the
last line need not be closed.
-/

namespace Polish.Text

/-- The lines of a text, without the line ends. -/
def lines : List Char → List (List Char)
  | [] => []
  | c :: rest =>
    if c = '\n' then [] :: lines rest
    else
      match lines rest with
      | [] => [[c]]
      | line :: more => (c :: line) :: more

/-- The lines in a row, each of them closed. -/
def closeAll (all : List (List Char)) : List Char := all.flatMap (· ++ ['\n'])

theorem closeAll_cons (line : List Char) (all : List (List Char)) :
    closeAll (line :: all) = line ++ '\n' :: closeAll all := by
  simp [closeAll]

theorem closeAll_append (front back : List (List Char)) : closeAll (front ++ back) = closeAll front ++ closeAll back :=
  List.flatMap_append

/-- A text up to its first line end is a line. -/
theorem lines_append_lineEnd {line : List Char} (noEnd : '\n' ∉ line) (rest : List Char) :
    lines (line ++ '\n' :: rest) = line :: lines rest := by
  induction line with
  | nil => simp [lines]
  | cons c line ih =>
    rw [List.mem_cons, not_or] at noEnd
    rw [List.cons_append, lines, if_neg (Ne.symm noEnd.1), ih noEnd.2]

theorem lines_closeAll {all : List (List Char)} (noEnds : ∀ line ∈ all, '\n' ∉ line) : lines (closeAll all) = all := by
  induction all with
  | nil => rfl
  | cons line more ih =>
    obtain ⟨here, later⟩ := List.forall_mem_cons.mp noEnds
    rw [closeAll_cons, lines_append_lineEnd here, ih later]

/-- A line end behind an open line only closes it. -/
theorem lines_concat_lineEnd (text : List Char) {last : Char} (isOpen : last ≠ '\n') :
    lines (text ++ [last, '\n']) = lines (text ++ [last]) := by
  induction text with
  | nil => simp [lines, isOpen]
  | cons c rest ih => rw [List.cons_append, List.cons_append, lines, lines, ih]

end Polish.Text
