import Polish.CallTree.CallText
import Polish.Proofs.CallTree.InfixText
import Polish.Proofs.CallTree.Inverse
import Polish.Proofs.CallTree.Labels
import Polish.Proofs.Text.Lines

/-!
# Lines of call text

A line of call text opens a call, shows a number, or closes a call. `Line.ofText?` tells what a line shows, from its
text alone. `CallTree.shown` lists what the lines of a tree show: apart from the lines that close a call, these are the
labels of the tree in prefix order.
-/

namespace Polish

/-- What a line of call text shows. -/
inductive Line where
  | opening (op : Operator)
  | number (text : String)
  | close
deriving DecidableEq

namespace Line

/-- The operator whose call the text opens: its name in capitals and a parenthesis. -/
def opening? (text : List Char) : Option Operator :=
  [.add, .sub, .mul, .div, .mod, .pow].find? fun op => text == op.callName.toList ++ ['(']

/-- The text without a comma at its end. -/
def withoutComma (text : List Char) : List Char := if text.getLast? = some ',' then text.dropLast else text

/-- What a line shows behind its indentation, if anything. A comma may follow a number and the end of a call. -/
def ofText? (line : List Char) : Option Line :=
  let body := line.dropWhile (· == ' ')
  match opening? body with
  | some op => some (opening op)
  | none =>
    let bare := withoutComma body
    if bare = [')'] then some close
    else if isNumberText bare then some (number (.ofList bare))
    else none

/-- The operator whose call the line opens. -/
def operator? : Line → Option Operator
  | opening op => some op
  | number _ | close => none

/-- The number that the line shows. -/
def number? : Line → Option String
  | number text => some text
  | opening _ | close => none

/-- The label that the line shows. -/
def label? : Line → Option String
  | opening op => some op.callName
  | number text => some text
  | close => none

/-! ## Telling lines apart -/

/-- A comma, or nothing. -/
def commaIf (comma : Bool) : List Char := if comma then [','] else []

/-- A line with its indentation. -/
def indented (level : Nat) (body : List Char) : List Char := (CallTree.indent level).toList ++ body

theorem dropWhile_indented (level : Nat) {first : Char} (solid : first ≠ ' ') (rest : List Char) :
    (indented level (first :: rest)).dropWhile (· == ' ') = first :: rest := by
  rw [indented, CallTree.indent, String.toList_ofList, List.dropWhile_append_of_pos (by simp),
    List.dropWhile_cons_of_neg (by simpa using solid)]

/-- Behind its indentation a line begins with its label. -/
theorem dropWhile_indented_append {label : List Char} (isLabel : IsLabel label) (level : Nat) (rest : List Char) :
    (indented level (label ++ rest)).dropWhile (· == ' ') = label ++ rest := by
  obtain ⟨first, more, rfl, solid⟩ := isLabel.exists_cons
  refine dropWhile_indented level ?_ (more ++ rest)
  rintro rfl
  cases solid

theorem opening?_callName (op : Operator) : opening? (op.callName.toList ++ ['(']) = some op := by
  simp only [opening?, Operator.toList_callName]
  cases op <;> rfl

/-- What has no parenthesis opens no call. -/
theorem opening?_eq_none {text : List Char} (absent : '(' ∉ text) : opening? text = none := by
  rw [opening?, List.find?_eq_none]
  intro op _ same
  rw [beq_iff_eq.mp same] at absent
  simp at absent

theorem withoutComma_append {text : List Char} (absent : ',' ∉ text) (comma : Bool) :
    withoutComma (text ++ commaIf comma) = text := by
  cases comma with
  | true => simp [withoutComma, commaIf]
  | false =>
    have solid : text.getLast? ≠ some ',' := fun last => absent (List.mem_of_getLast? last)
    simp [withoutComma, commaIf, solid]

theorem ofText?_opening (level : Nat) (op : Operator) :
    ofText? (indented level (op.callName.toList ++ ['('])) = some (opening op) := by
  rw [ofText?, dropWhile_indented_append op.isLabel_callName, opening?_callName]

theorem ofText?_close (level : Nat) (comma : Bool) : ofText? (indented level (')' :: commaIf comma)) = some close := by
  have noCall : opening? (')' :: commaIf comma) = none := opening?_eq_none (by cases comma <;> decide)
  have bare : withoutComma ([')'] ++ commaIf comma) = [')'] := withoutComma_append (by decide) comma
  simp only [ofText?, dropWhile_indented level (show ')' ≠ ' ' by decide), noCall]
  exact if_pos bare

theorem ofText?_number (level : Nat) (x : Binary64) (comma : Bool) :
    ofText? (indented level (x.chars ++ commaIf comma)) = some (number x.text) := by
  have label := x.isLabel_chars
  have noCall : opening? (x.chars ++ commaIf comma) = none := by
    refine opening?_eq_none ?_
    have absent : '(' ∉ x.chars := label.not_mem rfl
    cases comma <;> simpa [commaIf] using absent
  have noClose : x.chars ≠ [')'] := by
    intro same
    exact label.not_mem (c := ')') rfl (by simp [same])
  simp only [ofText?, dropWhile_indented_append label, noCall, withoutComma_append (label.not_mem rfl), noClose,
    x.isNumberText_chars, if_false, if_true]
  rfl

end Line

namespace CallTree

open Text (lines closeAll)
open Line (indented commaIf)

/-! ## The lines of a tree -/

/-- The lines of a tree at a level, with a comma at the end of the last line or without. -/
def callLines (level : Nat) (comma : Bool) : CallTree → List (List Char)
  | number x => [indented level (x.chars ++ commaIf comma)]
  | call op left right =>
    indented level (op.callName.toList ++ ['(']) ::
      (callLines (level + 1) true right ++ (callLines (level + 1) false left ++
        [indented level (')' :: commaIf comma)]))

theorem closeAll_callLines (level : Nat) (comma : Bool) (t : CallTree) :
    closeAll (t.callLines level comma) = (nested level t).toList ++ commaIf comma ++ ['\n'] := by
  induction t generalizing level comma with
  | number x => simp [callLines, closeAll, nested, indented, Binary64.text]
  | call op left right ihl ihr =>
    rw [callLines, Text.closeAll_cons, Text.closeAll_append, Text.closeAll_append, ihr, ihl, Text.closeAll_cons, nested]
    simp [closeAll, indented, commaIf]

theorem noLineEnd_indented {level : Nat} {body : List Char} (noEnd : '\n' ∉ body) : '\n' ∉ indented level body := by
  simp [indented, indent, noEnd]

theorem noLineEnd_commaIf (comma : Bool) : '\n' ∉ commaIf comma := by
  cases comma <;> decide

theorem noLineEnd_callLines (level : Nat) (comma : Bool) (t : CallTree) :
    ∀ line ∈ t.callLines level comma, '\n' ∉ line := by
  induction t generalizing level comma with
  | number x =>
    have text : '\n' ∉ x.chars := x.isLabel_chars.not_mem rfl
    intro line member
    rw [List.mem_singleton.mp member]
    exact noLineEnd_indented (by simp [text, noLineEnd_commaIf])
  | call op left right ihl ihr =>
    have name : '\n' ∉ op.callName.toList := op.isLabel_callName.not_mem rfl
    intro line member
    simp only [callLines, List.mem_cons, List.mem_append, List.not_mem_nil, or_false] at member
    rcases member with rfl | inRight | inLeft | rfl
    · exact noLineEnd_indented (by simp [name])
    · exact ihr _ _ line inRight
    · exact ihl _ _ line inLeft
    · exact noLineEnd_indented (by simp [noLineEnd_commaIf])

/-- The last line of a tree is not closed. -/
theorem exists_last_nested (level : Nat) (t : CallTree) :
    ∃ front last, (nested level t).toList = front ++ [last] ∧ last ≠ '\n' := by
  cases t with
  | number x =>
    have label := x.isLabel_chars
    obtain ⟨front, last, text⟩ := (List.eq_nil_or_concat x.chars).resolve_left label.nonempty
    rw [List.concat_eq_append] at text
    refine ⟨(indent level).toList ++ front, last, by simp [nested, Binary64.text, text], ?_⟩
    rintro rfl
    exact label.not_mem (c := '\n') rfl (by simp [text])
  | call op left right => exact ⟨_, ')', by rw [nested, String.toList_append]; rfl, by decide⟩

/-- The lines of the call text. -/
theorem lines_callText (t : CallTree) : lines t.callText.toList = t.callLines 0 false := by
  -- Of the lines of the tree all but the last are closed in the call text, so the last is closed first.
  obtain ⟨front, last, text, isOpen⟩ := exists_last_nested 0 t
  have closed : closeAll (t.callLines 0 false) = front ++ [last, '\n'] := by
    rw [closeAll_callLines, text]
    simp [commaIf]
  rw [callText_eq_nested, text, ← Text.lines_concat_lineEnd front isOpen, ← closed,
    Text.lines_closeAll (noLineEnd_callLines 0 false t)]

/-! ## What the lines show -/

/-- What the lines of a tree show, the right operand before the left. -/
def shown : CallTree → List Line
  | number x => [.number x.text]
  | call op left right => .opening op :: (right.shown ++ (left.shown ++ [.close]))

theorem map_ofText?_callLines (level : Nat) (comma : Bool) (t : CallTree) :
    (t.callLines level comma).map Line.ofText? = t.shown.map some := by
  induction t generalizing level comma with
  | number x => rw [callLines, List.map_singleton, Line.ofText?_number, shown, List.map_singleton]
  | call op left right ihl ihr =>
    rw [callLines, List.map_cons, List.map_append, List.map_append, List.map_singleton, Line.ofText?_opening, ihr, ihl,
      Line.ofText?_close, shown]
    simp

theorem map_ofText?_lines_callText (t : CallTree) : (lines t.callText.toList).map Line.ofText? = t.shown.map some := by
  rw [lines_callText, map_ofText?_callLines]

/-- The lines that close no call show the labels of the tree. -/
theorem filterMap_label_shown (t : CallTree) : t.shown.filterMap Line.label? = t.labels := by
  induction t with
  | number x => rfl
  | call op left right ihl ihr => simp [shown, Line.label?, ihl, ihr, labels_call]

theorem filterMap_operator_shown (t : CallTree) : t.shown.filterMap Line.operator? = t.operators := by
  induction t with
  | number x => rfl
  | call op left right ihl ihr => simp [shown, Line.operator?, ihl, ihr, operators]

/-- The numbers are shown from the right of the tree to its left. -/
theorem filterMap_number_shown (t : CallTree) :
    t.shown.filterMap Line.number? = (t.leaves.map Binary64.text).reverse := by
  induction t with
  | number x => rfl
  | call op left right ihl ihr => simp [shown, Line.number?, List.filterMap_cons, ihl, ihr, leaves]

/-- Every call that is opened is closed. -/
theorem count_close_shown (t : CallTree) : t.shown.count .close = t.operators.length := by
  induction t with
  | number x => rfl
  | call op left right ihl ihr =>
    simp only [shown, operators, List.count_cons, List.count_append, List.count_nil, List.length_cons,
      List.length_append, ihl, ihr]
    simp
    omega

theorem length_shown (t : CallTree) : t.shown.length = 3 * t.operators.length + 1 := by
  induction t with
  | number x => rfl
  | call op left right ihl ihr =>
    simp only [shown, operators, List.length_cons, List.length_append, List.length_nil, ihl, ihr]
    omega

end CallTree

end Polish
