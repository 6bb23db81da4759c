import Mathlib.Data.List.Forall2
import Polish.Proofs.CallTree.Lines

/-!
# Both renderings are faithful

The call text and the drawing of a tree both show its labels, line by line, and nothing else of its nodes. From the call
text the labels are read behind the indentation, and from the drawing behind the connectors. As the labels tell a tree
apart from all that are not `Alike` to it, so do the call text and the drawing.
-/

namespace Polish.CallTree

open Text (lines closeAll)

/-! ## The lines of a drawing -/

/-- Whether the character belongs to the connectors of a drawing and to what continues them. -/
def isRule (c : Char) : Bool := [' ', '│', '├', '└', '─'].contains c

theorem isRule_connector (isLast : Bool) : ∀ c ∈ (connector isLast).toList, isRule c = true := by
  cases isLast <;> exact List.all_eq_true.mp rfl

theorem isRule_continuation (isLast : Bool) : ∀ c ∈ (continuation isLast).toList, isRule c = true := by
  cases isLast <;> exact List.all_eq_true.mp rfl

theorem isRule_append {front back : String} (first : ∀ c ∈ front.toList, isRule c = true)
    (second : ∀ c ∈ back.toList, isRule c = true) : ∀ c ∈ (front ++ back).toList, isRule c = true := by
  rw [String.toList_append]
  exact List.forall_mem_append.mpr ⟨first, second⟩

/-- The characters of a drawing's margin are not those of a label. -/
theorem isRule_eq_false {c : Char} (label : isLabelChar c = true) : isRule c = false := by
  rw [isRule, ← Bool.not_eq_true, List.contains_iff_mem]
  intro rule
  simp only [List.mem_cons, List.not_mem_nil, or_false] at rule
  rcases rule with rfl | rfl | rfl | rfl | rfl <;> simp [isLabelChar, Char.isAlphanum] at label

/-- A line of a drawing is a label behind a margin. -/
structure IsDrawn (line : String) (label : String) : Prop where
  isLabel : IsLabel label.toList
  behind : ∃ margin : List Char, (∀ c ∈ margin, isRule c = true) ∧ line.toList = margin ++ label.toList

theorem isDrawn_append {margin label : String} (rules : ∀ c ∈ margin.toList, isRule c = true) (isLast : Bool)
    (isLabel : IsLabel label.toList) : IsDrawn (margin ++ connector isLast ++ label) label where
  isLabel := isLabel
  behind := ⟨(margin ++ connector isLast).toList, isRule_append rules (isRule_connector isLast), by simp⟩

theorem IsDrawn.dropWhile {line label : String} (drawn : IsDrawn line label) :
    line.toList.dropWhile isRule = label.toList := by
  obtain ⟨margin, rules, text⟩ := drawn.behind
  obtain ⟨first, rest, name, solid⟩ := drawn.isLabel.exists_cons
  rw [text, List.dropWhile_append_of_pos rules, name, List.dropWhile_cons_of_neg (by simp [isRule_eq_false solid])]

theorem IsDrawn.noLineEnd {line label : String} (drawn : IsDrawn line label) : '\n' ∉ line.toList := by
  obtain ⟨margin, rules, text⟩ := drawn.behind
  rw [text, List.mem_append]
  rintro (inMargin | inLabel)
  · cases rules '\n' inMargin
  · exact drawn.isLabel.not_mem rfl inLabel

/-- The lines of a drawing are the labels of the tree in prefix order, each behind a margin. -/
theorem forall₂_drawingLines {margin : String} (rules : ∀ c ∈ margin.toList, isRule c = true) (isLast : Bool)
    (t : CallTree) : List.Forall₂ IsDrawn (t.drawingLines margin isLast) t.labels := by
  induction t generalizing margin isLast with
  | number x =>
    have isLabel : IsLabel x.text.toList := by
      rw [Binary64.text, String.toList_ofList]
      exact x.isLabel_chars
    exact .cons (isDrawn_append rules isLast isLabel) .nil
  | call op left right ihl ihr =>
    have deeper := isRule_append rules (isRule_continuation isLast)
    unfold drawingLines
    rw [labels_call]
    exact .cons (isDrawn_append rules isLast op.isLabel_callName)
      (List.rel_append (ihr deeper false) (ihl deeper true))

theorem forall₂_drawing (t : CallTree) : List.Forall₂ IsDrawn (t.drawingLines "" true) t.labels :=
  forall₂_drawingLines (by simp) true t

theorem noLineEnd_of_isDrawn {all labels : List String} (drawn : List.Forall₂ IsDrawn all labels) :
    ∀ line ∈ all.map String.toList, '\n' ∉ line := by
  induction drawn with
  | nil => simp
  | cons first more ih => exact List.forall_mem_cons.mpr ⟨first.noLineEnd, ih⟩

/-- Behind their margins the lines of a drawing show the labels. -/
theorem dropWhile_of_isDrawn {all labels : List String} (drawn : List.Forall₂ IsDrawn all labels) :
    (all.map String.toList).map (·.dropWhile isRule) = labels.map String.toList := by
  induction drawn with
  | nil => rfl
  | cons first more ih => simp only [List.map_cons, first.dropWhile, ih]

/-- The lines of a drawing are a title and those of the tree. -/
theorem lines_drawing (t : CallTree) :
    lines t.drawing.toList = "expression".toList :: (t.drawingLines "" true).map String.toList := by
  have closed : t.drawing.toList = closeAll ("expression".toList :: (t.drawingLines "" true).map String.toList) := by
    rw [drawing_eq_join, String.toList_join, ← List.map_cons, closeAll, List.flatMap_map, List.flatMap_map]
    simp only [String.toList_append]
    rfl
  rw [closed, Text.lines_closeAll (List.forall_mem_cons.mpr ⟨by decide, noLineEnd_of_isDrawn t.forall₂_drawing⟩)]

/-! ## Alike trees -/

/-- Two trees with the same call text have the same labels. -/
theorem labels_eq_of_callText_eq {a b : CallTree} (same : a.callText = b.callText) : a.labels = b.labels := by
  have shown : a.shown.map some = b.shown.map some := by
    rw [← map_ofText?_lines_callText, same, map_ofText?_lines_callText]
  rw [← filterMap_label_shown, (List.map_inj_right fun _ _ => Option.some.inj).mp shown, filterMap_label_shown]

/-- Two trees with the same drawing have the same labels. -/
theorem labels_eq_of_drawing_eq {a b : CallTree} (same : a.drawing = b.drawing) : a.labels = b.labels := by
  have title := lines_drawing a
  rw [same, lines_drawing b] at title
  have labels : a.labels.map String.toList = b.labels.map String.toList := by
    rw [← dropWhile_of_isDrawn a.forall₂_drawing, ← dropWhile_of_isDrawn b.forall₂_drawing, (List.cons.inj title).2]
  exact (List.map_inj_right fun _ _ => String.toList_inj.mp).mp labels

/-- Trees that are alike have the same call text at each level. -/
theorem Alike.nested_eq {a b : CallTree} (alike : a.Alike b) (level : Nat) : a.nested level = b.nested level := by
  induction alike generalizing level with
  | number text => rw [nested, nested, text]
  | call op lefts rights ihl ihr => rw [nested, nested, ihl, ihr]

/-- Trees that are alike are drawn alike behind each margin. -/
theorem Alike.drawingLines_eq {a b : CallTree} (alike : a.Alike b) (margin : String) (isLast : Bool) :
    a.drawingLines margin isLast = b.drawingLines margin isLast := by
  induction alike generalizing margin isLast with
  | number text => rw [drawingLines, drawingLines, label, label, text]
  | call op lefts rights ihl ihr => rw [drawingLines, drawingLines, label, label, ihl, ihr]

/-- The call text and the drawing carry the same information: two trees have the same call text exactly if they have the
same shape, the same operators and numbers with the same texts, and exactly then they have the same drawing. -/
theorem renderings_eq_iff_alike (a b : CallTree) :
    (a.callText = b.callText ↔ a.Alike b) ∧ (a.Alike b ↔ a.drawing = b.drawing) := by
  refine ⟨⟨?_, ?_⟩, ?_, ?_⟩
  · intro same
    exact alike_of_labels (labels_eq_of_callText_eq same)
  · intro alike
    rw [callText_eq_nested, callText_eq_nested, alike.nested_eq]
  · intro alike
    rw [drawing_eq_join, drawing_eq_join, alike.drawingLines_eq]
  · intro same
    exact alike_of_labels (labels_eq_of_drawing_eq same)

end Polish.CallTree
