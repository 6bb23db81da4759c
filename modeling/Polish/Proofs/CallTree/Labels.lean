import Polish.CallTree.Drawing
import Polish.Proofs.CallTree.Flatten
import Polish.Proofs.Lexer.NumberText

/-!
# Labels of a tree

What a tree shows of its nodes: the texts of its numbers and the names of its operators in capitals, in prefix order
(`CallTree.labels`). A label consists of letters, digits, minus signs and points, so it ends where anything else
begins, and a number is never shown as an operator.

The labels tell a tree apart from all trees but those which are `Alike` to it: trees of the same shape with the same
operators, and with numbers that have the same texts.
-/

namespace Polish

/-! ## The texts of numbers -/

/-- Whether the character is a digit, a minus sign or a point. -/
def isNumeric (c : Char) : Bool := c.isDigit || c == '-' || c == '.'

/-- Whether the text is made of digits, minus signs and points, or is a word for what is no finite number. -/
def isNumberText (text : List Char) : Bool :=
  (!text.isEmpty && text.all isNumeric) || [['i', 'n', 'f'], ['-', 'i', 'n', 'f'], ['N', 'a', 'N']].contains text

theorem isNumberText_of_isNumeric {text : List Char} (nonempty : text ≠ []) (numeric : ∀ c ∈ text, isNumeric c = true) :
    isNumberText text = true := by
  have full : text.isEmpty = false := by simpa using nonempty
  rw [isNumberText, List.all_eq_true.mpr numeric, full]
  rfl

theorem Decimal.isNumeric_of_mem_positional {d : Decimal} {c : Char} (member : c ∈ d.positional) :
    isNumeric c = true := by
  obtain ⟨whole, tail, text, -, isDigit, rest⟩ := d.exists_positional
  rw [text, List.mem_append] at member
  rcases member with front | back
  · simp [isNumeric, isDigit c front]
  · rcases rest with rfl | ⟨fraction, rfl, digits⟩
    · simp at back
    · rcases List.mem_cons.mp back with rfl | inside
      · rfl
      · simp [isNumeric, digits c inside]

/-- Every number is shown in this way. -/
theorem Binary64.isNumberText_chars (x : Binary64) : isNumberText x.chars = true := by
  match x with
  | nan => rfl
  | infinity false => rfl
  | infinity true => rfl
  | finite false m =>
    exact isNumberText_of_isNumeric (Lexer.chars_ne_nil rfl) fun c member => Decimal.isNumeric_of_mem_positional member
  | finite true m =>
    refine isNumberText_of_isNumeric (Lexer.chars_ne_nil rfl) ?_
    intro c member
    rcases List.mem_cons.mp member with rfl | digits
    · rfl
    · exact Decimal.isNumeric_of_mem_positional digits

theorem Operator.toList_callName (op : Operator) : op.callName.toList = op.name.toList.map Char.toUpper := by
  rw [callName, String.toUpper, String.toList_map]

theorem Operator.isNumberText_callName (op : Operator) : isNumberText op.callName.toList = false := by
  rw [op.toList_callName]
  cases op <;> rfl

theorem Operator.callName_injective : Function.Injective callName := by
  intro op other same
  have chars := congrArg String.toList same
  rw [op.toList_callName, other.toList_callName] at chars
  revert chars
  cases op <;> cases other <;> decide

/-! ## The characters of labels -/

/-- Whether the character may stand in a label. -/
def isLabelChar (c : Char) : Bool := c.isAlphanum || c == '-' || c == '.'

/-- Something that is made of the characters of labels. -/
structure IsLabel (text : List Char) : Prop where
  nonempty : text ≠ []
  chars : ∀ c ∈ text, isLabelChar c = true

theorem IsLabel.not_mem {text : List Char} (label : IsLabel text) {c : Char} (other : isLabelChar c = false) :
    c ∉ text := by
  intro inside
  rw [label.chars c inside] at other
  cases other

/-- A label has a first character, which is one of its own. -/
theorem IsLabel.exists_cons {text : List Char} (label : IsLabel text) :
    ∃ first rest, text = first :: rest ∧ isLabelChar first = true := by
  obtain ⟨first, rest, rfl⟩ := List.exists_cons_of_ne_nil label.nonempty
  exact ⟨first, rest, rfl, label.chars first List.mem_cons_self⟩

theorem isLabel_of_isNumberText {text : List Char} (number : isNumberText text = true) : IsLabel text := by
  rw [isNumberText, Bool.or_eq_true, Bool.and_eq_true] at number
  rcases number with ⟨full, all⟩ | word
  · refine ⟨by simpa using full, ?_⟩
    intro c member
    have numeric := List.all_eq_true.mp all c member
    simp only [isNumeric, Bool.or_eq_true] at numeric
    rcases numeric with (digit | minus) | point
    · simp [isLabelChar, Char.isAlphanum, digit]
    · simp [isLabelChar, minus]
    · simp [isLabelChar, point]
  · simp only [List.contains_iff_mem, List.mem_cons, List.not_mem_nil, or_false] at word
    rcases word with rfl | rfl | rfl
    · exact ⟨by decide, List.all_eq_true.mp rfl⟩
    · exact ⟨by decide, List.all_eq_true.mp rfl⟩
    · exact ⟨by decide, List.all_eq_true.mp rfl⟩

theorem Binary64.isLabel_chars (x : Binary64) : IsLabel x.chars := isLabel_of_isNumberText x.isNumberText_chars

theorem Operator.isLabel_callName (op : Operator) : IsLabel op.callName.toList := by
  rw [op.toList_callName]
  cases op <;> exact ⟨by decide, List.all_eq_true.mp rfl⟩

/-! ## Labels in prefix order -/

/-- How a symbol is shown. -/
def Symbol.label : Symbol → String
  | number x => x.text
  | operator op => op.callName

namespace CallTree

/-- How the nodes of a tree are shown, in prefix order. -/
def labels (t : CallTree) : List String := t.flatten.map Symbol.label

theorem labels_number (x : Binary64) : labels (number x) = [x.text] := rfl

theorem labels_call (op : Operator) (left right : CallTree) :
    labels (call op left right) = op.callName :: (right.labels ++ left.labels) := by
  simp [labels, flatten, Symbol.label]

/-- Trees of one shape that have the same operators, and numbers with the same texts. -/
inductive Alike : CallTree → CallTree → Prop where
  | number {x y : Binary64} (text : x.text = y.text) : Alike (number x) (number y)
  | call (op : Operator) {left left' right right' : CallTree} (lefts : Alike left left')
      (rights : Alike right right') : Alike (call op left right) (call op left' right')

theorem text_ne_callName (x : Binary64) (op : Operator) : x.text ≠ op.callName := by
  intro same
  have number := x.isNumberText_chars
  rw [show x.chars = op.callName.toList by rw [← same, Binary64.text, String.toList_ofList],
    op.isNumberText_callName] at number
  cases number

/-- The labels of a tree end where the tree ends, whatever labels follow. -/
theorem alike_of_labels_append {a b : CallTree} {rest rest' : List String}
    (same : a.labels ++ rest = b.labels ++ rest') : a.Alike b ∧ rest = rest' := by
  -- Behind the labels of a right operand are those of the left one, so the induction is over any labels that follow.
  induction a generalizing b rest rest' with
  | number x =>
    cases b with
    | number y =>
      obtain ⟨text, rests⟩ := List.cons.inj same
      exact ⟨.number text, rests⟩
    | call op left right =>
      rw [labels_number, labels_call] at same
      exact absurd (List.cons.inj same).1 (text_ne_callName x op)
  | call op left right ihl ihr =>
    cases b with
    | number y =>
      rw [labels_number, labels_call] at same
      exact absurd (List.cons.inj same).1.symm (text_ne_callName y op)
    | call op' left' right' =>
      rw [labels_call, labels_call, List.cons_append, List.cons_append, List.append_assoc, List.append_assoc] at same
      obtain ⟨name, operands⟩ := List.cons.inj same
      obtain rfl := Operator.callName_injective name
      obtain ⟨rights, behind⟩ := ihr operands
      obtain ⟨lefts, rests⟩ := ihl behind
      exact ⟨.call op lefts rights, rests⟩

theorem alike_of_labels {a b : CallTree} (same : a.labels = b.labels) : a.Alike b :=
  (alike_of_labels_append (congrArg (· ++ []) same)).1

end CallTree

end Polish
