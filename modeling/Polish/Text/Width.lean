/-!
# The width of text

Offsets into an expression count the bytes of its encoding, and `width` is the number of bytes of some characters.
-/

namespace Polish.Text

/-- The number of bytes of a text. -/
def width : List Char → Nat
  | [] => 0
  | c :: rest => c.utf8Size + width rest

@[simp] theorem width_nil : width [] = 0 := rfl

@[simp] theorem width_cons (c : Char) (text : List Char) : width (c :: text) = c.utf8Size + width text := rfl

@[simp] theorem width_append (front back : List Char) : width (front ++ back) = width front + width back := by
  induction front with
  | nil => simp
  | cons c rest ih => simp [ih, Nat.add_assoc]

/-- Every character has a width. -/
theorem width_eq_zero {text : List Char} : width text = 0 ↔ text = [] := by
  cases text with
  | nil => simp
  | cons c rest =>
    have := c.utf8Size_pos
    simp
    omega

/-- A text divides in one way only at a byte offset. -/
theorem append_inj_of_width {front back front' back' : List Char} (same : front ++ back = front' ++ back')
    (offset : width front = width front') : front = front' ∧ back = back' := by
  rcases List.append_eq_append_iff.mp same with ⟨more, rfl, rfl⟩ | ⟨more, rfl, rfl⟩
  · obtain rfl : more = [] := width_eq_zero.mp (by simpa using offset)
    simp
  · obtain rfl : more = [] := width_eq_zero.mp (by simpa using offset)
    simp

/-- The width of a text is the size of its encoding. -/
theorem utf8ByteSize_ofList (text : List Char) : (String.ofList text).utf8ByteSize = width text := by
  induction text with
  | nil => rfl
  | cons c rest ih => rw [String.ofList_cons, String.utf8ByteSize_append, String.utf8ByteSize_singleton, ih, width_cons]

@[simp] theorem width_toList (text : String) : width text.toList = text.utf8ByteSize := by
  rw [← utf8ByteSize_ofList, String.ofList_toList]

end Polish.Text
