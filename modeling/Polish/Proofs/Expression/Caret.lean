import Polish.Proofs.Decimal.Digits
import Polish.Proofs.Expression.Offsets

/-!
# Where the caret stands

The caret stands under the character that the error is about if what is trimmed from the front of the expression is
white space to the reader too. Another blank character is refused by the reader, and trimmed all the same.
-/

namespace Polish

open Text (width isBlank)

namespace Lexer

/-- The blank characters that are read are white space. -/
theorem isSpace_of_action {last? : Option Token.Kind} {c : Char} {a : Action} (accepted : action last? c = .ok a)
    (blank : isBlank c) : isSpace c := by
  cases charCase c with
  | blank space => exact space
  | openParen => cases blank
  | closeParen => cases blank
  | numeric numeric =>
    exfalso
    rcases numeric with digit | rfl
    · obtain ⟨n, small, rfl⟩ := exists_digitChar digit
      have solid : ∀ n < 10, isBlank n.digitChar = false := by decide
      rw [solid n small] at blank
      cases blank
    · cases blank
  | symbol op => cases op <;> cases blank
  | illegal illegal =>
    rw [illegal] at accepted
    cases accepted

end Lexer

namespace Expression

open Lexer ShuntingYard

variable {expression : String} {e : SyntaxError}

/-- Reordering reports an error at one of the tokens. -/
theorem exists_token_of_toPrefix_error {tokens : List Token} (failed : toPrefix tokens = .error e) :
    ∃ before token after, tokens = before ++ token :: after ∧ e.offset = token.offset := by
  have reports := reports_of_error failed
  generalize told : e.toDiagnostic = d at reports
  have offset : e.offset = d.offset := congrArg Diagnostic.offset told
  cases reports with
  | fault before token after d split leftmost fault =>
    refine ⟨before, token, after, split, ?_⟩
    cases fault with
    | emptyNumber n kind empty => exact offset
    | invalidLiteral n kind nonempty rejected => exact offset
    | unmatchedClose kind unmatched => exact offset
  | unmatchedOpen before token after split faultless kind unmatched rightmost =>
    exact ⟨before, token, after, split, offset⟩

/-- No white space stands at the place of an error, and all that stands before it has been read. -/
theorem exists_offender (failed : convert expression = .error e) (other : e.cause.message ≠ "empty expression") :
    ∃ front c back, expression.toList = front ++ c :: back ∧ width front = e.offset ∧ isSpace c = false ∧
      ∀ d ∈ front, ∃ last? a, action last? d = .ok a := by
  rcases convert_error_cases failed with unread | ⟨tokens, read, unordered⟩
  · rcases tokenize_eq_error_cases unread with ⟨rfl, -⟩ | ⟨front, c, back, t, cause, text, start, refused, rfl⟩
    · exact absurd rfl other
    · refine ⟨front, c, back, text, rfl, ?_, State.exists_action_of_mem start⟩
      rw [← Bool.not_eq_true]
      intro space
      rw [action, if_pos space] at refused
      cases refused
  · obtain ⟨before, token, after, split, offset⟩ := exists_token_of_toPrefix_error unordered
    obtain ⟨word, spaced, front, back, wellFormed, rfl, text⟩ := exists_place_of_tokenize read split
    obtain ⟨c, rest, start, solid⟩ := Word.exists_text wellFormed
    obtain ⟨s, run, -⟩ := exists_run_of_tokenize read
    rw [start, List.append_assoc, List.cons_append] at text
    refine ⟨front, c, rest ++ back, text, offset.symm, solid, ?_⟩
    intro d member
    exact State.exists_action_of_mem run d (text ▸ List.mem_append_left _ member)

/-- What is read behind the trimmed part takes one column for each byte. -/
theorem drop_column {mid : List Char} (single : ∀ d ∈ mid, d.utf8Size = 1) (lead rest : List Char) :
    (mid ++ rest).drop (width (lead ++ mid) - width lead) = rest := by
  rw [Text.width_append, Nat.add_sub_cancel_left, width_of_single single, List.drop_left]

/-- What is trimmed from the front ends before a character, or it takes the character away. -/
theorem shown_or_trimmed {lead trimmed front back : List Char} {c : Char}
    (whole : lead ++ trimmed = front ++ c :: back) :
    (∃ mid, front = lead ++ mid ∧ trimmed = mid ++ c :: back) ∨ (c ∈ lead ∧ trimmed.length ≤ back.length) := by
  rcases List.append_eq_append_iff.mp whole with ⟨mid, before, shown⟩ | ⟨more, before, hidden⟩
  · exact .inl ⟨mid, before, shown⟩
  · cases more with
    | nil => exact .inl ⟨[], by simpa using before.symm, by simpa using hidden.symm⟩
    | cons d more =>
      rw [List.cons_append, List.cons.injEq] at hidden
      obtain ⟨rfl, rfl⟩ := hidden
      exact .inr ⟨by simp [before], by simp⟩

/-- The caret of an error stands under the character that the error is about exactly if all the blank characters in
front of the expression are white space to the reader. -/
theorem caret_under_error_iff (failed : convert expression = .error e)
    (other : e.cause.message ≠ "empty expression") :
    ∃ front back trimmed k,
      expression.toList = front ++ back ∧ width front = e.offset ∧
      trimmed = expression.toList.dropWhile isBlank ∧
      e.toDiagnostic.display expression =
        .ofList (trimmed ++ '\n' :: List.replicate k ' ') ++ "^\n" ++ e.cause.message ∧
      (trimmed.drop k = back ↔ ∀ c ∈ expression.toList.takeWhile isBlank, c ∈ [' ', '\t', '\r', '\n']) := by
  obtain ⟨front, c, back, text, offset, solid, accepted⟩ := exists_offender failed other
  refine ⟨front, c :: back, _, _, text, offset, rfl, rfl, ?_⟩
  have whole : expression.toList.takeWhile isBlank ++ expression.toList.dropWhile isBlank = front ++ c :: back := by
    rw [List.takeWhile_append_dropWhile, text]
  have blank : ∀ d ∈ expression.toList.takeWhile isBlank, isBlank d := fun d member => List.mem_takeWhile_imp member
  have column : e.toDiagnostic.column expression = width front - width (expression.toList.takeWhile isBlank) := by
    rw [Diagnostic.column, offset]
    rfl
  simp only [← isSpace_iff, column]
  generalize expression.toList.takeWhile isBlank = lead at whole blank ⊢
  generalize expression.toList.dropWhile isBlank = trimmed at whole ⊢
  obtain ⟨mid, rfl, rfl⟩ | ⟨inside, longer⟩ := shown_or_trimmed whole
  · refine iff_of_true (drop_column ?_ lead (c :: back)) ?_
    · intro d member
      obtain ⟨last?, a, act⟩ := accepted d (List.mem_append_right lead member)
      exact utf8Size_of_action act
    · intro d member
      obtain ⟨last?, a, act⟩ := accepted d (List.mem_append_left mid member)
      exact isSpace_of_action act (blank d member)
  · refine iff_of_false ?_ ?_
    · intro same
      have length := congrArg List.length same
      rw [List.length_drop, List.length_cons] at length
      omega
    · intro space
      have white := space c inside
      rw [solid] at white
      cases white

theorem caret_under_error_iff_tab :
    convert "\t 1+$" = .error ⟨.illegalCharacter '$', 4⟩ ∧
      (SyntaxError.Cause.illegalCharacter '$').message ≠ "empty expression" ∧
      ∃ front back trimmed k,
        "\t 1+$".toList = front ++ back ∧ width front = 4 ∧
        trimmed = "\t 1+$".toList.dropWhile isBlank ∧
        (SyntaxError.toDiagnostic ⟨.illegalCharacter '$', 4⟩).display "\t 1+$" =
          .ofList (trimmed ++ '\n' :: List.replicate k ' ') ++ "^\n" ++ "illegal character '$'" ∧
        (trimmed.drop k = back ↔ ∀ c ∈ "\t 1+$".toList.takeWhile isBlank, c ∈ [' ', '\t', '\r', '\n']) := by
  have failed : convert "\t 1+$" = .error ⟨.illegalCharacter '$', 4⟩ := by decide +kernel
  have other : (SyntaxError.Cause.illegalCharacter '$').message ≠ "empty expression" := by decide
  exact ⟨failed, other, caret_under_error_iff failed other⟩

/-- A vertical tab is trimmed although it is what the error is about, and so the caret does not always stand under
that character. -/
theorem caret_beside_vertical_tab :
    ¬ ∀ (expression : String) (e : SyntaxError) (front back : List Char), convert expression = .error e →
      e.cause.message ≠ "empty expression" → expression.toList = front ++ back → width front = e.offset →
        (expression.toList.dropWhile isBlank).drop (e.toDiagnostic.column expression) = back := by
  intro always
  have failed : convert "\x0b1" = .error ⟨.illegalCharacter '\x0b', 0⟩ := by decide +kernel
  have under := always "\x0b1" _ [] ['\x0b', '1'] failed (by decide) rfl rfl
  exact absurd under (by decide)

end Expression

end Polish
