import Polish.Proofs.Expression.Offsets
import Polish.Proofs.ShuntingYard.Relocation

/-!
# White space in front of an expression

Reading looks at the kinds of tokens only, so it goes on behind white space as it would at the beginning, with all
offsets moved by the width of the white space. What is displayed does not change, since the white space is trimmed and
the column of the caret is counted from there.
-/

namespace Polish

open Text (width isBlank)

namespace Lexer

/-! ## Reading from another offset -/

namespace State

variable (k : Nat)

/-- The state of a reading that began `k` bytes further on. -/
def moveBy (s : State) : State := ⟨s.offset + k, s.tokens.map (Token.relocate (· + k))⟩

theorem relocate_markSpace (t : Token) : (t.relocate (· + k)).markSpace = t.markSpace.relocate (· + k) := by
  obtain ⟨offset, kind, text⟩ := t
  cases kind with
  | number n => rfl
  | openParen => rfl
  | closeParen => rfl
  | operator op => rfl

theorem relocate_extend (c : Char) (t : Token) :
    (t.relocate (· + k)).extend c = (t.extend c).relocate (· + k) := by
  obtain ⟨offset, kind, text⟩ := t
  cases kind with
  | number n => rfl
  | openParen => rfl
  | closeParen => rfl
  | operator op => rfl

theorem last?_moveBy (s : State) : (s.moveBy k).last? = s.last? := by
  obtain ⟨offset, tokens⟩ := s
  cases tokens with
  | nil => rfl
  | cons token rest => rfl

theorem apply_moveBy (s : State) (c : Char) (a : Action) : (s.moveBy k).apply c a = (s.apply c a).moveBy k := by
  obtain ⟨offset, tokens⟩ := s
  have size : offset + k + c.utf8Size = offset + c.utf8Size + k := Nat.add_right_comm ..
  cases a with
  | skip =>
    cases tokens with
    | nil => simp [apply, moveBy, size]
    | cons token rest => simp [apply, moveBy, size, relocate_markSpace]
  | start kind => simp [apply, moveBy, size, Token.relocate]
  | extend =>
    cases tokens with
    | nil => simp [apply, moveBy, size]
    | cons token rest => simp [apply, moveBy, size, relocate_extend]

theorem step_moveBy (s : State) (c : Char) :
    (s.moveBy k).step c = relocateVerdict (· + k) (moveBy k) (s.step c) := by
  rw [step, step, last?_moveBy]
  cases action s.last? c with
  | ok a => exact congrArg Except.ok (apply_moveBy k s c a)
  | error cause => rfl

theorem run_moveBy (s : State) (text : List Char) :
    (s.moveBy k).run text = relocateVerdict (· + k) (moveBy k) (s.run text) := by
  induction text generalizing s with
  | nil => rfl
  | cons c rest ih =>
    rw [run, run, Fold.cons, Fold.cons, step_moveBy]
    exact relocateVerdict_bind (· + k) ih (s.step c)

end State

variable {lead : String}

/-- Behind white space the tokens are read as they are without it, unless there are none. -/
theorem tokenize_of_lead (blank : ∀ c ∈ lead.toList, isSpace c) (expression : String) :
    (tokenize expression = .error ⟨.emptyExpression, 0⟩ ∧
      tokenize (lead ++ expression) = .error ⟨.emptyExpression, 0⟩) ∨
    tokenize (lead ++ expression) =
      relocateVerdict (· + lead.utf8ByteSize) (List.map (Token.relocate (· + lead.utf8ByteSize)))
        (tokenize expression) := by
  have run : State.run ⟨0, []⟩ (lead ++ expression).toList =
      relocateVerdict (· + lead.utf8ByteSize) (State.moveBy lead.utf8ByteSize)
        (State.run ⟨0, []⟩ expression.toList) := by
    rw [String.toList_append, State.run_append_of_run (run_lead blank 0), Text.width_toList, ← State.run_moveBy]
    rfl
  rw [tokenize, tokenize, run]
  cases State.run ⟨0, []⟩ expression.toList with
  | error e => exact .inr rfl
  | ok s =>
    obtain ⟨offset, tokens⟩ := s
    cases tokens with
    | nil => exact .inl ⟨rfl, rfl⟩
    | cons token rest =>
      refine .inr ?_
      simp [relocateVerdict, Except.bind, State.finish, State.moveBy]

end Lexer

namespace Expression

open Lexer ShuntingYard

variable {lead expression : String}

theorem convert_of_lead (blank : ∀ c ∈ lead.toList, isSpace c) (expression : String) :
    (convert expression = .error ⟨.emptyExpression, 0⟩ ∧
      convert (lead ++ expression) = .error ⟨.emptyExpression, 0⟩) ∨
    convert (lead ++ expression) =
      relocateVerdict (· + lead.utf8ByteSize) (List.map (Token.relocate (· + lead.utf8ByteSize)))
        (convert expression) := by
  rw [convert, convert]
  rcases tokenize_of_lead blank expression with ⟨nothing, nothing'⟩ | moved
  · rw [nothing, nothing']
    exact .inl ⟨rfl, rfl⟩
  · rw [moved]
    exact .inr (relocateVerdict_bind _ (toPrefix_relocate _) _)

/-! ## The display -/

theorem isBlank_of_isSpace {c : Char} (space : isSpace c) : isBlank c := by
  simp only [isSpace, Bool.or_eq_true, beq_iff_eq] at space
  rcases space with ((rfl | rfl) | rfl) | rfl
  · decide
  · decide
  · decide
  · decide

/-- White space in front is trimmed, and the column is counted from behind it. -/
theorem display_of_lead (blank : ∀ c ∈ lead.toList, isSpace c) {d d' : Diagnostic} (message : d'.message = d.message)
    (offset : d'.offset = d.offset + lead.utf8ByteSize ∨ d'.offset = 0 ∧ d.offset = 0) :
    d'.display (lead ++ expression) = d.display expression := by
  have blank' : ∀ c ∈ lead.toList, isBlank c := fun c member => isBlank_of_isSpace (blank c member)
  have column : d'.column (lead ++ expression) = d.column expression := by
    rw [Diagnostic.column, Diagnostic.column, String.toList_append, List.takeWhile_append_of_pos blank',
      Text.width_append, Text.width_toList]
    omega
  rw [Diagnostic.display, Diagnostic.display, column, message, String.toList_append,
    List.dropWhile_append_of_pos blank']

/-- White space in front of an expression changes neither what becomes of it nor how an error is displayed. Every
offset grows by the width of the white space, that of an empty expression excepted. -/
theorem convert_behind_white_space (blank : ∀ c ∈ lead.toList, c ∈ [' ', '\t', '\r', '\n']) (expression : String) :
    ((convert (lead ++ expression)).isOk ↔ (convert expression).isOk) ∧
    (∀ tokens, convert expression = .ok tokens →
      convert (lead ++ expression) = .ok (tokens.map (Token.relocate (· + lead.utf8ByteSize)))) ∧
    ∀ e e', convert expression = .error e → convert (lead ++ expression) = .error e' →
      e'.cause.message = e.cause.message ∧
      (e'.offset = e.offset + lead.utf8ByteSize ∨
        e'.toDiagnostic = ⟨"empty expression", 0⟩ ∧ e.toDiagnostic = ⟨"empty expression", 0⟩) ∧
      e'.toDiagnostic.display (lead ++ expression) = e.toDiagnostic.display expression := by
  simp only [← isSpace_iff] at blank
  rcases convert_of_lead blank expression with ⟨nothing, nothing'⟩ | moved
  · rw [nothing, nothing']
    refine ⟨Iff.rfl, ?_, ?_⟩
    · intro tokens converted
      cases converted
    · intro e e' failed failed'
      cases failed
      cases failed'
      exact ⟨rfl, .inr ⟨rfl, rfl⟩, display_of_lead blank rfl (.inr ⟨rfl, rfl⟩)⟩
  · rw [moved]
    cases convert expression with
    | ok tokens =>
      refine ⟨Iff.rfl, ?_, ?_⟩
      · intro tokens' converted
        cases converted
        rfl
      · intro e e' failed
        cases failed
    | error e =>
      refine ⟨Iff.rfl, ?_, ?_⟩
      · intro tokens converted
        cases converted
      · intro e' e'' failed failed'
        cases failed
        cases failed'
        exact ⟨rfl, .inl rfl, display_of_lead blank rfl (.inl rfl)⟩

theorem convert_behind_white_space_tab :
    (∀ c ∈ "\t ".toList, c ∈ [' ', '\t', '\r', '\n']) ∧
      convert "1+$" = .error ⟨.illegalCharacter '$', 2⟩ ∧
      convert ("\t " ++ "1+$") = .error ⟨.illegalCharacter '$', 4⟩ ∧
      ((convert ("\t " ++ "1+$")).isOk ↔ (convert "1+$").isOk) ∧
      (∀ tokens, convert "1+$" = .ok tokens →
        convert ("\t " ++ "1+$") = .ok (tokens.map (Token.relocate (· + "\t ".utf8ByteSize)))) ∧
      ∀ e e', convert "1+$" = .error e → convert ("\t " ++ "1+$") = .error e' →
        e'.cause.message = e.cause.message ∧
        (e'.offset = e.offset + "\t ".utf8ByteSize ∨
          e'.toDiagnostic = ⟨"empty expression", 0⟩ ∧ e.toDiagnostic = ⟨"empty expression", 0⟩) ∧
        e'.toDiagnostic.display ("\t " ++ "1+$") = e.toDiagnostic.display "1+$" := by
  have blank : ∀ c ∈ "\t ".toList, c ∈ [' ', '\t', '\r', '\n'] := by simp
  exact ⟨blank, by decide +kernel, by decide +kernel, convert_behind_white_space blank "1+$"⟩

end Expression

end Polish
