import Polish.Proofs.Expression.Stages
import Polish.Proofs.Lexer.Places
import Polish.Proofs.ShuntingYard.Faults

/-!
# Where an expression is wrong

The offset of an error is a place in the expression, and the text from there begins with what the message talks about
(`IsAbout`). Before that place there are only characters of one byte.

A character that is refused is the next one to be read. A fault found later is that of a token, and the text of the
token stands at the token's offset; a number's text has the plus that its literal lacks.
-/

namespace Polish.Expression

open Lexer ShuntingYard
open SyntaxError (Cause)
open Text (width)

/-- The words before and after the quotation in the messages that quote a character. -/
def quotations : List (String × String) :=
  [("illegal character ", ""), ("expected operator but ", " found"), ("too many operators, ", " found"),
   ("missing operand before ", ""), ("", " unexpected as unary operator"), ("unbalanced ", "")]

/-- The text begins with what the message is about. -/
inductive IsAbout : (message : String) → (text : List Char) → Prop where
  | character (before after : String) (quotation : (before, after) ∈ quotations) (c : Char) (rest : List Char) :
      IsAbout (before ++ "'" ++ String.singleton c ++ "'" ++ after) (c :: rest)
  | point (rest : List Char) : IsAbout "number already has a decimal point" ('.' :: rest)
  | plus (rest : List Char) : IsAbout "number is empty" ('+' :: rest)
  | literal (literal : String) (rest : List Char) :
      IsAbout ("invalid number literal '" ++ literal ++ "'") (literal.toList ++ rest)
  | literalBehindPlus (literal : String) (rest : List Char) :
      IsAbout ("invalid number literal '" ++ literal ++ "'") ('+' :: literal.toList ++ rest)

variable {expression : String} {e : SyntaxError}

/-- An expression cannot be converted if it is not read or its tokens are not reordered. -/
theorem convert_error_cases (failed : convert expression = .error e) :
    tokenize expression = .error e ∨
      ∃ tokens, tokenize expression = .ok tokens ∧ toPrefix tokens = .error e := by
  cases read : tokenize expression with
  | error e' =>
    rw [convert, read] at failed
    cases failed
    exact .inl rfl
  | ok tokens =>
    rw [convert_of_tokenize read] at failed
    exact .inr ⟨tokens, rfl, failed⟩

/-! ## Refused characters -/

theorem isAbout_of_digitAction {last? : Option Token.Kind} {c : Char} {cause : Cause}
    (refused : digitAction last? c = .error cause) (rest : List Char) : IsAbout cause.message (c :: rest) := by
  unfold digitAction at refused
  split at refused
  · split at refused
    · cases refused
      exact .character "expected operator but " " found" (by simp [quotations]) c rest
    · split at refused
      · next second =>
        cases refused
        rw [second.1]
        exact .point rest
      · cases refused
  · cases refused
    exact .character "expected operator but " " found" (by simp [quotations]) c rest
  all_goals cases refused

theorem isAbout_of_signAction {last? : Option Token.Kind} {op : Operator} {cause : Cause}
    (refused : signAction last? op = .error cause) (rest : List Char) : IsAbout cause.message (op.symbol :: rest) := by
  unfold signAction at refused
  split at refused
  · split at refused
    · cases refused
      exact .character "" " unexpected as unary operator" (by simp [quotations]) op.symbol rest
    · cases refused
  all_goals cases refused

theorem isAbout_of_operatorAction {last? : Option Token.Kind} {op : Operator} {cause : Cause}
    (refused : operatorAction last? op = .error cause) (rest : List Char) :
    IsAbout cause.message (op.symbol :: rest) := by
  have missing : IsAbout (Cause.missingOperand op.symbol).message (op.symbol :: rest) :=
    .character "missing operand before " "" (by simp [quotations]) op.symbol rest
  unfold operatorAction at refused
  split at refused
  · split at refused
    · cases refused
      exact missing
    · cases refused
  · cases refused
  · cases refused
    exact .character "too many operators, " " found" (by simp [quotations]) op.symbol rest
  all_goals
    cases refused
    exact missing

/-- The message about a refused character quotes the character, or says which character it is. -/
theorem isAbout_of_action {last? : Option Token.Kind} {c : Char} {cause : Cause}
    (refused : action last? c = .error cause) (rest : List Char) : IsAbout cause.message (c :: rest) := by
  cases charCase c with
  | blank blank => simp [action, blank] at refused
  | openParen =>
    rw [action_openParen] at refused
    split at refused
    · cases refused
    · cases refused
      exact .character "expected operator but " " found" (by simp [quotations]) '(' rest
  | closeParen =>
    rw [action_closeParen] at refused
    split at refused
    · cases refused
      exact .character "missing operand before " "" (by simp [quotations]) ')' rest
    · cases refused
  | numeric numeric =>
    rw [action_numeric numeric] at refused
    exact isAbout_of_digitAction refused rest
  | symbol op =>
    rw [action_symbol] at refused
    split at refused
    · exact isAbout_of_signAction refused rest
    · exact isAbout_of_operatorAction refused rest
  | illegal illegal =>
    rw [illegal] at refused
    cases refused
    exact .character "illegal character " "" (by simp [quotations]) c rest

/-! ## Tokens with a fault -/

/-- The text of a number is its literal, with a plus in front or without. -/
theorem text_eq_literalOf {text : List Char} : text = literalOf text ∨ text = '+' :: literalOf text := by
  cases text with
  | nil => exact .inl rfl
  | cons c rest =>
    by_cases plus : c = '+'
    · exact .inr (by simp [literalOf, plus])
    · exact .inl (by simp [literalOf, plus])

theorem isAbout_literal (text rest : List Char) :
    IsAbout ("invalid number literal '" ++ .ofList (literalOf text) ++ "'") (text ++ rest) := by
  have literal : (String.ofList (literalOf text)).toList = literalOf text := String.toList_ofList
  generalize String.ofList (literalOf text) = l at literal ⊢
  rcases @text_eq_literalOf text with plain | plus
  · rw [plain, ← literal]
    exact .literal l rest
  · rw [plus, ← literal]
    exact .literalBehindPlus l rest

/-- The message about a fault is about the text of the token. -/
theorem isAbout_of_fault {word : Word} (wellFormed : word.WellFormed) {offset : Nat} {spaced : Bool}
    {before : List Token} {d : Diagnostic} (fault : Fault before (word.token offset spaced) d) (rest : List Char) :
    d.offset = offset ∧ IsAbout d.message (word.text ++ rest) := by
  cases fault with
  | emptyNumber n kind empty =>
    refine ⟨rfl, ?_⟩
    cases word with
    | number text =>
      cases kind
      have none : literalOf text = [] := String.ofList_eq_empty_iff.mp empty
      have number : IsNumber text := wellFormed
      rcases @text_eq_literalOf text with plain | plus
      · exact absurd (plain.trans none) number.nonempty
      · rw [Word.text, plus, none]
        exact .plus rest
    | openParen => cases kind
    | closeParen => cases kind
    | operator op => cases kind
  | invalidLiteral n kind nonempty rejected =>
    refine ⟨rfl, ?_⟩
    cases word with
    | number text =>
      cases kind
      exact isAbout_literal text rest
    | openParen => cases kind
    | closeParen => cases kind
    | operator op => cases kind
  | unmatchedClose kind unmatched =>
    refine ⟨rfl, ?_⟩
    cases word with
    | closeParen => exact .character "unbalanced " "" (by simp [quotations]) ')' rest
    | number text => cases kind
    | openParen => cases kind
    | operator op => cases kind

/-! ## Both together -/

/-- The places at which an error can be reported: what stands before is made of single bytes, and what the message is
about comes next. -/
structure Place (expression : String) (d : Diagnostic) (front back : String) : Prop where
  text : expression = front ++ back
  bytes : front.utf8ByteSize = d.offset
  chars : front.length = d.offset
  single : ∀ c ∈ front.toList, c.utf8Size = 1
  inside : d.offset < expression.utf8ByteSize
  isAbout : IsAbout d.message back.toList

theorem width_of_single {text : List Char} (single : ∀ c ∈ text, c.utf8Size = 1) : width text = text.length := by
  induction text with
  | nil => rfl
  | cons c rest ih =>
    obtain ⟨one, later⟩ := List.forall_mem_cons.mp single
    rw [Text.width_cons, ih later, one, List.length_cons, Nat.add_comm]

theorem place_of_toList {d : Diagnostic} {front back : List Char} (text : expression.toList = front ++ back)
    (single : ∀ c ∈ front, c.utf8Size = 1) (offset : width front = d.offset) (nonempty : back ≠ [])
    (isAbout : IsAbout d.message back) : Place expression d (.ofList front) (.ofList back) := by
  have whole : expression = .ofList front ++ .ofList back := by
    rw [← String.ofList_append, ← text, String.ofList_toList]
  obtain ⟨c, rest, rfl⟩ := List.exists_cons_of_ne_nil nonempty
  refine ⟨whole, ?_, ?_, ?_, ?_, ?_⟩
  · rw [Text.utf8ByteSize_ofList, offset]
  · rw [String.length_ofList, ← width_of_single single, offset]
  · rw [String.toList_ofList]
    exact single
  · rw [whole, String.utf8ByteSize_append, Text.utf8ByteSize_ofList, Text.utf8ByteSize_ofList, offset, Text.width_cons]
    have := c.utf8Size_pos
    omega
  · rw [String.toList_ofList]
    exact isAbout

/-- A message about a token is told at the place where the token stands. -/
theorem exists_place_of_token {tokens before after : List Token} {token : Token} {d : Diagnostic}
    (read : tokenize expression = .ok tokens) (split : tokens = before ++ token :: after)
    (isAbout : ∀ (word : Word) offset spaced rest, word.WellFormed → token = word.token offset spaced →
      d.offset = offset ∧ IsAbout d.message (word.text ++ rest)) :
    ∃ front back, Place expression d front back := by
  obtain ⟨word, spaced, front, back, wellFormed, here, text⟩ := exists_place_of_tokenize read split
  obtain ⟨offset, about⟩ := isAbout word (width front) spaced back wellFormed here
  obtain ⟨c, rest, start, -⟩ := Word.exists_text wellFormed
  rw [List.append_assoc] at text
  have single : ∀ c ∈ front, c.utf8Size = 1 := by
    intro c member
    refine utf8Size_of_tokenize read c ?_
    rw [text]
    exact List.mem_append_left _ member
  exact ⟨_, _, place_of_toList text single offset.symm (by simp [start]) about⟩

theorem exists_place_of_reports {tokens : List Token} {d : Diagnostic} (read : tokenize expression = .ok tokens)
    (reports : Reports tokens d) : ∃ front back, Place expression d front back := by
  cases reports with
  | fault before token after d split leftmost fault =>
    refine exists_place_of_token read split ?_
    rintro word offset spaced rest wellFormed rfl
    exact isAbout_of_fault wellFormed fault rest
  | unmatchedOpen before token after split faultless kind unmatched rightmost =>
    refine exists_place_of_token read split ?_
    rintro word offset spaced rest wellFormed rfl
    cases word with
    | openParen => exact ⟨rfl, .character "unbalanced " "" (by simp [quotations]) '(' rest⟩
    | number text => cases kind
    | closeParen => cases kind
    | operator op => cases kind

/-- An expression that cannot be converted is blank, or it is wrong at some place. -/
theorem blank_or_exists_place (failed : convert expression = .error e) :
    (e = ⟨.emptyExpression, 0⟩ ∧ ∀ c ∈ expression.toList, isSpace c) ∨
      ∃ front back, Place expression e.toDiagnostic front back := by
  rcases convert_error_cases failed with unread | ⟨tokens, read, unordered⟩
  · rcases tokenize_eq_error_cases unread with blank | ⟨front, c, back, t, cause, text, start, refused, rfl⟩
    · exact .inl blank
    · have single := State.utf8Size_of_run start
      exact .inr ⟨_, _, place_of_toList text single rfl (by simp) (isAbout_of_action refused back)⟩
  · exact .inr (exists_place_of_reports read (reports_of_error unordered))

theorem IsAbout.ne_empty {message : String} {text : List Char} (isAbout : IsAbout message text) :
    message ≠ "empty expression" := by
  intro same
  have chars := congrArg String.toList same
  cases isAbout with
  | character before after quotation c rest =>
    simp only [quotations, List.mem_cons, Prod.mk.injEq, List.not_mem_nil, or_false] at quotation
    rcases quotation with ⟨rfl, rfl⟩ | ⟨rfl, rfl⟩ | ⟨rfl, rfl⟩ | ⟨rfl, rfl⟩ | ⟨rfl, rfl⟩ | ⟨rfl, rfl⟩ <;>
      simp at chars
  | point rest => simp at chars
  | plus rest => simp at chars
  | literal literal rest => simp at chars
  | literalBehindPlus literal rest => simp at chars

theorem convert_of_blank (blank : ∀ c ∈ expression.toList, isSpace c) :
    convert expression = .error ⟨.emptyExpression, 0⟩ := by
  rw [convert, tokenize_of_blank blank]
  rfl

theorem isSpace_iff {c : Char} : isSpace c ↔ c ∈ [' ', '\t', '\r', '\n'] := by
  simp [isSpace, or_assoc]

/-- Every error but that of an empty expression points at what its message is about, and an expression is empty, which
is told at offset 0, exactly if it consists of white space. -/
theorem convert_error_offset (expression : String) :
    (∀ e, convert expression = .error e → e.cause.message ≠ "empty expression" →
      ∃ front back, Place expression e.toDiagnostic front back) ∧
    ((∃ e, convert expression = .error e ∧ e.toDiagnostic = ⟨"empty expression", 0⟩) ↔
      ∀ c ∈ expression.toList, c ∈ [' ', '\t', '\r', '\n']) ∧
    ∀ e, convert expression = .error e → e.cause.message = "empty expression" → e.offset = 0 := by
  simp only [← isSpace_iff]
  refine ⟨?_, ⟨?_, ?_⟩, ?_⟩
  · intro e failed other
    rcases blank_or_exists_place failed with ⟨rfl, -⟩ | place
    · exact absurd rfl other
    · exact place
  · rintro ⟨e, failed, told⟩
    rcases blank_or_exists_place failed with ⟨-, blank⟩ | ⟨front, back, place⟩
    · exact blank
    · exact absurd (congrArg Diagnostic.message told) place.isAbout.ne_empty
  · intro blank
    exact ⟨_, convert_of_blank blank, rfl⟩
  · intro e failed empty
    rcases blank_or_exists_place failed with ⟨rfl, -⟩ | ⟨front, back, place⟩
    · rfl
    · exact absurd empty place.isAbout.ne_empty

theorem convert_error_offset_plus :
    convert "2*(+007)" = .error ⟨.invalidLiteral "007", 3⟩ ∧
      "invalid number literal '007'" ≠ "empty expression" ∧
      ∃ front back, Place "2*(+007)" ⟨"invalid number literal '007'", 3⟩ front back := by
  have failed : convert "2*(+007)" = .error ⟨.invalidLiteral "007", 3⟩ := by decide +kernel
  have other : "invalid number literal '007'" ≠ "empty expression" := by decide
  exact ⟨failed, other, (convert_error_offset "2*(+007)").1 _ failed other⟩

end Polish.Expression
