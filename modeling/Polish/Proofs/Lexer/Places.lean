import Polish.Proofs.Lexer.Tokenize

/-!
# Places in a text

A token of a split has its word in the text of the split, at the byte offset that it carries. What is read consists of
characters of one byte, so an offset into it also counts its characters, and a character that is refused stands right
behind what has been read.
-/

namespace Polish.Lexer

open Text (width)

open SyntaxError (Cause)

/-! ## Tokens and pieces -/

/-- A token among those of some pieces belongs to one of the pieces. -/
theorem exists_piece_of_tokensFrom {pieces : List Piece} {offset : Nat} {before after : List Token} {token : Token}
    (split : tokensFrom offset pieces = before ++ token :: after) :
    ∃ front p back, pieces = front ++ p :: back ∧ before = tokensFrom offset front ∧
      token = p.token (offset + width (sourceOf front)) ∧
      after = tokensFrom (offset + width (sourceOf front) + width p.source) back := by
  induction pieces generalizing offset before with
  | nil => simp [tokensFrom] at split
  | cons q rest ih =>
    rw [tokensFrom] at split
    rcases List.cons_eq_append_iff.mp split with ⟨rfl, same⟩ | ⟨others, rfl, later⟩
    · cases same
      exact ⟨[], q, rest, rfl, rfl, by simp, by simp⟩
    · obtain ⟨front, p, back, rfl, rfl, rfl, rfl⟩ := ih later
      exact ⟨q :: front, p, back, rfl, rfl, by simp [Nat.add_assoc], by simp [Nat.add_assoc]⟩

/-- A token that is a number belongs to a piece with a number. -/
theorem Piece.exists_number {p : Piece} {offset : Nat} {n : Numeral} (kind : (p.token offset).kind = .number n) :
    ∃ text, p.word = .number text ∧ Word.numeral (!p.space.isEmpty) text = n := by
  cases word : p.word with
  | number text =>
    rw [token, Word.token, word] at kind
    exact ⟨text, rfl, Token.Kind.number.inj kind⟩
  | openParen => simp [token, Word.token, word, Word.kind] at kind
  | closeParen => simp [token, Word.token, word, Word.kind] at kind
  | operator op => simp [token, Word.token, word, Word.kind] at kind

/-- The token of a piece has its text behind what stands before the piece, and its offset is the size of that. -/
theorem Split.text_around (s : Split) {expression : String} {before after : List Piece} {p : Piece}
    (source : s.source = expression.toList) (pieces : s.pieces = before ++ p :: after) (offset : Nat) :
    expression = .ofList (s.lead ++ sourceOf before) ++ (p.token offset).text ++ .ofList (p.space ++ sourceOf after) ∧
      (String.ofList (s.lead ++ sourceOf before)).utf8ByteSize = width s.lead + width (sourceOf before) := by
  constructor
  · rw [← String.toList_inj, ← source, Split.source, pieces]
    simp [Piece.token, Word.token, Piece.source]
  · rw [Text.utf8ByteSize_ofList, Text.width_append]

/-- The text of a token stands at its offset. -/
theorem exists_place_of_tokenize {expression : String} {tokens before after : List Token} {token : Token}
    (read : tokenize expression = .ok tokens) (split : tokens = before ++ token :: after) :
    ∃ (word : Word) (spaced : Bool) (front back : List Char), word.WellFormed ∧
      token = word.token (width front) spaced ∧ expression.toList = front ++ word.text ++ back := by
  obtain ⟨s, -, source, rfl⟩ := exists_split read
  obtain ⟨front, p, back, pieces, -, place, -⟩ := exists_piece_of_tokensFrom split
  refine ⟨p.word, !p.space.isEmpty, s.lead ++ sourceOf front, p.space ++ sourceOf back, p.wellFormed, ?_, ?_⟩
  · rw [place, Piece.token, Text.width_append]
  · simp [← source, Split.source, pieces, Piece.source]

/-! ## Single bytes -/

/-- Every character that is accepted is a single byte. -/
theorem utf8Size_of_action {last? : Option Token.Kind} {c : Char} {a : Action} (h : action last? c = .ok a) :
    c.utf8Size = 1 := by
  cases charCase c with
  | blank blank =>
    simp only [isSpace, Bool.or_eq_true, beq_iff_eq] at blank
    rcases blank with ((rfl | rfl) | rfl) | rfl <;> rfl
  | openParen => rfl
  | closeParen => rfl
  | numeric numeric =>
    rcases numeric with digit | rfl
    · simp only [Char.isDigit, Bool.and_eq_true, decide_eq_true_eq] at digit
      have ascii : c.val ≤ 127 := by
        have upper := digit.2
        rw [UInt32.le_iff_toNat_le] at upper ⊢
        exact Nat.le_trans upper (by decide)
      exact Char.utf8Size_eq_one_iff.mpr ascii
    · rfl
  | symbol op => cases op <;> rfl
  | illegal illegal =>
    rw [illegal] at h
    cases h

namespace State

/-- Every character that has been read was accepted after some token. -/
theorem exists_action_of_mem {s t : State} {text : List Char} (h : s.run text = .ok t) :
    ∀ c ∈ text, ∃ last? a, action last? c = .ok a := by
  induction text generalizing s with
  | nil => exact List.forall_mem_nil _
  | cons c rest ih =>
    obtain ⟨next, step, later⟩ := exists_step_of_run h
    obtain ⟨a, act, -⟩ := exists_action_of_step step
    exact List.forall_mem_cons.mpr ⟨⟨_, a, act⟩, ih later⟩

/-- Everything that has been read is made of single bytes. -/
theorem utf8Size_of_run {s t : State} {text : List Char} (h : s.run text = .ok t) : ∀ c ∈ text, c.utf8Size = 1 := by
  intro c member
  obtain ⟨last?, a, act⟩ := exists_action_of_mem h c member
  exact utf8Size_of_action act

/-- A run ends in an error at the first character that is refused, and the error is about that character. -/
theorem exists_refused_of_run {s : State} {text : List Char} {e : SyntaxError} (h : s.run text = .error e) :
    ∃ front c back t cause, text = front ++ c :: back ∧ s.run front = .ok t ∧ action t.last? c = .error cause ∧
      e = ⟨cause, t.offset⟩ := by
  obtain ⟨front, c, back, t, rfl, start, refused⟩ := Fold.eq_error_iff.mp h
  rw [step] at refused
  cases act : action t.last? c with
  | ok a =>
    rw [act] at refused
    cases refused
  | error cause =>
    rw [act] at refused
    cases refused
    exact ⟨front, c, back, t, cause, rfl, start, act, rfl⟩

end State

/-- What has been tokenized is made of single bytes. -/
theorem utf8Size_of_tokenize {expression : String} {tokens : List Token} (h : tokenize expression = .ok tokens) :
    ∀ c ∈ expression.toList, c.utf8Size = 1 := by
  obtain ⟨s, run, -⟩ := exists_run_of_tokenize h
  exact State.utf8Size_of_run run

/-! ## Letters -/

theorem isAlpha_of_isDigit {c : Char} (digit : c.isDigit) : c.isAlpha = false := by
  show (decide ('A'.val ≤ c.val ∧ c.val ≤ 'Z'.val) || (decide ('a'.val ≤ c.val) && decide (c.val ≤ 'z'.val))) = false
  simp [Char.isDigit, UInt32.le_iff_toNat_le] at digit ⊢
  omega

/-- No letter is accepted. -/
theorem isAlpha_of_action {last? : Option Token.Kind} {c : Char} {a : Action} (h : action last? c = .ok a) :
    c.isAlpha = false := by
  cases charCase c with
  | blank blank =>
    simp only [isSpace, Bool.or_eq_true, beq_iff_eq] at blank
    rcases blank with ((rfl | rfl) | rfl) | rfl <;> rfl
  | openParen => rfl
  | closeParen => rfl
  | numeric numeric =>
    rcases numeric with digit | rfl
    · exact isAlpha_of_isDigit digit
    · rfl
  | symbol op => cases op <;> rfl
  | illegal illegal =>
    rw [illegal] at h
    cases h

/-- What has been tokenized has no letters. -/
theorem isAlpha_of_tokenize {expression : String} {tokens : List Token} (h : tokenize expression = .ok tokens) :
    ∀ c ∈ expression.toList, c.isAlpha = false := by
  obtain ⟨s, run, -⟩ := exists_run_of_tokenize h
  intro c member
  obtain ⟨last?, a, act⟩ := State.exists_action_of_mem run c member
  exact isAlpha_of_action act

/-! ## Blank expressions -/

/-- Nothing but white space is read before the first token. -/
theorem blank_of_run {text : List Char} {t : State} (h : State.run ⟨0, []⟩ text = .ok t) (none : t.tokens = []) :
    ∀ c ∈ text, isSpace c := by
  obtain ⟨s, source, rfl⟩ := @Split.exists_of_run text Split.empty t h
  have pieces : s.pieces = [] := by simpa [Split.state, Split.tokens] using none
  have lead : s.lead = text := by simpa [Split.source, pieces, Split.empty] using source
  exact lead ▸ s.blank

/-- An expression that is not read is blank, or has a character that is refused. -/
theorem tokenize_eq_error_cases {expression : String} {e : SyntaxError} (h : tokenize expression = .error e) :
    (e = ⟨.emptyExpression, 0⟩ ∧ ∀ c ∈ expression.toList, isSpace c) ∨
      ∃ front c back t cause, expression.toList = front ++ c :: back ∧ State.run ⟨0, []⟩ front = .ok t ∧
        action t.last? c = .error cause ∧ e = ⟨cause, width front⟩ := by
  rcases run_error_or_empty_of_tokenize h with failed | ⟨t, run, none, rfl⟩
  · obtain ⟨front, c, back, t, cause, text, start, act, rfl⟩ := State.exists_refused_of_run failed
    exact .inr ⟨front, c, back, t, cause, text, start, act, by simp [State.offset_of_run start]⟩
  · exact .inl ⟨rfl, blank_of_run run none⟩

/-- A blank expression has no tokens. -/
theorem tokenize_of_blank {expression : String} (blank : ∀ c ∈ expression.toList, isSpace c) :
    tokenize expression = .error ⟨.emptyExpression, 0⟩ := by
  rw [tokenize_of_run (run_lead blank 0)]
  rfl

end Polish.Lexer
