import Polish.Proofs.Lexer.Decision

/-!
# Reading the text of a split

From the first character to the last, `State.run` turns the text of a split into the tokens of the split
(`Split.run_source`): white space marks the last token, the first character of a word starts a token, and the other
characters of a number extend it. Hence the text of a split has one split only.
-/

namespace Polish.Lexer

open Text (width)

namespace State

theorem step_of_decides {s : State} {c : Char} {a : Action} (h : Decides s.last? c a) :
    s.step c = .ok (s.apply c a) := by
  rw [step, action_eq_ok_iff.mpr h]

@[simp] theorem run_nil (s : State) : s.run [] = .ok s := rfl

theorem run_cons_of_decides {s : State} {c : Char} {a : Action} (h : Decides s.last? c a) (rest : List Char) :
    s.run (c :: rest) = (s.apply c a).run rest :=
  Fold.cons_of_ok (step_of_decides h) rest

theorem run_append_of_run {s t : State} {front : List Char} (run : s.run front = .ok t) (back : List Char) :
    s.run (front ++ back) = t.run back :=
  Fold.append_of_ok run back

theorem exists_step_of_run {s t : State} {c : Char} {rest : List Char} (h : s.run (c :: rest) = .ok t) :
    ∃ next, s.step c = .ok next ∧ next.run rest = .ok t :=
  Fold.exists_of_cons h

end State

/-! ## Changes to the token of a word -/

theorem markSpace_token (offset : Nat) (spaced : Bool) (word : Word) :
    (word.token offset spaced).markSpace = word.token offset true := by
  cases word <;> rfl

theorem Piece.token_addBlank (p : Piece) {c : Char} (blank : isSpace c) (offset : Nat) :
    (p.addBlank blank).token offset = (p.token offset).markSpace := by
  have spaced : (!(p.space ++ [c]).isEmpty) = true := by simp
  rw [Piece.token, Piece.token, markSpace_token, addBlank, spaced]

/-- A character that extends a number goes to its literal and to its text. -/
theorem extend_token {text : List Char} (nonempty : text ≠ []) (offset : Nat) (c : Char) :
    ((Word.number text).token offset false).extend c = (Word.number (text ++ [c])).token offset false := by
  have literal : (String.ofList (literalOf text)).push c = .ofList (literalOf (text ++ [c])) := by
    rw [literalOf_append nonempty, String.ofList_append, String.push_eq_append, String.singleton_eq_ofList]
  have whole : (String.ofList text).push c = .ofList (text ++ [c]) := by
    rw [String.ofList_append, String.push_eq_append, String.singleton_eq_ofList]
  have points : ((literalOf text).contains '.' || c == '.') = (literalOf (text ++ [c])).contains '.' := by
    rw [literalOf_append nonempty, List.contains_append, List.contains_cons, List.contains_nil, Bool.or_false,
      Bool.beq_comm]
  simp only [Token.extend, Word.token, Word.kind, Word.numeral, Word.text, literal, whole, points]

/-! ## Runs over the parts of a piece -/

/-- White space after a word marks its token. -/
theorem run_space {space : List Char} (blank : ∀ c ∈ space, isSpace c) (position offset : Nat) (spaced : Bool)
    (word : Word) (tokens : List Token) :
    State.run ⟨position, word.token offset spaced :: tokens⟩ space =
      .ok ⟨position + width space, word.token offset (spaced || !space.isEmpty) :: tokens⟩ := by
  induction space generalizing position spaced with
  | nil => simp
  | cons c rest ih =>
    have here : isSpace c := blank c List.mem_cons_self
    rw [State.run_cons_of_decides (.skip here)]
    simp only [State.apply, List.modifyHead_cons, markSpace_token]
    rw [ih (fun d member => blank d (List.mem_cons_of_mem c member))]
    simp [Nat.add_assoc]

/-- White space before the first word leaves no trace. -/
theorem run_lead {lead : List Char} (blank : ∀ c ∈ lead, isSpace c) (offset : Nat) :
    State.run ⟨offset, []⟩ lead = .ok ⟨offset + width lead, []⟩ := by
  induction lead generalizing offset with
  | nil => rfl
  | cons c rest ih =>
    have here : isSpace c := blank c List.mem_cons_self
    rw [State.run_cons_of_decides (.skip here)]
    simp only [State.apply, List.modifyHead_nil]
    rw [ih (fun d member => blank d (List.mem_cons_of_mem c member))]
    simp [Nat.add_assoc]

/-- One more character of a number extends its beginning. -/
theorem decides_extend {text more : List Char} {c : Char} (nonempty : text ≠ [])
    (number : IsNumber (text ++ c :: more)) : Decides (some ((Word.number text).kind false)) c .extend := by
  have body := number.body
  have onePoint := number.onePoint
  rw [unsigned_append nonempty] at body onePoint
  have numeric : c.isDigit ∨ c = '.' := body c (by simp)
  have point : c = '.' → (literalOf text).contains '.' = false := by
    rintro rfl
    rw [List.count_append, List.count_cons_self] at onePoint
    have none : (unsigned text).count '.' = 0 := by omega
    simpa [mem_literalOf_point] using List.count_eq_zero.mp none
  exact .extend (Word.numeral false text) rfl rfl numeric point

theorem apply_extend {text : List Char} (nonempty : text ≠ []) (c : Char) (position offset : Nat)
    (tokens : List Token) :
    State.apply ⟨position, (Word.number text).token offset false :: tokens⟩ c .extend =
      ⟨position + c.utf8Size, (Word.number (text ++ [c])).token offset false :: tokens⟩ := by
  simp only [State.apply, List.modifyHead_cons, extend_token nonempty]

/-- The rest of a number extends the token of its beginning. -/
theorem run_number {text more : List Char} (nonempty : text ≠ []) (number : IsNumber (text ++ more))
    (position offset : Nat) (tokens : List Token) :
    State.run ⟨position, (Word.number text).token offset false :: tokens⟩ more =
      .ok ⟨position + width more, (Word.number (text ++ more)).token offset false :: tokens⟩ := by
  induction more generalizing text position with
  | nil => simp
  | cons c rest ih =>
    have decides : Decides (State.last? ⟨position, (Word.number text).token offset false :: tokens⟩) c .extend :=
      decides_extend nonempty number
    rw [State.run_cons_of_decides decides, apply_extend nonempty]
    have whole : text ++ c :: rest = text ++ [c] ++ rest := by simp
    rw [whole] at number ⊢
    rw [ih (by simp) number]
    simp [Nat.add_assoc]

/-- The first character of a word starts the token of the word that is this character alone. -/
theorem apply_start (s : State) {word : Word} {c : Char} (text : word.text = [c]) :
    s.apply c (.start (word.kind false)) = ⟨s.offset + c.utf8Size, word.token s.offset false :: s.tokens⟩ := by
  simp only [State.apply, Word.token, text, String.singleton_eq_ofList]

/-- A word that may come next starts a token and ends it. -/
theorem run_word {s : State} {word : Word} (wellFormed : word.WellFormed)
    (admitted : (expectedAfter s.last?).Admits word) :
    s.run word.text = .ok ⟨s.offset + width word.text, word.token s.offset false :: s.tokens⟩ := by
  -- Every word starts with a word of one character; only a number goes on.
  cases word with
  | number text =>
    obtain ⟨c, rest, rfl⟩ := List.exists_cons_of_ne_nil wellFormed.nonempty
    have number : IsNumber ([c] ++ rest) := wellFormed
    have operand : (expectedAfter s.last?).Admits (.number [c]) :=
      Expected.admits_number.mpr (Expected.admits_number.mp admitted)
    have decides : Decides s.last? c (.start ((Word.number [c]).kind false)) :=
      .start (.number [c]) (number.front (by simp)) rfl operand
    rw [Word.text, State.run_cons_of_decides decides, apply_start s rfl, run_number (by simp) number]
    simp [Nat.add_assoc]
  | openParen =>
    have decides : Decides s.last? '(' (.start (Word.openParen.kind false)) := .start .openParen trivial rfl admitted
    rw [Word.text, State.run_cons_of_decides decides, apply_start s rfl]
    rfl
  | closeParen =>
    have decides : Decides s.last? ')' (.start (Word.closeParen.kind false)) := .start .closeParen trivial rfl admitted
    rw [Word.text, State.run_cons_of_decides decides, apply_start s rfl]
    rfl
  | operator op =>
    have decides : Decides s.last? op.symbol (.start ((Word.operator op).kind false)) :=
      .start (.operator op) trivial rfl admitted
    rw [Word.text, State.run_cons_of_decides decides, apply_start s rfl]
    rfl

theorem run_piece {s : State} (p : Piece) (admitted : (expectedAfter s.last?).Admits p.word) :
    s.run p.source = .ok ⟨s.offset + width p.source, p.token s.offset :: s.tokens⟩ := by
  rw [Piece.source, State.run_append_of_run (run_word p.wellFormed admitted), run_space p.blank]
  simp [Piece.token, Nat.add_assoc]

theorem run_pieces {pieces : List Piece} {s : State}
    (inOrder : InOrder (expectedAfter s.last?) (pieces.map Piece.word)) :
    s.run (sourceOf pieces) =
      .ok ⟨s.offset + width (sourceOf pieces), (tokensFrom s.offset pieces).reverse ++ s.tokens⟩ := by
  induction pieces generalizing s with
  | nil => simp [tokensFrom]
  | cons p rest ih =>
    obtain ⟨admitted, later⟩ := inOrder
    have after : expectedAfter (State.last? ⟨s.offset + width p.source, p.token s.offset :: s.tokens⟩) = p.word.after :=
      Word.after_kind p.wellFormed _
    rw [sourceOf_cons, State.run_append_of_run (run_piece p admitted), ih (by rw [after]; exact later)]
    simp [tokensFrom, Nat.add_assoc]

/-! ## Splits and states -/

namespace Split

/-- The state in which the text of the split has been read. -/
def state (s : Split) : State := ⟨width s.source, s.tokens.reverse⟩

/-- Reading the text of a split gives the tokens of the split. -/
theorem run_source (s : Split) : State.run ⟨0, []⟩ s.source = .ok s.state := by
  rw [source, State.run_append_of_run (run_lead s.blank 0),
    @run_pieces s.pieces ⟨0 + width s.lead, []⟩ s.inOrder]
  simp [state, source, tokens]

@[simp] theorem tokens_state_snoc (s : Split) (p : Piece) (admitted : s.expected.Admits p.word) :
    (s.snoc p admitted).state.tokens = p.token (width s.source) :: s.state.tokens := by
  simp [state]

/-- What may come after a split is what may come after its last token. -/
theorem expectedAfter_state (s : Split) : expectedAfter s.state.last? = s.expected := by
  rcases s.pieces_eq_nil_or_snoc with none | ⟨before, p, admitted, rfl⟩
  · simp [state, tokens, none, tokensFrom, State.last?, expectedAfter, expected, afterAll]
  · rw [expected_snoc, State.last?, tokens_state_snoc]
    exact Word.after_kind p.wellFormed _

end Split

end Polish.Lexer
