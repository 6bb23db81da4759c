import Polish.Proofs.Lexer.Reading

/-!
# The language that is read

`Split.exists_next` says what one accepted character does to a split: it lengthens the white space at the end, adds a
word, or lengthens the last number. By induction every text that is read has a split, and with `Split.run_source`
this is the whole language: `tokenize` gives a list of tokens exactly if the text has a split with these tokens, and a
text has at most one split.
-/

namespace Polish.Lexer

namespace Split

/-! ## One more character -/

/-- A longer split whose tokens are those after an action is the split of the state after that action. -/
theorem state_eq_apply {s next : Split} {c : Char} {a : Action} (source : next.source = s.source ++ [c])
    (tokens : next.state.tokens = (s.state.apply c a).tokens) : next.state = s.state.apply c a := by
  have offset : next.state.offset = (s.state.apply c a).offset := by
    simp [state, State.apply, source]
  cases one : next.state
  cases two : s.state.apply c a
  simp_all

/-- White space lengthens the white space at the end. -/
theorem exists_skip (s : Split) {c : Char} (blank : isSpace c) :
    ∃ next : Split, next.source = s.source ++ [c] ∧ next.state = s.state.apply c .skip := by
  rcases s.pieces_eq_nil_or_snoc with none | ⟨before, p, admitted, rfl⟩
  · have source : (s.addBlank blank).source = s.source ++ [c] := by simp [addBlank, Split.source, none]
    refine ⟨s.addBlank blank, source, state_eq_apply source ?_⟩
    simp [addBlank, state, tokens, tokensFrom, none, State.apply]
  · have admitted' : before.expected.Admits (p.addBlank blank).word := admitted
    have source : (before.snoc (p.addBlank blank) admitted').source = (before.snoc p admitted).source ++ [c] := by
      simp [Piece.source_addBlank]
    refine ⟨before.snoc (p.addBlank blank) admitted', source, state_eq_apply source ?_⟩
    simp [State.apply, p.token_addBlank blank]

/-- The first character of a word adds the word. -/
theorem exists_start (s : Split) {c : Char} {word : Word} (wellFormed : word.WellFormed) (text : word.text = [c])
    (admitted : (expectedAfter s.state.last?).Admits word) :
    ∃ next : Split, next.source = s.source ++ [c] ∧ next.state = s.state.apply c (.start (word.kind false)) := by
  rw [expectedAfter_state] at admitted
  have admitted' : s.expected.Admits (Piece.ofWord word wellFormed).word := admitted
  have source : (s.snoc (.ofWord word wellFormed) admitted').source = s.source ++ [c] := by
    simp [Piece.source_ofWord, text]
  refine ⟨s.snoc (.ofWord word wellFormed) admitted', source, state_eq_apply source ?_⟩
  rw [tokens_state_snoc, State.apply, String.singleton_eq_ofList, ← text]
  rfl

/-- A digit or a point lengthens the last number. -/
theorem exists_extend (s : Split) {c : Char} {n : Numeral} (last? : s.state.last? = some (.number n))
    (unclosed : n.trailingSpace = false) (numeric : c.isDigit ∨ c = '.') (point : c = '.' → n.hasPoint = false) :
    ∃ next : Split, next.source = s.source ++ [c] ∧ next.state = s.state.apply c .extend := by
  rcases s.pieces_eq_nil_or_snoc with none | ⟨before, p, admitted, rfl⟩
  · simp [State.last?, state, tokens, none, tokensFrom] at last?
  · rw [State.last?, tokens_state_snoc] at last?
    obtain ⟨word, space, wellFormed, blank⟩ := p
    cases word with
    | openParen => cases last?
    | closeParen => cases last?
    | operator op => cases last?
    | number text =>
      cases last?
      have closed : space = [] := by simpa [Word.numeral] using unclosed
      subst closed
      have number : IsNumber text := wellFormed
      have more : IsNumber (text ++ [c]) := number.push numeric (by simpa [Word.numeral] using point)
      have operand := Expected.admits_number.mp admitted
      have admitted' : before.expected.Admits (Piece.number (text ++ [c]) more).word :=
        Expected.admits_number.mpr operand
      have source : (before.snoc (.number (text ++ [c]) more) admitted').source =
          (before.snoc ⟨.number text, [], wellFormed, blank⟩ admitted).source ++ [c] := by
        rw [source_snoc, source_snoc, Piece.source_number]
        simp [Piece.source, Word.text]
      refine ⟨before.snoc (.number (text ++ [c]) more) admitted', source, state_eq_apply source ?_⟩
      have extended (offset : Nat) : (Piece.number (text ++ [c]) more).token offset =
          ((Word.number text).token offset false).extend c := by
        rw [extend_token number.nonempty]
        rfl
      rw [tokens_state_snoc, extended, State.apply, tokens_state_snoc]
      rfl

/-- An accepted character turns a split into the split of the longer text. -/
theorem exists_next (s : Split) {c : Char} {t : State} (h : s.state.step c = .ok t) :
    ∃ next : Split, next.source = s.source ++ [c] ∧ next.state = t := by
  obtain ⟨a, act, rfl⟩ := State.exists_action_of_step h
  cases action_eq_ok_iff.mp act with
  | skip blank => exact s.exists_skip blank
  | start word wellFormed text admitted => exact s.exists_start wellFormed text admitted
  | extend n last? unclosed numeric point => exact s.exists_extend last? unclosed numeric point

/-- The split of nothing. -/
def empty : Split := ⟨[], [], blank_nil, trivial⟩

/-- What has been read after a split belongs to a longer split. -/
theorem exists_of_run {text : List Char} {s : Split} {t : State} (h : s.state.run text = .ok t) :
    ∃ next : Split, next.source = s.source ++ text ∧ next.state = t := by
  induction text generalizing s with
  | nil =>
    cases h
    exact ⟨s, by simp, rfl⟩
  | cons c rest ih =>
    obtain ⟨middle, read, later⟩ := State.exists_step_of_run h
    obtain ⟨longer, source, rfl⟩ := s.exists_next read
    obtain ⟨next, whole, state⟩ := ih later
    exact ⟨next, by simp [whole, source], state⟩

end Split

/-! ## Runs over an expression -/

theorem State.finish_eq_ok_iff {s : State} {tokens : List Token} :
    s.finish = .ok tokens ↔ s.tokens ≠ [] ∧ s.tokens.reverse = tokens := by
  rw [finish]
  split
  · next none => simp [none]
  · next some => simp [some]

section

variable {expression : String} {tokens : List Token} {e : SyntaxError} {s : State}

theorem tokenize_of_run (run : State.run ⟨0, []⟩ expression.toList = .ok s) : tokenize expression = s.finish := by
  rw [tokenize, run]
  rfl

theorem tokenize_of_run_error (failed : State.run ⟨0, []⟩ expression.toList = .error e) :
    tokenize expression = .error e := by
  rw [tokenize, failed]
  rfl

/-- An expression that is accepted has been read to its end, and there were tokens in it. -/
theorem exists_run_of_tokenize (accepted : tokenize expression = .ok tokens) :
    ∃ s : State, State.run ⟨0, []⟩ expression.toList = .ok s ∧ s.tokens ≠ [] ∧ s.tokens.reverse = tokens := by
  cases run : State.run ⟨0, []⟩ expression.toList with
  | error e =>
    rw [tokenize_of_run_error run] at accepted
    cases accepted
  | ok s =>
    rw [tokenize_of_run run] at accepted
    exact ⟨s, rfl, State.finish_eq_ok_iff.mp accepted⟩

/-- An expression is refused on the way, or at its end because there were no tokens in it. -/
theorem run_error_or_empty_of_tokenize (failed : tokenize expression = .error e) :
    State.run ⟨0, []⟩ expression.toList = .error e ∨
      ∃ s : State, State.run ⟨0, []⟩ expression.toList = .ok s ∧ s.tokens = [] ∧ e = ⟨.emptyExpression, 0⟩ := by
  cases run : State.run ⟨0, []⟩ expression.toList with
  | error e' =>
    rw [tokenize_of_run_error run] at failed
    cases failed
    exact .inl rfl
  | ok s =>
    rw [tokenize_of_run run, State.finish] at failed
    split at failed
    · next none =>
      cases failed
      exact .inr ⟨s, rfl, none, rfl⟩
    · cases failed

end

/-- What is accepted has a split with its tokens. -/
theorem exists_split {expression : String} {tokens : List Token} (h : tokenize expression = .ok tokens) :
    ∃ s : Split, s.pieces ≠ [] ∧ s.source = expression.toList ∧ s.tokens = tokens := by
  obtain ⟨last, read, some, rfl⟩ := exists_run_of_tokenize h
  obtain ⟨s, source, rfl⟩ := Split.empty.exists_of_run read
  refine ⟨s, ?_, source, by simp [Split.state]⟩
  intro none
  exact some (by simp [Split.state, Split.tokens, none, tokensFrom])

/-- What has a split is accepted. -/
theorem tokenize_of_split {expression : String} {s : Split} (some : s.pieces ≠ [])
    (source : s.source = expression.toList) : tokenize expression = .ok s.tokens := by
  have read := s.run_source
  rw [source] at read
  rw [tokenize_of_run read, State.finish_eq_ok_iff]
  exact ⟨by simp [Split.state, Split.tokens, some], by simp [Split.state]⟩

namespace Split

/-! ## The text of a split has one split -/

/-- The token of a word tells the word. -/
theorem word_eq_of_token {p q : Piece} {offset offset' : Nat} (same : p.token offset = q.token offset') :
    p.word = q.word := by
  simp only [Piece.token, Word.token, Token.mk.injEq, String.ofList_inj] at same
  obtain ⟨-, kind, text⟩ := same
  cases one : p.word <;> cases two : q.word <;> simp_all [Word.kind, Word.text]

theorem pieces_eq {ps qs : List Piece} {offset offset' : Nat} (tokens : tokensFrom offset ps = tokensFrom offset' qs)
    (source : sourceOf ps = sourceOf qs) : ps = qs := by
  induction ps generalizing qs offset offset' with
  | nil =>
    cases qs with
    | nil => rfl
    | cons q qs => cases tokens
  | cons p ps ih =>
    cases qs with
    | nil => cases tokens
    | cons q qs =>
      obtain ⟨first, others⟩ := List.cons.inj tokens
      have word := word_eq_of_token first
      simp only [sourceOf_cons, Piece.source, word, List.append_assoc, List.append_cancel_left_eq] at source
      obtain ⟨space, rest⟩ := blank_append_inj p.blank q.blank (head_sourceOf ps) (head_sourceOf qs) source
      obtain rfl := ih others rest
      cases p
      cases q
      simp_all

/-- Two splits of one text are equal. -/
theorem source_injective : Function.Injective source := by
  intro s t same
  have read := s.run_source
  rw [same, t.run_source, Except.ok.injEq] at read
  have tokens : s.tokens = t.tokens := by
    have reversed := congrArg State.tokens read
    simpa [state, eq_comm] using reversed
  obtain ⟨lead, sources⟩ := blank_append_inj s.blank t.blank (head_sourceOf s.pieces) (head_sourceOf t.pieces) same
  have pieces := pieces_eq tokens sources
  cases s
  cases t
  simp_all

end Split

/-- The language that is read, and what is made of it: a text is accepted exactly if it has a split, and then its
tokens are those of the split, of which there is only one. -/
theorem tokenize_eq_ok_iff_split (expression : String) (tokens : List Token) :
    (tokenize expression = .ok tokens ↔
      ∃ s : Split, s.pieces ≠ [] ∧ s.source = expression.toList ∧ s.tokens = tokens) ∧
    Function.Injective Split.source := by
  refine ⟨⟨?_, ?_⟩, Split.source_injective⟩
  · intro h
    exact exists_split h
  · rintro ⟨s, some, source, rfl⟩
    exact tokenize_of_split some source

end Polish.Lexer
