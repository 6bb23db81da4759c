import Polish.Proofs.Lexer.Places

/-!
# Reading on

An expression is read from its beginning, so what more text does to it can be said in terms of the state in which the
text before was read. An error is final, and an error that is found later is about the text that came later. Of the
tokens read so far only the last one can change, and it changes only if it is a number that becomes longer or is closed
by white space (`Token.Grows`). `Continues` says this of the tokens of two states; each step keeps it, and so does a
run.
-/

namespace Polish

/-! ## Growing tokens -/

/-- More text may lengthen the literal of a number and set its flags. -/
structure Numeral.Grows (m n : Numeral) : Prop where
  literal : m.literal.toList <+: n.literal.toList
  hasPoint : m.hasPoint = true → n.hasPoint = true
  trailingSpace : m.trailingSpace = true → n.trailingSpace = true
  value? : n.value? = m.value?

theorem Numeral.Grows.trans {l m n : Numeral} (first : l.Grows m) (second : m.Grows n) : l.Grows n where
  literal := first.literal.trans second.literal
  hasPoint := second.hasPoint ∘ first.hasPoint
  trailingSpace := second.trailingSpace ∘ first.trailingSpace
  value? := second.value?.trans first.value?

/-- What more text may make of a token: it stays as it is, or it is a number whose text becomes longer. -/
inductive Token.Grows (token : Token) : Token → Prop where
  | same : Grows token token
  | number {m n : Numeral} {text : String} (kind : token.kind = .number m) (numeral : m.Grows n)
      (longer : token.text.toList <+: text.toList) : Grows token ⟨token.offset, .number n, text⟩

namespace Token

theorem Grows.trans {a b c : Token} (first : a.Grows b) (second : b.Grows c) : a.Grows c := by
  cases first with
  | same => exact second
  | number kind numeral longer =>
    cases second with
    | same => exact .number kind numeral longer
    | number kind' numeral' longer' =>
      cases kind'
      exact .number kind (numeral.trans numeral') (longer.trans longer')

theorem grows_markSpace (token : Token) : token.Grows token.markSpace := by
  rw [markSpace]
  split
  · next n kind => exact .number kind ⟨List.prefix_rfl, id, fun _ => rfl, rfl⟩ List.prefix_rfl
  · exact .same

theorem grows_extend (c : Char) (token : Token) : token.Grows (token.extend c) := by
  rw [extend]
  split
  · next n kind =>
    refine .number kind ⟨?_, ?_, id, rfl⟩ ?_
    · simp
    · intro point
      simp [point]
    · simp
  · exact .same

end Token

namespace Lexer

/-! ## Runs -/

/-- The tokens of two states, the last one first, of which the second has read on from the first: the last token may
have grown, and others may have come after it. -/
inductive Continues : List Token → List Token → Prop where
  | start (tokens : List Token) : Continues [] tokens
  | last {token grown : Token} (earlier later : List Token) (grows : token.Grows grown) :
      Continues (token :: earlier) (later ++ grown :: earlier)

theorem Continues.refl (tokens : List Token) : Continues tokens tokens := by
  cases tokens with
  | nil => exact .start []
  | cons token earlier => exact .last earlier [] .same

theorem Continues.trans {first second third : List Token} (before : Continues first second)
    (after : Continues second third) : Continues first third := by
  cases before with
  | start => exact .start third
  | last earlier later grows =>
    cases later with
    | nil =>
      cases after with
      | last _ later' grows' => exact .last earlier later' (grows.trans grows')
    | cons new later =>
      -- The token that grew before is no longer the last one.
      cases after with
      | @last _ grown' _ later' grows' =>
        have whole := Continues.last earlier (later' ++ grown' :: later) grows
        rwa [List.append_assoc] at whole

theorem Continues.exists_last {first second : List Token} (continues : Continues first second) (nonempty : first ≠ []) :
    ∃ earlier token grown later, first = token :: earlier ∧ second = later ++ grown :: earlier ∧
      token.Grows grown := by
  cases continues with
  | start => exact absurd rfl nonempty
  | last earlier later grows => exact ⟨earlier, _, _, later, rfl, rfl, grows⟩

theorem continues_modifyHead {change : Token → Token} (grows : ∀ token : Token, token.Grows (change token))
    (tokens : List Token) : Continues tokens (tokens.modifyHead change) := by
  cases tokens with
  | nil => exact .start []
  | cons token earlier => exact .last earlier [] (grows token)

theorem continues_cons (new : Token) (tokens : List Token) : Continues tokens (new :: tokens) := by
  cases tokens with
  | nil => exact .start [new]
  | cons token earlier => exact .last earlier [new] .same

namespace State

variable {s t : State} {e : SyntaxError} {text : List Char}

/-- One character changes no token but the last one. -/
theorem continues_of_step {c : Char} (step : s.step c = .ok t) : Continues s.tokens t.tokens := by
  obtain ⟨a, -, rfl⟩ := exists_action_of_step step
  cases a with
  | skip => exact continues_modifyHead Token.grows_markSpace s.tokens
  | start kind => exact continues_cons _ s.tokens
  | extend => exact continues_modifyHead (Token.grows_extend c) s.tokens

theorem continues_of_run (run : s.run text = .ok t) : Continues s.tokens t.tokens := by
  refine Fold.keeps (P := fun t => Continues s.tokens t.tokens) ?_ (.refl s.tokens) run
  intro middle c next before step
  exact before.trans (continues_of_step step)

/-- An error is about text that was still to be read. -/
theorem offset_le_of_run (failed : s.run text = .error e) : s.offset ≤ e.offset := by
  obtain ⟨front, c, back, t, cause, -, read, -, rfl⟩ := exists_refused_of_run failed
  have offset := offset_of_run read
  change s.offset ≤ t.offset
  omega

theorem run_append_of_error (failed : s.run text = .error e) (more : List Char) :
    s.run (text ++ more) = .error e :=
  Fold.append_of_error failed more

end State

/-! ## Expressions -/

variable {p s : String} {e : SyntaxError} {tokens : List Token} {read : State}

/-- An expression that is not empty is refused on the way. -/
theorem run_error_of_tokenize (failed : tokenize p = .error e) (other : e.cause ≠ .emptyExpression) :
    State.run ⟨0, []⟩ p.toList = .error e := by
  rcases run_error_or_empty_of_tokenize failed with error | ⟨read, -, -, rfl⟩
  · exact error
  · exact absurd rfl other

theorem offset_of_read (run : State.run ⟨0, []⟩ p.toList = .ok read) : read.offset = p.utf8ByteSize := by
  rw [State.offset_of_run run, ← Text.utf8ByteSize_ofList, String.ofList_toList, Nat.zero_add]

/-- What has been read is blank, or it is accepted. -/
theorem blank_or_tokenize_of_run (run : State.run ⟨0, []⟩ p.toList = .ok read) :
    (∀ c ∈ p.toList, isSpace c) ∨ ∃ tokens, tokenize p = .ok tokens := by
  by_cases empty : read.tokens = []
  · exact .inl (blank_of_run run empty)
  · exact .inr ⟨_, (tokenize_of_run run).trans (State.finish_eq_ok_iff.mpr ⟨empty, rfl⟩)⟩

/-- Text that is blank or accepted can be read. -/
theorem exists_run_of_blank_or_tokenize (readable : (∃ tokens, tokenize p = .ok tokens) ∨ ∀ c ∈ p.toList, isSpace c) :
    ∃ read, State.run ⟨0, []⟩ p.toList = .ok read := by
  rcases readable with ⟨tokens, accepted⟩ | blank
  · obtain ⟨read, run, -⟩ := exists_run_of_tokenize accepted
    exact ⟨read, run⟩
  · exact ⟨_, run_lead blank 0⟩

theorem tokenize_append_of_error (failed : tokenize p = .error e) (other : e.cause ≠ .emptyExpression) (s : String) :
    tokenize (p ++ s) = .error e := by
  apply tokenize_of_run_error
  rw [String.toList_append]
  exact State.run_append_of_error (run_error_of_tokenize failed other) s.toList

theorem utf8ByteSize_le_of_append (readable : (∃ tokens, tokenize p = .ok tokens) ∨ ∀ c ∈ p.toList, isSpace c)
    (failed : tokenize (p ++ s) = .error e) (other : e.cause ≠ .emptyExpression) : p.utf8ByteSize ≤ e.offset := by
  obtain ⟨read, run⟩ := exists_run_of_blank_or_tokenize readable
  have error := run_error_of_tokenize failed other
  rw [String.toList_append, State.run_append_of_run run] at error
  rw [← offset_of_read run]
  exact State.offset_le_of_run error

theorem exists_grown_of_append {more : List Token} (accepted : tokenize p = .ok tokens)
    (continued : tokenize (p ++ s) = .ok more) :
    ∃ front last grown back, tokens = front ++ [last] ∧ more = front ++ grown :: back ∧ last.Grows grown := by
  obtain ⟨read, run, nonempty, rfl⟩ := exists_run_of_tokenize accepted
  obtain ⟨final, run', -, rfl⟩ := exists_run_of_tokenize continued
  rw [String.toList_append, State.run_append_of_run run] at run'
  obtain ⟨earlier, last, grown, later, before, after, grows⟩ := (State.continues_of_run run').exists_last nonempty
  exact ⟨earlier.reverse, last, grown, later.reverse, by simp [before], by simp [after], grows⟩

theorem exists_readable_of_error (failed : tokenize p = .error e) :
    ∃ front back : String, p = front ++ back ∧ front.utf8ByteSize = e.offset ∧
      ((∀ c ∈ front.toList, isSpace c) ∨ ∃ tokens, tokenize front = .ok tokens) := by
  rcases tokenize_eq_error_cases failed with ⟨rfl, -⟩ | ⟨front, c, back, t, cause, text, run, -, rfl⟩
  · exact ⟨"", p, by simp, rfl, .inl (by simp)⟩
  · refine ⟨.ofList front, .ofList (c :: back), ?_, Text.utf8ByteSize_ofList front, ?_⟩
    · rw [← String.ofList_append, ← text, String.ofList_toList]
    · have run' : State.run ⟨0, []⟩ (String.ofList front).toList = .ok t := by rwa [String.toList_ofList]
      exact blank_or_tokenize_of_run run'

/-- Reading is stable when more text follows. An error is final, unless it is that of an empty expression. Behind text
that could be read an error is about what follows. Only the last token is revised, and then it is a number that grows.
And the text before an error could be read. -/
theorem tokenize_append (p s : String) :
    (∀ e, tokenize p = .error e → e.cause ≠ .emptyExpression → tokenize (p ++ s) = .error e) ∧
    ((∃ tokens, tokenize p = .ok tokens) ∨ (∀ c ∈ p.toList, isSpace c) →
      ∀ e, tokenize (p ++ s) = .error e → e.cause ≠ .emptyExpression → p.utf8ByteSize ≤ e.offset) ∧
    (∀ tokens more, tokenize p = .ok tokens → tokenize (p ++ s) = .ok more →
      ∃ front last grown back, tokens = front ++ [last] ∧ more = front ++ grown :: back ∧ last.Grows grown) ∧
    ∀ e, tokenize p = .error e → ∃ front back : String, p = front ++ back ∧ front.utf8ByteSize = e.offset ∧
      ((∀ c ∈ front.toList, isSpace c) ∨ ∃ tokens, tokenize front = .ok tokens) := by
  refine ⟨?_, ?_, ?_, ?_⟩
  · intro e failed other
    exact tokenize_append_of_error failed other s
  · intro readable e failed other
    exact utf8ByteSize_le_of_append readable failed other
  · intro tokens more accepted continued
    exact exists_grown_of_append accepted continued
  · intro e failed
    exact exists_readable_of_error failed

theorem tokenize_append_number :
    (tokenize "1 2" = .error ⟨.missingOperator '2', 2⟩ ∧ tokenize ("1 2" ++ "+3") = .error ⟨.missingOperator '2', 2⟩ ∧
      ∃ front back : String, "1 2" = front ++ back ∧ front.utf8ByteSize = 2 ∧
        ((∀ c ∈ front.toList, isSpace c) ∨ ∃ tokens, tokenize front = .ok tokens)) ∧
    (tokenize ("-1" ++ "+*") = .error ⟨.repeatedOperator .mul, 3⟩ ∧ "-1".utf8ByteSize ≤ 3) ∧
    ∃ tokens more front last grown back, tokenize "-1" = .ok tokens ∧ tokenize ("-1" ++ ".5+2") = .ok more ∧
      tokens = front ++ [last] ∧ more = front ++ grown :: back ∧ last.Grows grown := by
  have refused : tokenize "1 2" = .error ⟨.missingOperator '2', 2⟩ := rfl
  have refused' : tokenize ("-1" ++ "+*") = .error ⟨.repeatedOperator .mul, 3⟩ := rfl
  have accepts : (tokenize "-1").isOk := rfl
  have accepts' : (tokenize ("-1" ++ ".5+2")).isOk := rfl
  cases accepted : tokenize "-1" with
  | error e =>
    rw [accepted] at accepts
    cases accepts
  | ok tokens =>
    cases continued : tokenize ("-1" ++ ".5+2") with
    | error e =>
      rw [continued] at accepts'
      cases accepts'
    | ok more =>
      obtain ⟨final, -, -, readable⟩ := tokenize_append "1 2" "+3"
      obtain ⟨-, later, -, -⟩ := tokenize_append "-1" "+*"
      obtain ⟨-, -, revised, -⟩ := tokenize_append "-1" ".5+2"
      obtain ⟨front, last, grown, back, before, after, grows⟩ := revised tokens more accepted continued
      exact ⟨⟨refused, final _ refused (by simp), readable _ refused⟩,
        ⟨refused', later (.inl ⟨tokens, accepted⟩) _ refused' (by simp)⟩,
        tokens, more, front, last, grown, back, rfl, rfl, before, after, grows⟩

end Lexer

end Polish
