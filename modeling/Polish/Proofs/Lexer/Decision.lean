import Polish.Proofs.Lexer.Split

/-!
# What a character does, by cases

`Decides` lists the ways in which a character can be accepted after a token: as white space, as the beginning of a
word that may come next, or as one more character of a number that is still open. `action_eq_ok_iff` says that
`action` accepts a character exactly in these ways.
-/

namespace Polish

/-- What may come after a token. -/
def Token.Kind.after : Token.Kind → Lexer.Expected
  | .number n => if n.isBare then .close else .operator
  | .closeParen => .operator
  | .openParen | .operator _ => .operand

namespace Lexer

/-- What may come after the last token, if there is one. -/
def expectedAfter (last? : Option Token.Kind) : Expected := last?.elim .operand Token.Kind.after

/-- A number is bare exactly if its text is a sign. -/
theorem isBare_numeral {text : List Char} (number : IsNumber text) (spaced : Bool) :
    (Word.numeral spaced text).isBare ↔ text = ['+'] ∨ text = ['-'] := by
  have literal : (Word.numeral spaced text).isBare ↔ literalOf text = [] ∨ literalOf text = ['-'] := by
    simp only [Numeral.isBare, Word.numeral, Bool.or_eq_true, beq_iff_eq]
    rw [show ("" : String) = .ofList [] from rfl, show ("-" : String) = .ofList ['-'] from rfl, String.ofList_inj,
      String.ofList_inj]
  rw [literal]
  obtain ⟨c, rest, rfl⟩ := List.exists_cons_of_ne_nil number.nonempty
  by_cases plus : c = '+'
  · subst plus
    -- A minus behind the plus would be part of the body.
    have noSign : rest ≠ ['-'] := by
      rintro rfl
      have := number.body '-' (by simp [unsigned])
      simp at this
    simp [literalOf, noSign]
  · simp [literalOf, plus]

/-- A word and its token agree on what may come next. -/
theorem Word.after_kind {word : Word} (wellFormed : word.WellFormed) (spaced : Bool) :
    (word.kind spaced).after = word.after := by
  cases word with
  | number text => simp only [Word.kind, Token.Kind.after, Word.after, isBare_numeral wellFormed]
  | openParen => rfl
  | closeParen => rfl
  | operator op => rfl

/-! ## The cases -/

/-- The ways in which a character is accepted after a token. -/
inductive Decides (last? : Option Token.Kind) (c : Char) : Action → Prop where
  /-- White space goes anywhere. -/
  | skip (blank : isSpace c) : Decides last? c .skip
  /-- The character begins a word that may come next. -/
  | start (word : Word) (wellFormed : word.WellFormed) (text : word.text = [c])
      (admitted : (expectedAfter last?).Admits word) : Decides last? c (.start (word.kind false))
  /-- A digit, or a first point, goes to a number that no white space has closed. -/
  | extend (n : Numeral) (last : last? = some (.number n)) (unclosed : n.trailingSpace = false)
      (numeric : c.isDigit ∨ c = '.') (point : c = '.' → n.hasPoint = false) : Decides last? c .extend

/-! ## The parts of `action` -/

theorem any_isValue_iff {last? : Option Token.Kind} :
    last?.any Token.Kind.isValue ↔ expectedAfter last? ≠ .operand := by
  match last? with
  | none => simp [expectedAfter]
  | some (.number n) => cases h : n.isBare <;> simp [expectedAfter, Token.Kind.after, Token.Kind.isValue, h]
  | some .openParen => simp [expectedAfter, Token.Kind.after, Token.Kind.isValue]
  | some .closeParen => simp [expectedAfter, Token.Kind.after, Token.Kind.isValue]
  | some (.operator _) => simp [expectedAfter, Token.Kind.after, Token.Kind.isValue]

/-- A digit or a point goes to an open number, or begins one. -/
theorem digitAction_eq_ok_iff {last? : Option Token.Kind} {c : Char} {a : Action} :
    digitAction last? c = .ok a ↔
      (∃ n, last? = some (.number n) ∧ n.trailingSpace = false ∧ (c = '.' → n.hasPoint = false) ∧ .extend = a) ∨
        (expectedAfter last? = .operand ∧ .start (numeralOf (.singleton c)) = a) := by
  match last? with
  | none => simp [digitAction, expectedAfter]
  | some .openParen => simp [digitAction, expectedAfter, Token.Kind.after]
  | some (.operator _) => simp [digitAction, expectedAfter, Token.Kind.after]
  | some .closeParen => simp [digitAction, expectedAfter, Token.Kind.after]
  | some (.number n) =>
    have noOperand : expectedAfter (some (.number n)) ≠ .operand :=
      any_isValue_iff.mp (by simp [Token.Kind.isValue])
    simp only [digitAction, noOperand, false_and, or_false]
    cases spaced : n.trailingSpace
    · by_cases second : c = '.' ∧ n.hasPoint
      · simp [second, spaced]
      · have point : c = '.' → n.hasPoint = false := fun dot => by simpa [dot] using second
        simpa [second, spaced] using fun _ => point
    · simp [spaced]

/-- A sign stands between two operands, or begins a number. -/
theorem signAction_eq_ok_iff {last? : Option Token.Kind} {op : Operator} {a : Action} :
    signAction last? op = .ok a ↔
      (expectedAfter last? = .operator ∧ .start (.operator op) = a) ∨
        (expectedAfter last? = .operand ∧ .start (numeralOf (if op = .sub then "-" else "")) = a) := by
  match last? with
  | none => simp [signAction, expectedAfter]
  | some .openParen => simp [signAction, expectedAfter, Token.Kind.after]
  | some (.operator _) => simp [signAction, expectedAfter, Token.Kind.after]
  | some .closeParen => simp [signAction, expectedAfter, Token.Kind.after]
  | some (.number n) =>
    cases bare : n.isBare
    · simp [signAction, expectedAfter, Token.Kind.after, bare]
    · simp [signAction, expectedAfter, Token.Kind.after, bare]

/-- Any other operator stands between two operands. -/
theorem operatorAction_eq_ok_iff {last? : Option Token.Kind} {op : Operator} {a : Action} :
    operatorAction last? op = .ok a ↔ expectedAfter last? = .operator ∧ .start (.operator op) = a := by
  match last? with
  | none => simp [operatorAction, expectedAfter]
  | some .openParen => simp [operatorAction, expectedAfter, Token.Kind.after]
  | some (.operator _) => simp [operatorAction, expectedAfter, Token.Kind.after]
  | some .closeParen => simp [operatorAction, expectedAfter, Token.Kind.after]
  | some (.number n) =>
    cases bare : n.isBare
    · simp [operatorAction, expectedAfter, Token.Kind.after, bare]
    · simp [operatorAction, expectedAfter, Token.Kind.after, bare]

theorem kind_number_singleton {c : Char} (unsigned : c ≠ '+') :
    (Word.number [c]).kind false = numeralOf (.singleton c) := by
  simp only [Word.kind, Word.numeral, numeralOf, literalOf, unsigned, if_false, String.singleton_eq_ofList,
    String.toList_ofList]

/-! ## The parts together -/

theorem action_numeric {c : Char} (numeric : c.isDigit ∨ c = '.') (last? : Option Token.Kind) :
    action last? c = digitAction last? c := by
  have solid := not_isSpace_of_numeric numeric
  have opening : c ≠ '(' := by
    rintro rfl
    simp at numeric
  have closing : c ≠ ')' := by
    rintro rfl
    simp at numeric
  simp [action, solid, opening, closing, numeric]

/-- The symbols of operators are none of the other characters of expressions. -/
theorem symbol_apart (op : Operator) :
    isSpace op.symbol = false ∧ op.symbol ≠ '(' ∧ op.symbol ≠ ')' ∧ ¬ (op.symbol.isDigit ∨ op.symbol = '.') := by
  cases op <;> decide

theorem action_symbol (last? : Option Token.Kind) (op : Operator) :
    action last? op.symbol =
      if op = .add ∨ op = .sub then signAction last? op else operatorAction last? op := by
  obtain ⟨solid, opening, closing, plain⟩ := symbol_apart op
  simp [action, solid, opening, closing, plain]

theorem action_openParen (last? : Option Token.Kind) :
    action last? '(' =
      if expectedAfter last? = .operand then .ok (.start .openParen) else .error (.missingOperator '(') := by
  by_cases value : expectedAfter last? = .operand
  · have := @any_isValue_iff last?
    simp_all [action, isSpace]
  · have := @any_isValue_iff last?
    simp_all [action, isSpace]

theorem action_closeParen (last? : Option Token.Kind) :
    action last? ')' =
      if expectedAfter last? = .operand then .error (.missingOperand ')') else .ok (.start .closeParen) := by
  by_cases value : expectedAfter last? = .operand
  · have := @any_isValue_iff last?
    simp_all [action, isSpace]
  · have := @any_isValue_iff last?
    simp_all [action, isSpace]

/-- The characters that begin a word, with the white space and what is refused everywhere. -/
inductive CharCase : Char → Prop where
  | blank {c : Char} (blank : isSpace c) : CharCase c
  | openParen : CharCase '('
  | closeParen : CharCase ')'
  | numeric {c : Char} (numeric : c.isDigit ∨ c = '.') : CharCase c
  | symbol (op : Operator) : CharCase op.symbol
  | illegal {c : Char} (illegal : ∀ last?, action last? c = .error (.illegalCharacter c)) : CharCase c

theorem charCase (c : Char) : CharCase c := by
  by_cases blank : isSpace c
  · exact .blank blank
  by_cases opening : c = '('
  · exact opening ▸ .openParen
  by_cases closing : c = ')'
  · exact closing ▸ .closeParen
  by_cases numeric : c.isDigit ∨ c = '.'
  · exact .numeric numeric
  cases symbol : Operator.ofSymbol? c with
  | some op => exact Operator.symbol_of_ofSymbol? symbol ▸ .symbol op
  | none => exact .illegal fun last? => by simp [action, blank, opening, closing, numeric, symbol]

theorem decides_of_action {last? : Option Token.Kind} {c : Char} {a : Action} (h : action last? c = .ok a) :
    Decides last? c a := by
  cases charCase c with
  | blank blank =>
    simp only [action, blank, if_true, Except.ok.injEq] at h
    subst h
    exact .skip blank
  | openParen =>
    rw [action_openParen] at h
    split at h
    · next operand =>
      cases h
      exact .start .openParen trivial rfl (Expected.admits_openParen.mpr operand)
    · cases h
  | closeParen =>
    rw [action_closeParen] at h
    split at h
    · cases h
    · next value =>
      cases h
      exact .start .closeParen trivial rfl (Expected.admits_closeParen.mpr value)
  | numeric numeric =>
    rw [action_numeric numeric, digitAction_eq_ok_iff] at h
    rcases h with ⟨n, last, unclosed, point, rfl⟩ | ⟨operand, rfl⟩
    · exact .extend n last unclosed numeric point
    · have unsigned : c ≠ '+' := by
        rintro rfl
        simp at numeric
      rw [← kind_number_singleton unsigned]
      exact .start (.number [c]) (isNumber_singleton numeric) rfl (Expected.admits_number.mpr operand)
  | symbol op =>
    rw [action_symbol] at h
    split at h
    · next sign =>
      rcases signAction_eq_ok_iff.mp h with ⟨operator, rfl⟩ | ⟨operand, rfl⟩
      · exact .start (.operator op) trivial rfl (Expected.admits_operator.mpr operator)
      · have text : op.symbol = '+' ∨ op.symbol = '-' := by
          rcases sign with rfl | rfl
          · exact .inl rfl
          · exact .inr rfl
        have kind : numeralOf (if op = .sub then "-" else "") = (Word.number [op.symbol]).kind false := by
          rcases sign with rfl | rfl
          · rfl
          · rfl
        rw [kind]
        exact .start (.number [op.symbol]) (isNumber_sign text) rfl (Expected.admits_number.mpr operand)
    · obtain ⟨operator, rfl⟩ := operatorAction_eq_ok_iff.mp h
      exact .start (.operator op) trivial rfl (Expected.admits_operator.mpr operator)
  | illegal illegal =>
    rw [illegal] at h
    cases h

theorem action_of_decides {last? : Option Token.Kind} {c : Char} {a : Action} (h : Decides last? c a) :
    action last? c = .ok a := by
  cases h with
  | skip blank => simp [action, blank]
  | extend n last unclosed numeric point =>
    rw [action_numeric numeric, digitAction_eq_ok_iff]
    exact .inl ⟨n, last, unclosed, point, rfl⟩
  | start word wellFormed text admitted =>
    cases word with
    | openParen =>
      cases text
      simp [action_openParen, Expected.admits_openParen.mp admitted, Word.kind]
    | closeParen =>
      cases text
      simp [action_closeParen, Expected.admits_closeParen.mp admitted, Word.kind]
    | operator op =>
      cases text
      have operator := Expected.admits_operator.mp admitted
      rw [action_symbol]
      split
      · exact signAction_eq_ok_iff.mpr (.inl ⟨operator, rfl⟩)
      · exact operatorAction_eq_ok_iff.mpr ⟨operator, rfl⟩
    | number text' =>
      cases text
      have operand := Expected.admits_number.mp admitted
      by_cases plus : c = '+'
      · subst plus
        rw [show '+' = Operator.add.symbol from rfl, action_symbol]
        exact signAction_eq_ok_iff.mpr (.inr ⟨operand, rfl⟩)
      · by_cases minus : c = '-'
        · subst minus
          rw [show '-' = Operator.sub.symbol from rfl, action_symbol]
          exact signAction_eq_ok_iff.mpr (.inr ⟨operand, rfl⟩)
        · have numeric : c.isDigit ∨ c = '.' := wellFormed.body c (by simp [unsigned, plus, minus])
          rw [action_numeric numeric, digitAction_eq_ok_iff, kind_number_singleton plus]
          exact .inr ⟨operand, rfl⟩

/-- A character is accepted in the ways that `Decides` lists, and in no other. -/
theorem action_eq_ok_iff {last? : Option Token.Kind} {c : Char} {a : Action} :
    action last? c = .ok a ↔ Decides last? c a :=
  ⟨decides_of_action, action_of_decides⟩

end Lexer

end Polish
