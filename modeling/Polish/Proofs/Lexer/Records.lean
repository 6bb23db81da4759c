import Mathlib.Data.List.Pairwise
import Polish.Lexer.Trace
import Polish.Proofs.Lexer.WhiteSpace

/-!
# What the log says about reading tokens

Every character that is read and is not white space leaves one record (`Logs`): that it begins a token, or what it makes
of the literal of the number that it belongs to. The records are compared with the tokens that come out in the end, not
with the states in between: a word leaves the records of its token (`tokenLog_word`), the records of pieces in a row
stand in a row, and as the tokens do not overlap, they determine what is said about each character
(`rightUnique_tells`). A character that is refused leaves nothing.
-/

namespace Polish

open Text (width)

/-! ## Characters with their places -/

/-- The characters of a text, each with its byte offset. -/
def Text.places : (offset : Nat) → List Char → List (Nat × Char)
  | _, [] => []
  | offset, c :: rest => (offset, c) :: places (offset + c.utf8Size) rest

theorem Text.places_append (offset : Nat) (front back : List Char) :
    places offset (front ++ back) = places offset front ++ places (offset + width front) back := by
  induction front generalizing offset with
  | nil => rfl
  | cons c rest ih => simp [places, ih, Nat.add_assoc]

theorem Text.snd_mem_of_mem_places {offset : Nat} {text : List Char} {place : Nat × Char}
    (member : place ∈ places offset text) : place.2 ∈ text := by
  induction text generalizing offset with
  | nil => cases member
  | cons c rest ih =>
    rcases List.mem_cons.mp member with rfl | later
    · exact List.mem_cons_self
    · exact List.mem_cons_of_mem c (ih later)

namespace Lexer

open Log (Record)

/-- The characters of a text that are not white space, each with its byte offset. -/
def solidPlaces (offset : Nat) (text : List Char) : List (Nat × Char) :=
  (Text.places offset text).filter fun place => !isSpace place.2

theorem solidPlaces_append (offset : Nat) (front back : List Char) :
    solidPlaces offset (front ++ back) = solidPlaces offset front ++ solidPlaces (offset + width front) back := by
  rw [solidPlaces, Text.places_append, List.filter_append]
  rfl

theorem solidPlaces_of_blank {text : List Char} (blank : ∀ c ∈ text, isSpace c) (offset : Nat) :
    solidPlaces offset text = [] := by
  rw [solidPlaces, List.filter_eq_nil_iff]
  intro place member
  simp [blank place.2 (Text.snd_mem_of_mem_places member)]

/-- The characters of a word are not white space. -/
theorem isSpace_of_mem_word {word : Word} (wellFormed : word.WellFormed) : ∀ c ∈ word.text, isSpace c = false := by
  obtain ⟨c, rest, text, solid⟩ := Word.exists_text wellFormed
  rw [text]
  refine List.forall_mem_cons.mpr ⟨solid, ?_⟩
  cases word with
  | number chars =>
    obtain rfl : chars = [c] ++ rest := text
    intro d member
    refine not_isSpace_of_numeric (wellFormed.body d ?_)
    rw [unsigned_append (by simp)]
    exact List.mem_append_right _ member
  | openParen => simp_all [Word.text]
  | closeParen => simp_all [Word.text]
  | operator op => simp_all [Word.text]

theorem solidPlaces_word {word : Word} (wellFormed : word.WellFormed) (offset : Nat) :
    solidPlaces offset word.text = Text.places offset word.text := by
  rw [solidPlaces, List.filter_eq_self]
  intro place member
  simp [isSpace_of_mem_word wellFormed place.2 (Text.snd_mem_of_mem_places member)]

/-! ## What a record says -/

/-- The record about the first character of a token. It shows the trace form that the token has by then, without what
the characters behind it add to the label. -/
inductive Begins (token : Token) : Nat × Char → Record → Prop where
  | lexed {c : Char} {more : List Char} {label : String} (text : token.text.toList = c :: more)
      (upTo : token.kind.label = label ++ .ofList more) :
      Begins token (token.offset, c)
        ⟨.trace, "lexed " ++ ("[" ++ label ++ "]") ++ " at offset " ++ toString token.offset⟩

/-- The record about a further character of a number. It quotes the literal up to the character. -/
inductive Extends (token : Token) : Nat × Char → Record → Prop where
  | extended {n : Numeral} {read more : List Char} {c : Char} {literal : String} (kind : token.kind = .number n)
      (text : token.text.toList = read ++ c :: more) (further : read ≠ [])
      (upTo : n.literal = literal ++ .ofList more) :
      Extends token (token.offset + width read, c) ⟨.trace, "extended number to " ++ Text.quoted literal⟩

/-- What the record about a character says, which belongs to one of the tokens. -/
def Tells (tokens : List Token) (place : Nat × Char) (record : Record) : Prop :=
  ∃ token ∈ tokens, Begins token place record ∨ Extends token place record

/-- Whether the record says that a token begins. -/
def saysLexed (record : Record) : Bool := "lexed ".toList.isPrefixOf record.message.toList

/-- The records about a text from which some tokens are read. -/
structure Logs (tokens : List Token) (text : List Char) (records : List Record) : Prop where
  /-- There is one record for each character that is not white space, in the order of the text. -/
  each : List.Forall₂ (Tells tokens) (solidPlaces 0 text) records
  /-- The tokens leave no choice what is said about a character. -/
  determined : Relator.RightUnique (Tells tokens)
  /-- As many records say that a token begins as there are tokens. -/
  begun : records.countP saysLexed = tokens.length

section

variable {token : Token} {tokens : List Token} {place : Nat × Char} {record other : Record}

theorem Begins.saysLexed (begins : Begins token place record) : saysLexed record = true := by
  cases begins
  simp [Lexer.saysLexed]

theorem Extends.saysLexed (further : Extends token place record) : saysLexed record = false := by
  cases further
  simp only [Lexer.saysLexed, String.toList_append]
  rfl

theorem Tells.level_eq (tells : Tells tokens place record) : record.level = .trace := by
  obtain ⟨token, -, begins | further⟩ := tells
  · cases begins
    rfl
  · cases further
    rfl

theorem Tells.of_subset {more : List Token} (tells : Tells tokens place record) (subset : tokens ⊆ more) :
    Tells more place record := by
  obtain ⟨token, member, told⟩ := tells
  exact ⟨token, subset member, told⟩

end

/-! ## One record for each character -/

namespace State

variable {s t : State} {front : List Char}

theorem records_cons_of_decides {c : Char} {a : Action} (decides : Decides s.last? c a) (rest : List Char) :
    s.records (c :: rest) = (a.record? (s.apply c a)).toList ++ (s.apply c a).records rest := by
  rw [records, action_eq_ok_iff.mpr decides]

/-- A character that is refused leaves no record, nor does anything behind it. -/
theorem records_of_error {c : Char} {cause : SyntaxError.Cause} (refused : action s.last? c = .error cause)
    (rest : List Char) : s.records (c :: rest) = [] := by
  rw [records, refused]

theorem records_append_of_run (run : s.run front = .ok t) (back : List Char) :
    s.records (front ++ back) = s.records front ++ t.records back := by
  induction front generalizing s with
  | nil =>
    cases run
    rfl
  | cons c rest ih =>
    obtain ⟨next, step, later⟩ := exists_step_of_run run
    obtain ⟨a, act, rfl⟩ := exists_action_of_step step
    have decides := action_eq_ok_iff.mp act
    rw [List.cons_append, records_cons_of_decides decides, records_cons_of_decides decides, ih later, List.append_assoc]

theorem records_of_blank {space : List Char} (blank : ∀ c ∈ space, isSpace c) (s : State) : s.records space = [] := by
  induction space generalizing s with
  | nil => rfl
  | cons c rest ih =>
    have here : isSpace c := blank c List.mem_cons_self
    rw [records_cons_of_decides (.skip here), ih fun d member => blank d (List.mem_cons_of_mem c member)]
    rfl

/-- The first character of a word leaves a record about the word that is this character alone. -/
theorem records_start {word : Word} {c : Char} (wellFormed : word.WellFormed) (text : word.text = [c])
    (admitted : (expectedAfter s.last?).Admits word) (rest : List Char) :
    s.records (c :: rest) =
      ⟨.trace, "lexed " ++ ("[" ++ (word.kind false).label ++ "]") ++ " at offset " ++ toString s.offset⟩ ::
        State.records ⟨s.offset + c.utf8Size, word.token s.offset false :: s.tokens⟩ rest := by
  rw [records_cons_of_decides (.start word wellFormed text admitted), apply_start s text]
  rfl

end State

section

variable {s : State} {word : Word}

theorem label_kind (word : Word) (spaced : Bool) : (word.kind spaced).label = (word.kind false).label := by
  cases word <;> rfl

/-- What is behind the beginning of a number adds to the end of the literal. -/
theorem literal_append {read : List Char} (nonempty : read ≠ []) (more : List Char) (spaced : Bool) :
    (Word.numeral spaced (read ++ more)).literal = .ofList (literalOf read) ++ .ofList more := by
  rw [Word.numeral, literalOf_append nonempty, String.ofList_append]

/-- The rest of a number leaves one record for each character. -/
theorem forall₂_extends {read more : List Char} (nonempty : read ≠ []) (number : IsNumber (read ++ more))
    (offset : Nat) (spaced : Bool) (tokens : List Token) :
    List.Forall₂ (Extends ((Word.number (read ++ more)).token offset spaced)) (Text.places (offset + width read) more)
      (State.records ⟨offset + width read, (Word.number read).token offset false :: tokens⟩ more) := by
  induction more generalizing read with
  | nil => exact .nil
  | cons c rest ih =>
    have decides : Decides (State.last? ⟨offset + width read, (Word.number read).token offset false :: tokens⟩) c
      .extend := decides_extend nonempty number
    have whole : read ++ c :: rest = read ++ [c] ++ rest := by simp
    have here : Extends ((Word.number (read ++ c :: rest)).token offset spaced) (offset + width read, c)
        ⟨.trace, "extended number to " ++ Text.quoted (.ofList (literalOf (read ++ [c])))⟩ := by
      refine .extended rfl (String.toList_ofList) nonempty ?_
      rw [whole, literal_append (by simp)]
    rw [State.records_cons_of_decides decides, apply_extend nonempty]
    rw [whole] at number here ⊢
    have later := ih (by simp) number
    rw [Text.width_append, Text.width_cons, Text.width_nil, Nat.add_zero, ← Nat.add_assoc] at later
    exact .cons here later

/-- The records about a token: one that it begins, and one for each further character. -/
inductive TokenLog (token : Token) : List (Nat × Char) → List Record → Prop where
  | intro {first : Nat × Char} {rest : List (Nat × Char)} {record : Record} {records : List Record}
      (begins : Begins token first record) (further : List.Forall₂ (Extends token) rest records) :
      TokenLog token (first :: rest) (record :: records)

theorem TokenLog.forall₂ {token : Token} {places : List (Nat × Char)} {records : List Record}
    (log : TokenLog token places records) : List.Forall₂ (Tells [token]) places records := by
  cases log with
  | intro begins further =>
    refine .cons ⟨token, List.mem_cons_self, .inl begins⟩ (further.imp ?_)
    intro place record told
    exact ⟨token, List.mem_cons_self, .inr told⟩

theorem TokenLog.countP {token : Token} {places : List (Nat × Char)} {records : List Record}
    (log : TokenLog token places records) : records.countP saysLexed = 1 := by
  cases log with
  | @intro first rest record records begins further =>
    have none : records.countP saysLexed = 0 := by
      induction further with
      | nil => rfl
      | cons told later ih => rw [List.countP_cons_of_neg (by simp [told.saysLexed]), ih]
    rw [List.countP_cons_of_pos begins.saysLexed, none]

theorem tokenLog_of_single {c : Char} (wellFormed : word.WellFormed) (text : word.text = [c])
    (admitted : (expectedAfter s.last?).Admits word) (spaced : Bool) :
    TokenLog (word.token s.offset spaced) (Text.places s.offset word.text) (s.records word.text) := by
  rw [text, State.records_start wellFormed text admitted]
  have whole : (word.token s.offset spaced).text.toList = [c] := by rw [Word.token, text, String.toList_ofList]
  have label : (word.token s.offset spaced).kind.label = (word.kind false).label ++ .ofList [] := by
    simp [Word.token, label_kind word spaced]
  exact .intro (.lexed whole label) .nil

/-- A word leaves a record that its token begins, and one for each further character. -/
theorem tokenLog_word (wellFormed : word.WellFormed) (admitted : (expectedAfter s.last?).Admits word)
    (spaced : Bool) : TokenLog (word.token s.offset spaced) (Text.places s.offset word.text) (s.records word.text) := by
  cases word with
  | openParen => exact tokenLog_of_single wellFormed rfl admitted spaced
  | closeParen => exact tokenLog_of_single wellFormed rfl admitted spaced
  | operator op => exact tokenLog_of_single wellFormed rfl admitted spaced
  | number text =>
    obtain ⟨c, rest, rfl⟩ := List.exists_cons_of_ne_nil wellFormed.nonempty
    have number : IsNumber ([c] ++ rest) := wellFormed
    have first : (Word.number [c]).WellFormed := number.front (by simp)
    have operand : (expectedAfter s.last?).Admits (.number [c]) :=
      Expected.admits_number.mpr (Expected.admits_number.mp admitted)
    have label :
        ((Word.number (c :: rest)).kind spaced).label = ((Word.number [c]).kind false).label ++ .ofList rest := by
      have literal : (Word.numeral spaced (c :: rest)).literal = .ofList (literalOf [c]) ++ .ofList rest :=
        literal_append (List.cons_ne_nil c []) rest spaced
      calc ((Word.number (c :: rest)).kind spaced).label
          = "num:" ++ (Word.numeral spaced (c :: rest)).literal := rfl
        _ = "num:" ++ (.ofList (literalOf [c]) ++ .ofList rest) := by rw [literal]
        _ = ((Word.number [c]).kind false).label ++ .ofList rest := (String.append_assoc ..).symm
    have further := forall₂_extends (by simp) number s.offset spaced s.tokens
    rw [Word.text, State.records_start first rfl operand rest]
    refine .intro (.lexed String.toList_ofList label) ?_
    simpa using further

end

/-- The log of some pieces. -/
theorem forall₂_tells {pieces : List Piece} {s : State}
    (inOrder : InOrder (expectedAfter s.last?) (pieces.map Piece.word)) :
    List.Forall₂ (Tells (tokensFrom s.offset pieces)) (solidPlaces s.offset (sourceOf pieces))
        (s.records (sourceOf pieces)) ∧
      (s.records (sourceOf pieces)).countP saysLexed = pieces.length := by
  induction pieces generalizing s with
  | nil => exact ⟨.nil, rfl⟩
  | cons p rest ih =>
    obtain ⟨admitted, later⟩ := inOrder
    have after : expectedAfter (State.last? ⟨s.offset + width p.source, p.token s.offset :: s.tokens⟩) = p.word.after :=
      Word.after_kind p.wellFormed _
    obtain ⟨others, count⟩ :=
      @ih ⟨s.offset + width p.source, p.token s.offset :: s.tokens⟩ (by rw [after]; exact later)
    have log : TokenLog (p.token s.offset) (solidPlaces s.offset p.source) (s.records p.source) := by
      rw [Piece.source, solidPlaces_append, solidPlaces_word p.wellFormed, solidPlaces_of_blank p.blank,
        List.append_nil, State.records_append_of_run (run_word p.wellFormed admitted),
        State.records_of_blank p.blank, List.append_nil]
      exact tokenLog_word p.wellFormed admitted _
    rw [sourceOf_cons, solidPlaces_append, State.records_append_of_run (run_piece p admitted)]
    constructor
    · refine List.rel_append (log.forall₂.imp ?_) (others.imp ?_)
      · intro place record tells
        exact tells.of_subset (by simp [tokensFrom])
      · intro place record tells
        exact tells.of_subset (List.subset_cons_self _ _)
    · rw [List.countP_append, log.countP, count, List.length_cons, Nat.add_comm]

/-! ## Each character belongs to one token -/

/-- One token ends before the other one begins. -/
def Precedes (a b : Token) : Prop := a.offset + a.text.utf8ByteSize ≤ b.offset

/-- The tokens of pieces lie one behind the other. -/
theorem pairwise_tokensFrom (offset : Nat) (pieces : List Piece) : (tokensFrom offset pieces).Pairwise Precedes := by
  induction pieces generalizing offset with
  | nil => exact .nil
  | cons p rest ih =>
    refine .cons ?_ (ih _)
    intro t member
    obtain ⟨behind, -, -⟩ := bounds_of_mem_tokensFrom member
    rw [Piece.source, Text.width_append] at behind
    rw [Precedes, utf8ByteSize_text_token]
    show offset + width p.word.text ≤ t.offset
    omega

section

variable {token : Token} {tokens : List Token} {place : Nat × Char} {record other : Record}

/-- Tokens that lie one behind the other have no place in common. -/
theorem eq_of_common_place (apart : tokens.Pairwise Precedes) {a b : Token} (memberA : a ∈ tokens)
    (memberB : b ∈ tokens) {place : Nat} (inA : a.offset ≤ place ∧ place < a.offset + a.text.utf8ByteSize)
    (inB : b.offset ≤ place ∧ place < b.offset + b.text.utf8ByteSize) : a = b := by
  have symmetric : Std.Symm fun a b => Precedes a b ∨ Precedes b a := ⟨fun _ _ => Or.symm⟩
  have disjoint : tokens.Pairwise fun a b => Precedes a b ∨ Precedes b a := apart.imp Or.inl
  by_contra different
  have order := disjoint.forall memberA memberB different
  rw [Precedes, Precedes] at order
  omega

theorem Begins.offset_eq (begins : Begins token place record) : place.1 = token.offset := by
  cases begins
  rfl

theorem Extends.offset_lt (further : Extends token place record) : token.offset < place.1 := by
  cases further with
  | extended kind text nonempty upTo =>
    have : width _ ≠ 0 := fun none => nonempty (Text.width_eq_zero.mp none)
    show token.offset < token.offset + width _
    omega

/-- A record of a token is about a place in its text. -/
theorem within_of_told (told : Begins token place record ∨ Extends token place record) :
    token.offset ≤ place.1 ∧ place.1 < token.offset + token.text.utf8ByteSize := by
  rcases told with begins | further
  · cases begins with
    | @lexed c more label text upTo =>
      have := c.utf8Size_pos
      rw [← Text.width_toList, text, Text.width_cons]
      omega
  · cases further with
    | @extended n read more c literal kind text nonempty upTo =>
      have := c.utf8Size_pos
      rw [← Text.width_toList, text, Text.width_append, Text.width_cons]
      omega

theorem Begins.unique (begins : Begins token place record) (begins' : Begins token place other) : record = other := by
  cases begins with
  | lexed text upTo =>
    cases begins' with
    | lexed text' upTo' =>
      obtain ⟨-, rfl⟩ := List.cons.inj (text.symm.trans text')
      rw [(String.append_left_inj _).mp (upTo.symm.trans upTo')]

theorem Extends.unique (further : Extends token place record) (further' : Extends token place other) :
    record = other := by
  generalize same : place = place' at further'
  cases further with
  | extended kind text _ upTo =>
    cases further' with
    | extended kind' text' _ upTo' =>
      obtain ⟨offset, -⟩ := Prod.mk.inj same
      obtain ⟨-, back⟩ := Text.append_inj_of_width (text.symm.trans text') (Nat.add_left_cancel offset)
      obtain ⟨-, rfl⟩ := List.cons.inj back
      cases kind.symm.trans kind'
      rw [(String.append_left_inj _).mp (upTo.symm.trans upTo')]

/-- What is said about a character is determined by the token that it belongs to. -/
theorem unique_of_token (told : Begins token place record ∨ Extends token place record)
    (told' : Begins token place other ∨ Extends token place other) : record = other := by
  -- A token begins at its offset, and its further characters stand behind that.
  rcases told with begins | further
  · rcases told' with begins' | further'
    · exact begins.unique begins'
    · exact absurd further'.offset_lt (by simp [begins.offset_eq])
  · rcases told' with begins' | further'
    · exact absurd further.offset_lt (by simp [begins'.offset_eq])
    · exact further.unique further'

theorem rightUnique_tells (apart : tokens.Pairwise Precedes) : Relator.RightUnique (Tells tokens) := by
  rintro place record other ⟨a, memberA, told⟩ ⟨b, memberB, told'⟩
  obtain rfl : a = b := eq_of_common_place apart memberA memberB (within_of_told told) (within_of_told told')
  exact unique_of_token told told'

end

/-! ## The whole log -/

theorem length_tokensFrom (offset : Nat) (pieces : List Piece) : (tokensFrom offset pieces).length = pieces.length := by
  induction pieces generalizing offset with
  | nil => rfl
  | cons p rest ih => simp [tokensFrom, ih]

/-- The log of the text of a split. -/
theorem Split.logs (s : Split) : Logs s.tokens s.source (State.records ⟨0, []⟩ s.source) := by
  have log := @forall₂_tells s.pieces ⟨width s.lead, []⟩ s.inOrder
  have records : State.records ⟨0, []⟩ s.source = State.records ⟨width s.lead, []⟩ (sourceOf s.pieces) := by
    rw [source, State.records_append_of_run (run_lead s.blank 0), State.records_of_blank s.blank, Nat.zero_add]
    rfl
  have places : solidPlaces 0 s.source = solidPlaces (width s.lead) (sourceOf s.pieces) := by
    rw [source, solidPlaces_append, solidPlaces_of_blank s.blank, Nat.zero_add]
    rfl
  refine ⟨?_, rightUnique_tells (pairwise_tokensFrom _ _), ?_⟩
  · rw [records, places]
    exact log.1
  · rw [records, tokens, length_tokensFrom]
    exact log.2

/-- The tokens of a text that stands at the beginning of an expression: white space alone has none. -/
def ReadAs (text : List Char) (tokens : List Token) : Prop :=
  tokenize (.ofList text) = .ok tokens ∨ (∀ c ∈ text, isSpace c) ∧ tokens = []

theorem Split.readAs (s : Split) : ReadAs s.source s.tokens := by
  by_cases none : s.pieces = []
  · refine .inr ⟨?_, by rw [tokens, none, tokensFrom]⟩
    rw [source, none, sourceOf_nil, List.append_nil]
    exact s.blank
  · exact .inl (tokenize_of_split none String.toList_ofList.symm)

section

variable {expression : String} {tokens : List Token} {e : SyntaxError}

theorem records_of_tokenize (read : tokenize expression = .ok tokens) :
    records expression = State.records ⟨0, []⟩ expression.toList ++
      [⟨.debug, "tokenized " ++ Text.quoted expression ++ " into " ++ toString tokens.length ++ " tokens"⟩] := by
  rw [records, read]

theorem records_of_tokenize_error (failed : tokenize expression = .error e) :
    records expression = State.records ⟨0, []⟩ expression.toList := by
  rw [records, failed]
  exact List.append_nil _

/-- What has been read when an error is found has a split, and only that is in the log. -/
theorem exists_split_of_error (failed : tokenize expression = .error e) :
    ∃ (s : Split) (back : List Char), expression.toList = s.source ++ back ∧ width s.source = e.offset ∧
      records expression = State.records ⟨0, []⟩ s.source := by
  rw [records_of_tokenize_error failed]
  rcases tokenize_eq_error_cases failed with ⟨rfl, blank⟩ | ⟨front, c, back, t, cause, text, run, refused, rfl⟩
  · exact ⟨.empty, expression.toList, rfl, rfl, State.records_of_blank blank _⟩
  · obtain ⟨s, source, -⟩ := @Split.exists_of_run front Split.empty t run
    obtain rfl : s.source = front := source
    refine ⟨s, c :: back, text, rfl, ?_⟩
    rw [text, State.records_append_of_run run, State.records_of_error refused, List.append_nil]

theorem level_eq_of_tells {places : List (Nat × Char)} {records : List Record}
    (each : List.Forall₂ (Tells tokens) places records) : ∀ record ∈ records, record.level = .trace := by
  induction each with
  | nil => exact List.forall_mem_nil _
  | cons tells later ih => exact List.forall_mem_cons.mpr ⟨tells.level_eq, ih⟩

end

/-- The log tells each character that has been read, and nothing else. If the expression is read, then its characters
have their records, and one with the number of tokens comes last. If it is refused, then only the characters before the
offset of the error have records. -/
theorem log_tells_each_character (expression : String) :
    (∀ tokens, tokenize expression = .ok tokens → ∃ traces, Logs tokens expression.toList traces ∧
      records expression = traces ++
        [⟨.debug, "tokenized " ++ Text.quoted expression ++ " into " ++ toString tokens.length ++ " tokens"⟩]) ∧
    (∀ e, tokenize expression = .error e → ∃ front back tokens, expression.toList = front ++ back ∧
      width front = e.offset ∧ ReadAs front tokens ∧ Logs tokens front (records expression)) ∧
    ((∃ record ∈ records expression, record.level = .debug) ↔ ∃ tokens, tokenize expression = .ok tokens) := by
  refine ⟨?_, ?_, ?_, ?_⟩
  · intro tokens read
    obtain ⟨s, -, source, rfl⟩ := exists_split read
    exact ⟨_, source ▸ s.logs, records_of_tokenize read⟩
  · intro e failed
    obtain ⟨s, back, text, offset, records⟩ := exists_split_of_error failed
    exact ⟨s.source, back, s.tokens, text, offset, s.readAs, records ▸ s.logs⟩
  · rintro ⟨record, member, debug⟩
    cases read : tokenize expression with
    | ok tokens => exact ⟨tokens, rfl⟩
    | error e =>
      obtain ⟨s, -, -, -, records⟩ := exists_split_of_error read
      rw [records] at member
      cases (level_eq_of_tells s.logs.each record member).symm.trans debug
  · rintro ⟨tokens, read⟩
    rw [records_of_tokenize read]
    exact ⟨_, List.mem_concat_self, rfl⟩

/-- The log of an expression that is read, and that of one in which the second number is refused. -/
theorem log_tells_each_character_signed :
    (∃ traces, Logs [⟨0, .number { literal := "12" }, "+12"⟩] "+12".toList traces ∧
      records "+12" = traces ++ [⟨.debug, "tokenized \"+12\" into 1 tokens"⟩]) ∧
    ∃ front back tokens, "+1 2".toList = front ++ back ∧ width front = 3 ∧ ReadAs front tokens ∧
      Logs tokens front (records "+1 2") := by
  obtain ⟨traces, logs, records⟩ :=
    (log_tells_each_character "+12").1 [⟨0, .number { literal := "12" }, "+12"⟩] (by decide)
  have message : "tokenized " ++ Text.quoted "+12" ++ " into " ++ toString 1 ++ " tokens" =
      "tokenized \"+12\" into 1 tokens" := by decide +kernel
  rw [List.length_singleton, message] at records
  have refused := (log_tells_each_character "+1 2").2.1 ⟨.missingOperator '2', 3⟩ (by decide)
  exact ⟨⟨traces, logs, records⟩, refused⟩

end Lexer

end Polish
