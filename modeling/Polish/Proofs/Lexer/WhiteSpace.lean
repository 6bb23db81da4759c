import Polish.Proofs.Lexer.Places
import Polish.Proofs.ShuntingYard.Correspondence

/-!
# White space put into an expression

A place in the text of a split lies in the white space before the first word, in the gap behind a word, or within the
text of a number (`Cut`). White space that is put in before the first word or into a gap lengthens what is there, so the
longer text has a split with the same words, and its tokens are the old ones up to their offsets and the mark on a
number that ends at the place (`Token.makeRoom`). White space within a number closes the number, and the character
behind it is refused.
-/

namespace Polish

open Text (width)

/-- Where a byte offset goes when `width` bytes are put in at `place`. -/
def Text.shift (place width offset : Nat) : Nat := if place ≤ offset then offset + width else offset

namespace Token

/-- Whether the place lies strictly within the text of the number that the token is. -/
def Covers (t : Token) (place : Nat) : Prop :=
  (∃ n, t.kind = .number n) ∧ t.offset < place ∧ place < t.offset + t.text.utf8ByteSize

instance (kind : Kind) : Decidable (∃ n, kind = .number n) :=
  match kind with
  | .number n => isTrue ⟨n, rfl⟩
  | .openParen | .closeParen | .operator _ => isFalse (by simp)

instance (t : Token) (place : Nat) : Decidable (t.Covers place) := inferInstanceAs (Decidable (_ ∧ _ ∧ _))

/-- The token when `width` bytes of white space have been put in at `place`: a number that ends there is marked, and
what begins there or later moves on. -/
def makeRoom (place width : Nat) (t : Token) : Token :=
  { (if t.offset + t.text.utf8ByteSize = place then t.markSpace else t) with
    offset := Text.shift place width t.offset }

variable {t : Token} {place width : Nat}

theorem makeRoom_of_before (before : t.offset + t.text.utf8ByteSize < place) : t.makeRoom place width = t := by
  have ends : t.offset + t.text.utf8ByteSize ≠ place := by omega
  have starts : ¬ place ≤ t.offset := by omega
  rw [makeRoom, if_neg ends, Text.shift, if_neg starts]

theorem makeRoom_of_end (nonempty : 0 < t.text.utf8ByteSize) (ends : t.offset + t.text.utf8ByteSize = place) :
    t.makeRoom place width = { t.markSpace with offset := t.offset } := by
  have starts : ¬ place ≤ t.offset := by omega
  rw [makeRoom, if_pos ends, Text.shift, if_neg starts]

theorem makeRoom_of_after (nonempty : 0 < t.text.utf8ByteSize) (starts : place ≤ t.offset) :
    t.makeRoom place width = { t with offset := t.offset + width } := by
  have ends : t.offset + t.text.utf8ByteSize ≠ place := by omega
  rw [makeRoom, if_neg ends, Text.shift, if_pos starts]

theorem corresponds_makeRoom (place width : Nat) (t : Token) :
    t.Corresponds (fun before after => after = Text.shift place width before) (t.makeRoom place width) where
  kind := by
    unfold makeRoom
    split
    · exact t.same_kind_markSpace
    · exact .refl _
  offset := rfl

/-- A token keeps its text when room is made. -/
theorem text_makeRoom (place width : Nat) (t : Token) : (t.makeRoom place width).text = t.text := by
  have marked : t.markSpace.text = t.text := by
    unfold markSpace
    split
    · rfl
    · rfl
  unfold makeRoom
  split
  · exact marked
  · rfl

/-- Places that no number covers move on together, and still no number covers them. -/
theorem not_covers_makeRoom {later : Nat} (free : ¬ t.Covers place) (free' : ¬ t.Covers later)
    (behind : place ≤ later) : ¬ (t.makeRoom place width).Covers (later + width) := by
  rintro ⟨⟨n, kind⟩, starts, ends⟩
  have number : ∃ m, t.kind = .number m := by
    have same := (corresponds_makeRoom place width t).kind
    rw [kind] at same
    generalize t.kind = before at same ⊢
    cases same with
    | number numeral => exact ⟨_, rfl⟩
  have moved : (t.makeRoom place width).offset = Text.shift place width t.offset := rfl
  rw [moved, Text.shift] at starts ends
  rw [text_makeRoom] at ends
  split at starts
  · next after =>
    rw [if_pos after] at ends
    exact free' ⟨number, by omega, by omega⟩
  · next before =>
    rw [if_neg before] at ends
    exact free ⟨number, by omega, by omega⟩

end Token

namespace Lexer

open Token

/-! ## The tokens of pieces -/

theorem Word.width_text_pos {word : Word} (wellFormed : word.WellFormed) : 0 < width word.text := by
  obtain ⟨c, rest, text, -⟩ := Word.exists_text wellFormed
  have := c.utf8Size_pos
  rw [text, Text.width_cons]
  omega

theorem utf8ByteSize_text_token (p : Piece) (offset : Nat) :
    (p.token offset).text.utf8ByteSize = width p.word.text :=
  Text.utf8ByteSize_ofList _

/-- The tokens of pieces lie within the text of the pieces. -/
theorem bounds_of_mem_tokensFrom {offset : Nat} {pieces : List Piece} {t : Token}
    (member : t ∈ tokensFrom offset pieces) :
    offset ≤ t.offset ∧ 0 < t.text.utf8ByteSize ∧
      t.offset + t.text.utf8ByteSize ≤ offset + width (sourceOf pieces) := by
  induction pieces generalizing offset with
  | nil => simp [tokensFrom] at member
  | cons p rest ih =>
    rw [sourceOf_cons, Text.width_append, Piece.source, Text.width_append]
    rcases List.mem_cons.mp member with rfl | later
    · have nonempty := Word.width_text_pos p.wellFormed
      have start : (p.token offset).offset = offset := rfl
      rw [utf8ByteSize_text_token, start]
      omega
    · have bounds := ih later
      rw [Piece.source, Text.width_append] at bounds
      omega

theorem tokensFrom_add (offset shift : Nat) (pieces : List Piece) :
    tokensFrom (offset + shift) pieces =
      (tokensFrom offset pieces).map fun t => { t with offset := t.offset + shift } := by
  induction pieces generalizing offset with
  | nil => rfl
  | cons p rest ih =>
    rw [tokensFrom, tokensFrom, List.map_cons, ← ih, Nat.add_right_comm]
    rfl

variable {place : Nat}

theorem map_makeRoom_before {offset : Nat} {pieces : List Piece} (before : offset + width (sourceOf pieces) < place)
    (size : Nat) : (tokensFrom offset pieces).map (makeRoom place size) = tokensFrom offset pieces := by
  refine (List.map_congr_left ?_).trans (List.map_id _)
  intro t member
  obtain ⟨-, -, ends⟩ := bounds_of_mem_tokensFrom member
  exact makeRoom_of_before (by omega)

theorem map_makeRoom_after {offset : Nat} (after : place ≤ offset) (size : Nat) (pieces : List Piece) :
    (tokensFrom offset pieces).map (makeRoom place size) = tokensFrom (offset + size) pieces := by
  rw [tokensFrom_add]
  apply List.map_congr_left
  intro t member
  obtain ⟨starts, nonempty, -⟩ := bounds_of_mem_tokensFrom member
  exact makeRoom_of_after nonempty (by omega)

/-! ## Places in a text -/

/-- Where the text of some pieces, with white space before it, can be cut in two. -/
inductive Cut (lead : List Char) (pieces : List Piece) (front back : List Char) : Prop where
  /-- In the white space before the first word. -/
  | lead (more : List Char) (leads : lead = front ++ more) (rest : back = more ++ sourceOf pieces)
  /-- In the gap behind a word. -/
  | gap (before : List Piece) (p : Piece) (after : List Piece) (space more : List Char)
      (split : pieces = before ++ p :: after) (gap : p.space = space ++ more)
      (start : front = lead ++ sourceOf before ++ (p.word.text ++ space)) (rest : back = more ++ sourceOf after)
  /-- Within the text of a number. -/
  | inside (before : List Piece) (p : Piece) (after : List Piece) (text : List Char) (c : Char) (more : List Char)
      (split : pieces = before ++ p :: after) (number : p.word = .number (text ++ c :: more)) (nonempty : text ≠ [])
      (start : front = lead ++ sourceOf before ++ text) (rest : back = c :: (more ++ p.space ++ sourceOf after))

/-- Only the text of a number has two parts. -/
theorem Word.eq_number_of_append {word : Word} {text more : List Char} {c : Char} (nonempty : text ≠ [])
    (parts : word.text = text ++ c :: more) : word = .number (text ++ c :: more) := by
  have long : 2 ≤ word.text.length := by
    have := List.length_pos_iff.mpr nonempty
    rw [parts, List.length_append, List.length_cons]
    omega
  cases word with
  | number text' => exact congrArg Word.number parts
  | openParen => simp [Word.text] at long
  | closeParen => simp [Word.text] at long
  | operator op => simp [Word.text] at long

theorem cut_behind_lead {lead more back : List Char} {pieces : List Piece} (same : sourceOf pieces = more ++ back) :
    Cut lead pieces (lead ++ more) back := by
  induction pieces generalizing lead more with
  | nil =>
    obtain ⟨rfl, rfl⟩ := List.append_eq_nil_iff.mp same.symm
    exact .lead [] (by simp) rfl
  | cons p rest ih =>
    rw [sourceOf_cons] at same
    rcases List.append_eq_append_iff.mp same with ⟨behind, rfl, later⟩ | ⟨within, parts, rfl⟩
    · -- The place is behind the first piece, whose text then belongs to what comes before the others.
      have cut := @ih (lead ++ p.source) behind later
      rw [List.append_assoc] at cut
      cases cut with
      | lead more' leads rest' =>
        have none : behind = [] ∧ more' = [] := by simpa [eq_comm] using leads
        obtain ⟨rfl, rfl⟩ := none
        exact .gap [] p rest p.space [] rfl (by simp) (by simp [Piece.source]) rest'
      | gap before q after space more' split gap start rest' =>
        exact .gap (p :: before) q after space more' (by rw [split]; rfl) gap (by simpa using start) rest'
      | inside before q after text c more' split number nonempty start rest' =>
        exact .inside (p :: before) q after text c more' (by rw [split]; rfl) number nonempty (by simpa using start)
          rest'
    · rw [Piece.source] at parts
      rcases List.append_eq_append_iff.mp parts with ⟨space, rfl, gap⟩ | ⟨others, word, rfl⟩
      · exact .gap [] p rest space within rfl gap (by simp) rfl
      · cases others with
        | nil =>
          rw [List.append_nil] at word
          exact .gap [] p rest [] p.space rfl rfl (by simp [word]) rfl
        | cons c others =>
          by_cases nonempty : more = []
          · subst nonempty
            exact .lead [] (by simp) (by simp [Piece.source, word])
          · exact .inside [] p rest more c others rfl (Word.eq_number_of_append nonempty word) nonempty (by simp)
              (by simp)

/-- Every place in the text lies in one of these ways. -/
theorem cut_of_append {lead front back : List Char} {pieces : List Piece}
    (same : lead ++ sourceOf pieces = front ++ back) : Cut lead pieces front back := by
  rcases List.append_eq_append_iff.mp same with ⟨more, rfl, rest⟩ | ⟨more, leads, rest⟩
  · exact cut_behind_lead rest
  · exact .lead more leads rest

/-! ## White space between words -/

/-- The token of a piece with more white space in its gap. -/
theorem makeRoom_token {p q : Piece} {space more : List Char} (word : q.word = p.word) (gap : p.space = space ++ more)
    (nonempty : q.space ≠ []) (offset size : Nat) :
    (p.token offset).makeRoom (offset + width p.word.text + width space) size = q.token offset := by
  have solid := Word.width_text_pos p.wellFormed
  have start : (p.token offset).offset = offset := rfl
  have spaced : q.token offset = p.word.token offset true := by
    have full : q.space.isEmpty = false := by simpa using nonempty
    rw [Piece.token, word, full]
    rfl
  rw [spaced]
  by_cases ends : space = []
  · rw [makeRoom_of_end (by rw [utf8ByteSize_text_token]; exact solid)
      (by rw [utf8ByteSize_text_token, start, ends, Text.width_nil, Nat.add_zero]), Piece.token, markSpace_token]
    rfl
  · have positive : 0 < width space := Nat.pos_of_ne_zero (mt Text.width_eq_zero.mp ends)
    have full : p.space.isEmpty = false := by simp [gap, ends]
    rw [makeRoom_of_before (by rw [utf8ByteSize_text_token, start]; omega), Piece.token, full]
    rfl

theorem tokensFrom_split (offset : Nat) (before : List Piece) (p : Piece) (after : List Piece) :
    tokensFrom offset (before ++ p :: after) =
      tokensFrom offset before ++ p.token (offset + width (sourceOf before)) ::
        tokensFrom (offset + width (sourceOf before) + width p.source) after := by
  rw [tokensFrom_append, tokensFrom]

theorem covers_token {p : Piece} {text more : List Char} {c : Char} (number : p.word = .number (text ++ c :: more))
    (nonempty : text ≠ []) (offset : Nat) : (p.token offset).Covers (offset + width text) := by
  have positive : 0 < width text := Nat.pos_of_ne_zero (mt Text.width_eq_zero.mp nonempty)
  have solid := c.utf8Size_pos
  have start : (p.token offset).offset = offset := rfl
  refine ⟨⟨_, by rw [Piece.token, Word.token, number]; rfl⟩, ?_, ?_⟩
  · omega
  · rw [utf8ByteSize_text_token, start, number, Word.text, Text.width_append, Text.width_cons]
    omega

namespace Split

/-- A piece of a split may be exchanged for one that can stand in the same place. -/
theorem exists_exchange (s : Split) {before after : List Piece} {p q : Piece} (split : s.pieces = before ++ p :: after)
    (admits : ∀ expected : Expected, expected.Admits p.word → expected.Admits q.word)
    (same : q.word.after = p.word.after) :
    ∃ other : Split, other.lead = s.lead ∧ other.pieces = before ++ q :: after := by
  have inOrder := s.inOrder
  rw [split, List.map_append, inOrder_append, List.map_cons, InOrder] at inOrder
  refine ⟨⟨s.lead, before ++ q :: after, s.blank, ?_⟩, rfl, rfl⟩
  rw [List.map_append, inOrder_append, List.map_cons, InOrder, same]
  exact ⟨inOrder.1, admits _ inOrder.2.1, inOrder.2.2⟩

/-- What stands before a piece is a split too, and the word of the piece may come next. -/
theorem exists_front (s : Split) {before after : List Piece} {p : Piece} (split : s.pieces = before ++ p :: after) :
    ∃ front : Split, front.source = s.lead ++ sourceOf before ∧ front.expected.Admits p.word := by
  have inOrder := s.inOrder
  rw [split, List.map_append, inOrder_append, List.map_cons, InOrder] at inOrder
  exact ⟨⟨s.lead, before, s.blank, inOrder.1⟩, rfl, inOrder.2.1⟩

end Split

theorem blank_append {first second : List Char} (blank : ∀ c ∈ first, isSpace c) (blank' : ∀ c ∈ second, isSpace c) :
    ∀ c ∈ first ++ second, isSpace c :=
  List.forall_mem_append.mpr ⟨blank, blank'⟩

section

variable {s : Split} {front space back : List Char}

/-- White space may be put in before the first word. -/
theorem Split.exists_longer_lead (s : Split) {first more : List Char} (leads : s.lead = first ++ more)
    (blank : ∀ c ∈ space, isSpace c) :
    ∃ longer : Split, longer.source = first ++ space ++ (more ++ sourceOf s.pieces) ∧
      longer.tokens = s.tokens.map (makeRoom (width first) (width space)) := by
  have parts := s.blank
  rw [leads, List.forall_mem_append] at parts
  refine ⟨⟨first ++ space ++ more, s.pieces, blank_append (blank_append parts.1 blank) parts.2, s.inOrder⟩, ?_, ?_⟩
  · simp [Split.source]
  · rw [Split.tokens, Split.tokens, map_makeRoom_after (by simp [leads]), leads]
    congr 1
    simp only [Text.width_append]
    omega

/-- White space may be put in behind a word. -/
theorem Split.exists_longer_gap (s : Split) {before after : List Piece} {p : Piece} {first more : List Char}
    (split : s.pieces = before ++ p :: after) (gap : p.space = first ++ more) (blank : ∀ c ∈ space, isSpace c)
    (nonempty : space ≠ []) :
    ∃ longer : Split,
      longer.source = s.lead ++ sourceOf before ++ (p.word.text ++ first) ++ space ++ (more ++ sourceOf after) ∧
      longer.tokens =
        s.tokens.map (makeRoom (width (s.lead ++ sourceOf before ++ (p.word.text ++ first))) (width space)) := by
  have parts := p.blank
  rw [gap, List.forall_mem_append] at parts
  have blank' := blank_append (blank_append parts.1 blank) parts.2
  generalize wider : Piece.mk p.word (first ++ space ++ more) p.wellFormed blank' = q
  have word : q.word = p.word := wider ▸ rfl
  have gap' : q.space = first ++ space ++ more := wider ▸ rfl
  obtain ⟨longer, lead, pieces⟩ := s.exists_exchange split (q := q) (by simp [word]) (by rw [word])
  refine ⟨longer, by simp [Split.source, Piece.source, lead, pieces, word, gap'], ?_⟩
  have place : width (s.lead ++ sourceOf before ++ (p.word.text ++ first)) =
      width s.lead + width (sourceOf before) + width p.word.text + width first := by
    simp only [Text.width_append]
    omega
  have solid := Word.width_text_pos p.wellFormed
  have size : width p.source = width p.word.text + (width first + width more) := by
    rw [Piece.source, gap, Text.width_append, Text.width_append]
  have size' : width q.source = width p.word.text + (width first + width space + width more) := by
    rw [Piece.source, word, gap', Text.width_append, Text.width_append, Text.width_append]
  rw [Split.tokens, Split.tokens, lead, pieces, split, tokensFrom_split, tokensFrom_split, List.map_append,
    List.map_cons, place, map_makeRoom_before (by omega), map_makeRoom_after (by omega),
    makeRoom_token word gap (by simp [gap', nonempty])]
  congr 3
  omega

/-- White space may be put in anywhere but within a number. -/
theorem Cut.exists_split (cut : Cut s.lead s.pieces front back) (blank : ∀ c ∈ space, isSpace c) (nonempty : space ≠ [])
    (free : ∀ t ∈ s.tokens, ¬ t.Covers (width front)) :
    ∃ longer : Split, longer.source = front ++ space ++ back ∧
      longer.tokens = s.tokens.map (makeRoom (width front) (width space)) := by
  cases cut with
  | lead more leads rest =>
    subst rest
    exact s.exists_longer_lead leads blank
  | gap before p after first more split gap start rest =>
    subst start rest
    exact s.exists_longer_gap split gap blank nonempty
  | inside before p after text c more split number nonempty' start rest =>
    have covered := covers_token number nonempty' (width s.lead + width (sourceOf before))
    rw [← Text.width_append, ← Text.width_append, ← start] at covered
    refine absurd covered (free _ ?_)
    rw [Split.tokens, split, tokensFrom_split, Text.width_append]
    simp

/-- A place that a token covers lies within the text of a number. -/
theorem Cut.exists_inside (cut : Cut s.lead s.pieces front back) (covered : ∃ t ∈ s.tokens, t.Covers (width front)) :
    ∃ before p after text c more, s.pieces = before ++ p :: after ∧ p.word = .number (text ++ c :: more) ∧ text ≠ [] ∧
      front = s.lead ++ sourceOf before ++ text ∧ back = c :: (more ++ p.space ++ sourceOf after) := by
  obtain ⟨t, member, -, starts, ends⟩ := covered
  cases cut with
  | lead more leads rest =>
    obtain ⟨later, -, -⟩ := bounds_of_mem_tokensFrom member
    rw [leads, Text.width_append] at later
    omega
  | gap before p after space more split gap start rest =>
    rw [Split.tokens, split, tokensFrom_split, List.mem_append, List.mem_cons] at member
    simp only [start, Text.width_append] at starts ends
    rcases member with earlier | rfl | later
    · have bounds := bounds_of_mem_tokensFrom earlier
      omega
    · have begins : (p.token (width s.lead + width (sourceOf before))).offset =
        width s.lead + width (sourceOf before) := rfl
      rw [utf8ByteSize_text_token, begins] at ends
      omega
    · have bounds := bounds_of_mem_tokensFrom later
      rw [Piece.source, gap, Text.width_append, Text.width_append] at bounds
      omega
  | inside before p after text c more split number nonempty start rest =>
    exact ⟨before, p, after, text, c, more, split, number, nonempty, start, rest⟩

end

/-! ## White space within a number -/

theorem State.run_cons_of_error {s : State} {c : Char} {cause : SyntaxError.Cause}
    (refused : action s.last? c = .error cause) (rest : List Char) : s.run (c :: rest) = .error ⟨cause, s.offset⟩ := by
  have stops : s.step c = .error ⟨cause, s.offset⟩ := by rw [step, refused]
  exact Fold.cons_of_error stops rest

/-- Behind white space a number does not go on. -/
theorem action_of_closed {n : Numeral} {c : Char} (closed : n.trailingSpace = true) (numeric : c.isDigit ∨ c = '.') :
    action (some (.number n)) c = .error (.missingOperator c) := by
  rw [action_numeric numeric, digitAction, if_pos closed]

/-- When white space is put in within a number, what is left of the number is refused. -/
theorem run_insert_inside {s : Split} {before after : List Piece} {p : Piece} {text more space : List Char} {c : Char}
    (split : s.pieces = before ++ p :: after) (number : p.word = .number (text ++ c :: more)) (nonempty : text ≠ [])
    (blank : ∀ c ∈ space, isSpace c) (full : space ≠ []) (rest : List Char) :
    State.run ⟨0, []⟩ (s.lead ++ sourceOf before ++ text ++ space ++ c :: rest) =
      .error ⟨.missingOperator c, width (s.lead ++ sourceOf before ++ text ++ space)⟩ := by
  have whole : IsNumber (text ++ c :: more) := by
    have wellFormed := p.wellFormed
    rwa [number] at wellFormed
  have numeric : c.isDigit ∨ c = '.' := by
    have body := whole.body
    rw [unsigned_append nonempty] at body
    exact body c (by simp)
  obtain ⟨start, source, admitted⟩ := s.exists_front split
  have closed : start.expected.Admits (Piece.mk (.number text) space (whole.front nonempty) blank).word := by
    rw [number, Expected.admits_number] at admitted
    exact Expected.admits_number.mpr admitted
  have read := (start.snoc _ closed).run_source
  have last : (start.snoc _ closed).state.last? = some (.number (Word.numeral true text)) := by
    have spaced : space.isEmpty = false := by simpa using full
    rw [State.last?, Split.tokens_state_snoc, Piece.token, spaced]
    rfl
  rw [Split.source_snoc, source, Piece.source, Word.text, ← List.append_assoc] at read
  rw [State.run_append_of_run read, State.run_cons_of_error (by rw [last]; exact action_of_closed rfl numeric)]
  simp [Split.state, source, Piece.source, Word.text]

/-! ## Expressions -/

variable {front space back : String} {tokens : List Token}

/-- White space anywhere but within a number is read, and changes nothing but offsets and marks. -/
theorem tokenize_insert_of_free (read : tokenize (front ++ back) = .ok tokens) (nonempty : space ≠ "")
    (blank : ∀ c ∈ space.toList, isSpace c) (free : ∀ t ∈ tokens, ¬ t.Covers front.utf8ByteSize) :
    tokenize (front ++ space ++ back) = .ok (tokens.map (makeRoom front.utf8ByteSize space.utf8ByteSize)) := by
  obtain ⟨s, some, source, rfl⟩ := exists_split read
  rw [String.toList_append] at source
  obtain ⟨longer, text, same⟩ := (cut_of_append source).exists_split blank (by simpa using nonempty)
    (by simpa using free)
  rw [Text.width_toList, Text.width_toList] at same
  have pieces : longer.pieces ≠ [] := by
    intro none
    rw [Split.tokens, none, tokensFrom, eq_comm, List.map_eq_nil_iff] at same
    exact some (tokensFrom_eq_nil.mp same)
  rw [← same]
  exact tokenize_of_split pieces (by simpa using text)

/-- White space within a number is refused at the rest of the number. -/
theorem tokenize_insert_of_covers (read : tokenize (front ++ back) = .ok tokens) (nonempty : space ≠ "")
    (blank : ∀ c ∈ space.toList, isSpace c) (covered : ∃ t ∈ tokens, t.Covers front.utf8ByteSize) :
    ∃ c, back.toList.head? = some c ∧ tokenize (front ++ space ++ back) =
      .error ⟨.missingOperator c, front.utf8ByteSize + space.utf8ByteSize⟩ := by
  obtain ⟨s, -, source, rfl⟩ := exists_split read
  rw [String.toList_append] at source
  obtain ⟨before, p, after, text, c, more, split, number, some, start, rest⟩ :=
    (cut_of_append source).exists_inside (by simpa using covered)
  refine ⟨c, by simp [rest], ?_⟩
  apply tokenize_of_run_error
  rw [String.toList_append, String.toList_append, start, rest,
    run_insert_inside split number some blank (by simpa using nonempty)]
  rw [Text.width_append, ← start, Text.width_toList, Text.width_toList]

end Lexer

end Polish
