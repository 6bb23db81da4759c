import Polish.Proofs.Lexer.Alternation
import Polish.Proofs.Lexer.Places

/-!
# A group in the place of a number

A text in parentheses may be written in the place of a number if a value stands at its end. What stood before the number
and after it is read as before, and the text between the parentheses is read as it is on its own: only the offsets of
the tokens change.
-/

namespace Polish.Lexer

/-- What a token is does not depend on where it stands. -/
theorem kinds_tokensFrom (offset other : Nat) (pieces : List Piece) :
    (tokensFrom offset pieces).map Token.kind = (tokensFrom other pieces).map Token.kind := by
  induction pieces generalizing offset other with
  | nil => rfl
  | cons p rest ih =>
    rw [tokensFrom, tokensFrom, List.map_cons, List.map_cons, ih _ (other + Text.width p.source)]
    rfl

/-- A value stands at the end of the tokens if no operand may come after their words. -/
theorem endsInValue_tokensFrom (expected : Expected) (offset : Nat) (pieces : List Piece) :
    endsInValue (decide (expected ≠ .operand)) (tokensFrom offset pieces) =
      decide (afterAll expected (pieces.map Piece.word) ≠ .operand) := by
  induction pieces generalizing expected offset with
  | nil => rfl
  | cons p rest ih =>
    rw [tokensFrom, endsInValue, p.isValue_token]
    exact ih p.word.after _

/-- What may come after a number may come after a group. -/
theorem inOrder_of_after_number {text : List Char} {words : List Word}
    (inOrder : InOrder (Word.number text).after words) : InOrder .operator words := by
  cases words with
  | nil => trivial
  | cons word rest =>
    obtain ⟨admitted, later⟩ := inOrder
    refine ⟨?_, later⟩
    rw [Word.after] at admitted
    split at admitted
    · cases word with
      | closeParen => trivial
      | number text => cases admitted
      | openParen => cases admitted
      | operator op => cases admitted
    · exact admitted

namespace Split

/-- The pieces of a split in parentheses, with the white space after the group. -/
def group (inner : Split) (space : List Char) (blank : ∀ c ∈ space, isSpace c) : List Piece :=
  ⟨.openParen, inner.lead, trivial, inner.blank⟩ :: (inner.pieces ++ [⟨.closeParen, space, trivial, blank⟩])

theorem sourceOf_group (inner : Split) (space : List Char) (blank : ∀ c ∈ space, isSpace c) :
    sourceOf (inner.group space blank) = '(' :: (inner.source ++ ')' :: space) := by
  simp [group, Piece.source, Word.text, source]

theorem kinds_group (inner : Split) (space : List Char) (blank : ∀ c ∈ space, isSpace c) (offset : Nat) :
    (tokensFrom offset (inner.group space blank)).map Token.kind =
      .openParen :: (inner.tokens.map Token.kind ++ [.closeParen]) := by
  rw [group, tokensFrom, List.map_cons, tokensFrom_append, List.map_append,
    kinds_tokensFrom _ (Text.width inner.lead) inner.pieces]
  rfl

section

variable (s : Split) {front back : List Piece} {p : Piece} {text : List Char} (pieces : s.pieces = front ++ p :: back)
  (number : p.word = .number text) (inner : Split) (ends : inner.expected ≠ .operand)

include pieces number ends in
theorem inOrder_splice : InOrder .operand ((front ++ inner.group p.space p.blank ++ back).map Piece.word) := by
  have order := s.inOrder
  rw [pieces, List.map_append, inOrder_append] at order
  obtain ⟨orderFront, admitted, orderBack⟩ := order
  rw [number] at admitted orderBack
  have operand := Expected.admits_number.mp admitted
  have orderInner : InOrder .operand (inner.pieces.map Piece.word ++ .closeParen :: back.map Piece.word) := by
    rw [inOrder_append]
    exact ⟨inner.inOrder, Expected.admits_closeParen.mpr ends, inOrder_of_after_number orderBack⟩
  rw [List.append_assoc, List.map_append, inOrder_append, operand]
  refine ⟨orderFront, Expected.admits_openParen.mpr rfl, ?_⟩
  simpa [group, Word.after] using orderInner

/-- The split in which a group stands for a number. -/
def splice : Split where
  lead := s.lead
  pieces := front ++ inner.group p.space p.blank ++ back
  blank := s.blank
  inOrder := s.inOrder_splice pieces number inner ends

theorem source_splice : (s.splice pieces number inner ends).source =
    s.lead ++ sourceOf front ++ '(' :: (inner.source ++ ')' :: (p.space ++ sourceOf back)) := by
  simp [splice, source, sourceOf_group]

theorem kinds_splice (offset : Nat) : (s.splice pieces number inner ends).tokens.map Token.kind =
    (tokensFrom (Text.width s.lead) front).map Token.kind ++ .openParen :: (inner.tokens.map Token.kind ++
      .closeParen :: (tokensFrom offset back).map Token.kind) := by
  rw [tokens, splice, tokensFrom_append, tokensFrom_append, List.map_append, List.map_append, kinds_group,
    kinds_tokensFrom _ offset back]
  simp

end

end Split

/-- A text in parentheses may be written for a number of another text. -/
theorem exists_tokenize_splice {expression inner : String} {tokens tokensInner before after : List Token}
    {token : Token} {n : Numeral} (read : tokenize expression = .ok tokens)
    (split : tokens = before ++ token :: after) (kind : token.kind = .number n)
    (readInner : tokenize inner = .ok tokensInner) (value : endsInValue false tokensInner = true) :
    ∃ front back spliced, expression = front ++ token.text ++ back ∧ front.utf8ByteSize = token.offset ∧
      tokenize (front ++ "(" ++ inner ++ ")" ++ back) = .ok spliced ∧
      spliced.map Token.kind = before.map Token.kind ++ .openParen :: (tokensInner.map Token.kind ++
        .closeParen :: after.map Token.kind) := by
  obtain ⟨s, -, source, rfl⟩ := exists_split read
  obtain ⟨i, -, sourceInner, rfl⟩ := exists_split readInner
  obtain ⟨front, p, back, pieces, rfl, rfl, rfl⟩ := exists_piece_of_tokensFrom split
  obtain ⟨text, number, -⟩ := Piece.exists_number kind
  have ends : i.expected ≠ .operand := by
    have := endsInValue_tokensFrom .operand (Text.width i.lead) i.pieces
    rw [Split.tokens] at value
    simpa [value, Split.expected] using this
  obtain ⟨around, place⟩ := s.text_around source pieces (Text.width s.lead + Text.width (sourceOf front))
  refine ⟨.ofList (s.lead ++ sourceOf front), .ofList (p.space ++ sourceOf back),
    (s.splice pieces number i ends).tokens, around, place, ?_, ?_⟩
  · refine tokenize_of_split (by simp [Split.splice, Split.group]) ?_
    rw [Split.source_splice, sourceInner]
    simp
  · exact s.kinds_splice pieces number i ends _

end Polish.Lexer
