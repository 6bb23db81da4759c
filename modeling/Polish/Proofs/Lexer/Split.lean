import Polish.Lexer.Basic

/-!
# Splits of a text into words

A `Word` is a token as it is written, and a `Piece` is a word with the white space after it. A `Split` is white
space and then pieces whose words stand in an order that makes sense: every word says with `after` what may come
next. A split determines its text (`source`) and a list of tokens (`tokens`).

Nothing here reads text. The text of a split has one split only (`Split.source_injective`, with the reader of
`Polish.Lexer`), so the tokens of a split are the tokens of its text.
-/

namespace Polish.Lexer

open Text (width)

/-! ## White space -/

theorem not_isSpace_of_numeric {c : Char} (numeric : c.isDigit ∨ c = '.') : isSpace c = false := by
  rcases numeric with digit | rfl
  · simp only [isSpace, Bool.or_eq_false_iff, beq_eq_false_iff_ne]
    refine ⟨⟨⟨?_, ?_⟩, ?_⟩, ?_⟩ <;> rintro rfl <;> simp at digit
  · rfl

theorem blank_nil : ∀ c ∈ ([] : List Char), isSpace c := List.forall_mem_nil _

/-- White space ends where anything else begins. -/
theorem blank_append_inj {a b r r' : List Char} (blankA : ∀ c ∈ a, isSpace c) (blankB : ∀ c ∈ b, isSpace c)
    (headR : ∀ c ∈ r.head?, isSpace c = false) (headR' : ∀ c ∈ r'.head?, isSpace c = false)
    (same : a ++ r = b ++ r') : a = b ∧ r = r' := by
  induction a generalizing b with
  | nil =>
    cases b with
    | nil => exact ⟨rfl, same⟩
    | cons d b =>
      rw [List.nil_append] at same
      have := headR d (by simp [same])
      simp [blankB d List.mem_cons_self] at this
  | cons c a ih =>
    cases b with
    | nil =>
      rw [List.nil_append] at same
      have := headR' c (by simp [← same])
      simp [blankA c List.mem_cons_self] at this
    | cons d b =>
      obtain ⟨rfl, rest⟩ := List.cons.inj same
      obtain ⟨rfl, rfl⟩ := ih (fun e member => blankA e (List.mem_cons_of_mem _ member))
        (fun e member => blankB e (List.mem_cons_of_mem _ member)) rest
      exact ⟨rfl, rfl⟩

/-! ## The text of numbers -/

/-- The text of a number without its sign. -/
def unsigned : List Char → List Char
  | [] => []
  | c :: rest => if c = '+' ∨ c = '-' then rest else c :: rest

/-- The text of a number without a plus in front. -/
def literalOf : List Char → List Char
  | [] => []
  | c :: rest => if c = '+' then rest else c :: rest

/-- Digits and a point, at most one, behind an optional sign; something has to be there. -/
structure IsNumber (text : List Char) : Prop where
  nonempty : text ≠ []
  body : ∀ c ∈ unsigned text, c.isDigit ∨ c = '.'
  onePoint : (unsigned text).count '.' ≤ 1

theorem unsigned_append {text : List Char} (nonempty : text ≠ []) (more : List Char) :
    unsigned (text ++ more) = unsigned text ++ more := by
  obtain ⟨c, rest, rfl⟩ := List.exists_cons_of_ne_nil nonempty
  simp only [List.cons_append, unsigned]
  split
  · rfl
  · rfl

theorem literalOf_append {text : List Char} (nonempty : text ≠ []) (more : List Char) :
    literalOf (text ++ more) = literalOf text ++ more := by
  obtain ⟨c, rest, rfl⟩ := List.exists_cons_of_ne_nil nonempty
  simp only [List.cons_append, literalOf]
  split
  · rfl
  · rfl

/-- A sign is no point, so the literal has the points of the body. -/
theorem mem_literalOf_point {text : List Char} : '.' ∈ literalOf text ↔ '.' ∈ unsigned text := by
  cases text with
  | nil => rfl
  | cons c rest =>
    by_cases plus : c = '+'
    · simp [literalOf, unsigned, plus]
    · by_cases minus : c = '-'
      · simp [literalOf, unsigned, minus]
      · simp [literalOf, unsigned, plus, minus]

/-- A digit or a first point extends the text of a number. -/
theorem IsNumber.push {text : List Char} (number : IsNumber text) {c : Char} (numeric : c.isDigit ∨ c = '.')
    (point : c = '.' → '.' ∉ literalOf text) : IsNumber (text ++ [c]) := by
  have more := unsigned_append number.nonempty [c]
  refine ⟨by simp, ?_, ?_⟩
  · intro d member
    rw [more] at member
    rcases List.mem_append.mp member with old | new
    · exact number.body d old
    · rw [List.mem_singleton.mp new]
      exact numeric
  · rw [more, List.count_append]
    have one := number.onePoint
    by_cases dot : c = '.'
    · have none := point dot
      rw [mem_literalOf_point, ← List.count_eq_zero] at none
      simp [none, dot]
    · simpa [List.count_singleton, dot] using one

/-- The beginning of a number is a number. -/
theorem IsNumber.front {text more : List Char} (number : IsNumber (text ++ more)) (nonempty : text ≠ []) :
    IsNumber text := by
  have body := number.body
  have onePoint := number.onePoint
  rw [unsigned_append nonempty] at body onePoint
  refine ⟨nonempty, ?_, ?_⟩
  · intro c member
    exact body c (List.mem_append_left more member)
  · rw [List.count_append] at onePoint
    omega

/-- A digit or a point on its own is a number. -/
theorem isNumber_singleton {c : Char} (numeric : c.isDigit ∨ c = '.') : IsNumber [c] := by
  have unsignedText : unsigned [c] = [c] := by
    have unsigned : ¬ (c = '+' ∨ c = '-') := by
      rintro (rfl | rfl)
      · simp at numeric
      · simp at numeric
    simp [Lexer.unsigned, unsigned]
  refine ⟨by simp, ?_, ?_⟩
  · intro d member
    rw [unsignedText] at member
    rw [List.mem_singleton.mp member]
    exact numeric
  · rw [unsignedText, List.count_singleton]
    split
    · exact Nat.le_refl 1
    · exact Nat.zero_le 1

/-- A sign on its own is a number that still lacks its digits. -/
theorem isNumber_sign {c : Char} (sign : c = '+' ∨ c = '-') : IsNumber [c] := by
  have empty : unsigned [c] = [] := by simp [unsigned, sign]
  refine ⟨by simp, ?_, ?_⟩
  · simp [empty]
  · simp [empty]

/-! ## Words and their order -/

/-- A token as it is written. -/
inductive Word where
  | number (text : List Char)
  | openParen
  | closeParen
  | operator (op : Operator)
deriving DecidableEq

/-- What may come next. -/
inductive Expected where
  /-- A number or an opening parenthesis. -/
  | operand
  /-- An operator or a closing parenthesis. -/
  | operator
  /-- A closing parenthesis only. -/
  | close
deriving DecidableEq

namespace Word

/-- How the word is written. -/
def text : Word → List Char
  | number text => text
  | openParen => ['(']
  | closeParen => [')']
  | operator op => [op.symbol]

/-- Whether the word is written as words of its kind are. -/
def WellFormed : Word → Prop
  | number text => IsNumber text
  | openParen | closeParen | operator _ => True

/-- What may come after the word. -/
def after : Word → Expected
  | number text => if text = ['+'] ∨ text = ['-'] then .close else .operator
  | closeParen => .operator
  | openParen | operator _ => .operand

/-- The number with a text; `spaced` says whether white space follows. -/
def numeral (spaced : Bool) (text : List Char) : Numeral where
  literal := .ofList (literalOf text)
  hasPoint := (literalOf text).contains '.'
  trailingSpace := spaced
  value? := none

/-- What the token of the word is. -/
def kind (spaced : Bool) : Word → Token.Kind
  | number text => .number (numeral spaced text)
  | openParen => .openParen
  | closeParen => .closeParen
  | operator op => .operator op

/-- The token of the word when it is written at a byte offset. -/
def token (offset : Nat) (spaced : Bool) (word : Word) : Token := ⟨offset, word.kind spaced, .ofList word.text⟩

end Word

/-- Whether a word may come where that is expected. -/
def Expected.Admits : Expected → Word → Prop
  | operand, .number _ | operand, .openParen => True
  | operator, .operator _ | operator, .closeParen => True
  | close, .closeParen => True
  | _, _ => False

@[simp] theorem Expected.admits_number {e : Expected} {text : List Char} :
    e.Admits (.number text) ↔ e = .operand := by
  cases e <;> simp [Admits]

@[simp] theorem Expected.admits_openParen {e : Expected} : e.Admits .openParen ↔ e = .operand := by
  cases e <;> simp [Admits]

@[simp] theorem Expected.admits_operator {e : Expected} {op : Operator} :
    e.Admits (.operator op) ↔ e = .operator := by
  cases e <;> simp [Admits]

@[simp] theorem Expected.admits_closeParen {e : Expected} : e.Admits .closeParen ↔ e ≠ .operand := by
  cases e <;> simp [Admits]

/-- Whether each word may come after the one before it. -/
def InOrder : Expected → List Word → Prop
  | _, [] => True
  | expected, word :: rest => expected.Admits word ∧ InOrder word.after rest

/-- What may come after all the words. -/
def afterAll : Expected → List Word → Expected
  | expected, [] => expected
  | _, word :: rest => afterAll word.after rest

theorem inOrder_append {expected : Expected} {front back : List Word} :
    InOrder expected (front ++ back) ↔ InOrder expected front ∧ InOrder (afterAll expected front) back := by
  induction front generalizing expected with
  | nil => simp [InOrder, afterAll]
  | cons word rest ih => simp [InOrder, afterAll, ih, and_assoc]

theorem afterAll_append {expected : Expected} {front back : List Word} :
    afterAll expected (front ++ back) = afterAll (afterAll expected front) back := by
  induction front generalizing expected with
  | nil => rfl
  | cons word rest ih => exact ih

/-- No word begins with white space. -/
theorem Word.exists_text {word : Word} (wellFormed : word.WellFormed) :
    ∃ c rest, word.text = c :: rest ∧ isSpace c = false := by
  cases word with
  | number text =>
    obtain ⟨c, rest, rfl⟩ := List.exists_cons_of_ne_nil wellFormed.nonempty
    refine ⟨c, rest, rfl, ?_⟩
    by_cases sign : c = '+' ∨ c = '-'
    · rcases sign with rfl | rfl
      · rfl
      · rfl
    · have body := wellFormed.body c (by simp [unsigned, sign])
      exact not_isSpace_of_numeric body
  | openParen => exact ⟨'(', [], rfl, rfl⟩
  | closeParen => exact ⟨')', [], rfl, rfl⟩
  | operator op => exact ⟨op.symbol, [], rfl, by cases op <;> rfl⟩

/-! ## Pieces and splits -/

/-- A word and the white space after it. -/
structure Piece where
  word : Word
  space : List Char
  wellFormed : word.WellFormed
  blank : ∀ c ∈ space, isSpace c

namespace Piece

/-- How the piece is written. -/
def source (p : Piece) : List Char := p.word.text ++ p.space

/-- The token of the piece when it is written at a byte offset. -/
def token (offset : Nat) (p : Piece) : Token := p.word.token offset !p.space.isEmpty

/-- A word that nothing follows. -/
def ofWord (word : Word) (wellFormed : word.WellFormed) : Piece := ⟨word, [], wellFormed, blank_nil⟩

theorem source_ofWord (word : Word) (wellFormed : word.WellFormed) : (ofWord word wellFormed).source = word.text := by
  simp [source, ofWord]

/-- A number that nothing follows. -/
def number (text : List Char) (isNumber : IsNumber text) : Piece := ofWord (.number text) isNumber

theorem source_number (text : List Char) (isNumber : IsNumber text) : (number text isNumber).source = text :=
  source_ofWord (.number text) isNumber

/-- The piece with one more blank. -/
def addBlank (p : Piece) {c : Char} (blank : isSpace c) : Piece where
  word := p.word
  space := p.space ++ [c]
  wellFormed := p.wellFormed
  blank d member := by
    rcases List.mem_append.mp member with old | new
    · exact p.blank d old
    · exact List.mem_singleton.mp new ▸ blank

theorem source_addBlank (p : Piece) {c : Char} (blank : isSpace c) : (p.addBlank blank).source = p.source ++ [c] := by
  simp [source, addBlank]

end Piece

/-- How pieces are written in a row. -/
def sourceOf (pieces : List Piece) : List Char := pieces.flatMap Piece.source

/-- The tokens of pieces that are written from a byte offset on. -/
def tokensFrom : Nat → List Piece → List Token
  | _, [] => []
  | offset, p :: rest => p.token offset :: tokensFrom (offset + width p.source) rest

@[simp] theorem sourceOf_nil : sourceOf [] = [] := rfl

@[simp] theorem sourceOf_cons (p : Piece) (rest : List Piece) : sourceOf (p :: rest) = p.source ++ sourceOf rest := rfl

@[simp] theorem sourceOf_append (front back : List Piece) :
    sourceOf (front ++ back) = sourceOf front ++ sourceOf back := by
  simp [sourceOf]

/-- Pieces in a row do not begin with white space. -/
theorem head_sourceOf (pieces : List Piece) : ∀ c ∈ (sourceOf pieces).head?, isSpace c = false := by
  intro c head
  cases pieces with
  | nil => simp at head
  | cons p rest =>
    obtain ⟨d, more, text, solid⟩ := Word.exists_text p.wellFormed
    simp only [sourceOf_cons, Piece.source, text, List.cons_append, List.head?_cons, Option.mem_def,
      Option.some.injEq] at head
    exact head ▸ solid

theorem tokensFrom_append (offset : Nat) (front back : List Piece) :
    tokensFrom offset (front ++ back) =
      tokensFrom offset front ++ tokensFrom (offset + width (sourceOf front)) back := by
  induction front generalizing offset with
  | nil => simp [tokensFrom]
  | cons p rest ih => simp [tokensFrom, ih, Nat.add_assoc]

@[simp] theorem tokensFrom_eq_nil {offset : Nat} {pieces : List Piece} :
    tokensFrom offset pieces = [] ↔ pieces = [] := by
  cases pieces with
  | nil => simp [tokensFrom]
  | cons p rest => simp [tokensFrom]

/-- White space and then pieces whose words are in order. -/
structure Split where
  lead : List Char
  pieces : List Piece
  blank : ∀ c ∈ lead, isSpace c
  inOrder : InOrder .operand (pieces.map Piece.word)

namespace Split

/-- How the split is written. -/
def source (s : Split) : List Char := s.lead ++ sourceOf s.pieces

/-- The tokens of the split, each with its byte offset. -/
def tokens (s : Split) : List Token := tokensFrom (width s.lead) s.pieces

/-- What may come after the split. -/
def expected (s : Split) : Expected := afterAll .operand (s.pieces.map Piece.word)

/-! ## Longer splits -/

/-- The split with one more blank in front. -/
def addBlank (s : Split) {c : Char} (blank : isSpace c) : Split where
  lead := s.lead ++ [c]
  pieces := s.pieces
  blank d member := by
    rcases List.mem_append.mp member with old | new
    · exact s.blank d old
    · exact List.mem_singleton.mp new ▸ blank
  inOrder := s.inOrder

/-- The split with one more piece. -/
def snoc (s : Split) (p : Piece) (admitted : s.expected.Admits p.word) : Split where
  lead := s.lead
  pieces := s.pieces ++ [p]
  blank := s.blank
  inOrder := by
    rw [List.map_append, inOrder_append]
    exact ⟨s.inOrder, admitted, trivial⟩

@[simp] theorem source_snoc (s : Split) (p : Piece) (admitted : s.expected.Admits p.word) :
    (s.snoc p admitted).source = s.source ++ p.source := by
  simp [source, snoc]

@[simp] theorem tokens_snoc (s : Split) (p : Piece) (admitted : s.expected.Admits p.word) :
    (s.snoc p admitted).tokens = s.tokens ++ [p.token (width s.source)] := by
  simp [tokens, snoc, tokensFrom_append, tokensFrom, source]

@[simp] theorem expected_snoc (s : Split) (p : Piece) (admitted : s.expected.Admits p.word) :
    (s.snoc p admitted).expected = p.word.after := by
  simp [expected, snoc, afterAll_append, afterAll]

/-- A split has no pieces, or it is a split with one piece more. -/
theorem pieces_eq_nil_or_snoc (s : Split) :
    s.pieces = [] ∨ ∃ (before : Split) (p : Piece) (admitted : before.expected.Admits p.word),
      s = before.snoc p admitted := by
  obtain ⟨lead, pieces, blank, inOrder⟩ := s
  rcases List.eq_nil_or_concat pieces with none | ⟨front, p, some⟩
  · exact .inl none
  · rw [List.concat_eq_append] at some
    subst some
    have parts := inOrder
    rw [List.map_append, inOrder_append] at parts
    obtain ⟨front', admitted, _⟩ := parts
    exact .inr ⟨⟨lead, front, blank, front'⟩, p, admitted, rfl⟩

end Split

end Polish.Lexer
