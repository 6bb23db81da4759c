import Polish.Proofs.Expression.Correspondence
import Polish.Proofs.Expression.Offsets
import Polish.Proofs.Lexer.Splice
import Polish.Proofs.Lexer.TraceText
import Polish.Proofs.Lexer.WhiteSpace

/-!
# The trace of an expression tells what becomes of it

Expressions with the same trace have tokens of the same kinds, so the same becomes of them. A number may be written with
a plus or without: its literal is the same, and so is what may come before and after it.
-/

namespace Polish

namespace Lexer

open Text (width)

/-! ## A plus in front of a number -/

/-- A literal that is no sign and begins with none is the text of the number without its sign. -/
theorem unsigned_of_literalOf {text rest : List Char} {c : Char} (number : IsNumber text)
    (literal : literalOf text = c :: rest) (noMinus : c ≠ '-') : c ≠ '+' ∧ unsigned text = c :: rest := by
  rcases @Expression.text_eq_literalOf text with plain | plus
  · obtain rfl : text = c :: rest := plain.trans literal
    have noPlus : c ≠ '+' := by
      rintro rfl
      rw [literalOf, if_pos rfl] at literal
      simpa using congrArg List.length literal
    exact ⟨noPlus, by rw [unsigned, if_neg (by simp [noPlus, noMinus])]⟩
  · have digits : unsigned text = c :: rest := by
      rw [plus, literal, unsigned, if_pos (.inl rfl)]
    refine ⟨?_, digits⟩
    rintro rfl
    have body := number.body '+' (by simp [digits])
    simp at body

/-- Both ways to write a number whose literal has no sign. -/
theorem isNumber_with_or_without_plus {text rest other : List Char} {c : Char} (number : IsNumber text)
    (literal : literalOf text = c :: rest) (noMinus : c ≠ '-')
    (written : other = c :: rest ∨ other = '+' :: c :: rest) :
    IsNumber other ∧ literalOf other = c :: rest ∧ unsigned other = c :: rest := by
  obtain ⟨noPlus, digits⟩ := unsigned_of_literalOf number literal noMinus
  have literal' : literalOf other = c :: rest := by
    rcases written with rfl | rfl
    · rw [literalOf, if_neg noPlus]
    · rw [literalOf, if_pos rfl]
  have digits' : unsigned other = c :: rest := by
    rcases written with rfl | rfl
    · rw [unsigned, if_neg (by simp [noPlus, noMinus])]
    · rw [unsigned, if_pos (.inl rfl)]
  have nonempty : other ≠ [] := by
    rintro rfl
    cases digits'
  refine ⟨⟨nonempty, ?_, ?_⟩, literal', digits'⟩
  · rw [digits', ← digits]
    exact number.body
  · rw [digits', ← digits]
    exact number.onePoint

theorem after_of_unsigned {text rest : List Char} {c : Char} (digits : unsigned text = c :: rest) :
    (Word.number text).after = .operator := by
  rw [Word.after, if_neg]
  rintro (rfl | rfl)
  · cases digits
  · cases digits

/-- A number of a split may be written in another way with the same literal. -/
theorem Split.exists_rewritten (s : Split) {before after : List Piece} {p : Piece} {text other : List Char}
    (split : s.pieces = before ++ p :: after) (number : p.word = .number text) (number' : IsNumber other)
    (literals : literalOf other = literalOf text) (same : (Word.number other).after = (Word.number text).after) :
    ∃ t : Split, t.pieces ≠ [] ∧ t.source = s.lead ++ sourceOf before ++ other ++ (p.space ++ sourceOf after) ∧
      t.tokens.map Token.kind = s.tokens.map Token.kind := by
  obtain ⟨t, lead, pieces⟩ := s.exists_exchange (q := ⟨.number other, p.space, number', p.blank⟩) split
    (by simp [number]) (by rw [number, same])
  refine ⟨t, by simp [pieces], ?_, ?_⟩
  · simp [Split.source, lead, pieces, Piece.source, Word.text]
  · have kind (offset offset' : Nat) : (Piece.token offset ⟨.number other, p.space, number', p.blank⟩).kind =
        (p.token offset').kind := by
      simp [Piece.token, Word.token, Word.kind, Word.numeral, number, literals]
    rw [Split.tokens, Split.tokens, lead, pieces, split, tokensFrom_split, tokensFrom_split, List.map_append,
      List.map_append, List.map_cons, List.map_cons, kind _ (width s.lead + width (sourceOf before)),
      kinds_tokensFrom _ (width s.lead + width (sourceOf before) + width p.source) after]

/-- A number may be written with a plus or without, if its literal has no sign. -/
theorem exists_tokenize_rewritten {expression : String} {tokens : List Token} {token : Token} {n : Numeral}
    (read : tokenize expression = .ok tokens) (member : token ∈ tokens) (kind : token.kind = .number n)
    (full : n.literal ≠ "") (noMinus : n.literal.toList.head? ≠ some '-') :
    ∃ front back, expression = front ++ token.text ++ back ∧ front.utf8ByteSize = token.offset ∧
      ∀ text ∈ [n.literal, "+" ++ n.literal], ∃ tokens', tokenize (front ++ text ++ back) = .ok tokens' ∧
        tokens'.map Token.kind = tokens.map Token.kind := by
  obtain ⟨s, -, source, rfl⟩ := exists_split read
  obtain ⟨earlier, later, split⟩ := List.append_of_mem member
  obtain ⟨before, p, after, pieces, -, rfl, -⟩ := exists_piece_of_tokensFrom split
  obtain ⟨chars, number, rfl⟩ := Piece.exists_number kind
  have isNumber : IsNumber chars := by
    have wellFormed := p.wellFormed
    rwa [number] at wellFormed
  obtain ⟨c, rest, literal⟩ : ∃ c rest, literalOf chars = c :: rest := by
    apply List.exists_cons_of_ne_nil
    intro none
    exact full (String.ofList_eq_empty_iff.mpr none)
  have noMinus' : c ≠ '-' := by
    rintro rfl
    simp [Word.numeral, literal] at noMinus
  -- The number is no sign alone, however it is written, so the same may come after it.
  have after_eq := after_of_unsigned (unsigned_of_literalOf isNumber literal noMinus').2
  obtain ⟨around, place⟩ := s.text_around source pieces (width s.lead + width (sourceOf before))
  refine ⟨.ofList (s.lead ++ sourceOf before), .ofList (p.space ++ sourceOf after), around, place, ?_⟩
  intro text written
  have written' : text.toList = c :: rest ∨ text.toList = '+' :: c :: rest := by
    simp only [List.mem_cons, List.not_mem_nil, or_false] at written
    rcases written with rfl | rfl
    · exact .inl (by simp [Word.numeral, literal])
    · exact .inr (by simp [Word.numeral, literal])
  obtain ⟨isNumber', literal', digits'⟩ := isNumber_with_or_without_plus isNumber literal noMinus' written'
  obtain ⟨t, some, source', kinds⟩ := s.exists_rewritten pieces number isNumber' (literal'.trans literal.symm)
    ((after_of_unsigned digits').trans after_eq.symm)
  refine ⟨t.tokens, tokenize_of_split some ?_, kinds⟩
  rw [source']
  simp

end Lexer

namespace Expression

open Lexer

theorem same_kinds_of_map_kind {as bs : List Token} (kinds : as.map Token.kind = bs.map Token.kind) :
    List.Forall₂ (fun a b : Token => a.kind.Same b.kind) as bs := by
  have equal : List.Forall₂ (fun a b : Token => a.kind = b.kind) as bs := by
    rw [← List.forall₂_map_right_iff, ← List.forall₂_map_left_iff, kinds]
    exact List.forall₂_refl _
  refine equal.imp ?_
  intro a b same
  rw [same]

/-- What becomes of an expression depends on its trace only: another expression with the same trace has tokens of the
same kinds, and the same becomes of it. So it does not matter whether a number that is not negative has a plus. -/
theorem result_of_trace {expression : String} {tokens : List Token} (read : tokenize expression = .ok tokens) :
    (∀ other tokens', tokenize other = .ok tokens' → Token.traceAll tokens = Token.traceAll tokens' →
      List.Forall₂ (fun a b : Token => a.kind.Same b.kind) tokens tokens' ∧
        SameResult (AtSameIndex tokens tokens') expression other) ∧
    ∀ token ∈ tokens, ∀ n, token.kind = .number n → n.literal ≠ "" → n.literal.toList.head? ≠ some '-' →
      ∃ front back, expression = front ++ token.text ++ back ∧ front.utf8ByteSize = token.offset ∧
        ∀ text ∈ [n.literal, "+" ++ n.literal], ∃ tokens', tokenize (front ++ text ++ back) = .ok tokens' ∧
          Token.traceAll tokens = Token.traceAll tokens' ∧
          SameResult (AtSameIndex tokens tokens') expression (front ++ text ++ back) := by
  have result (other : String) (tokens' : List Token) (read' : tokenize other = .ok tokens')
      (same : List.Forall₂ (fun a b : Token => a.kind.Same b.kind) tokens tokens') :
      SameResult (AtSameIndex tokens tokens') expression other :=
    sameResult_of_corresponds read read' (corresponds_atSameIndex same)
  constructor
  · intro other tokens' read' trace
    have same := same_kinds_of_tokenize read read' trace
    exact ⟨same, result other tokens' read' same⟩
  · intro token member n kind full noMinus
    obtain ⟨front, back, text_eq, place, rewrite⟩ := exists_tokenize_rewritten read member kind full noMinus
    refine ⟨front, back, text_eq, place, ?_⟩
    intro text written
    obtain ⟨tokens', read', kinds⟩ := rewrite text written
    have same := same_kinds_of_map_kind kinds.symm
    exact ⟨tokens', read', Token.traceAll_eq (corresponds_atSameIndex same), result _ tokens' read' same⟩

theorem result_of_trace_plus :
    ∃ tokens tokens', tokenize "+1+2" = .ok tokens ∧ tokenize "1 + +2" = .ok tokens' ∧
      SameResult (AtSameIndex tokens tokens') "+1+2" "1 + +2" ∧
      ∃ front back, "+1+2" = front ++ "+1" ++ back ∧ front.utf8ByteSize = 0 ∧
        ∃ plain, tokenize (front ++ "1" ++ back) = .ok plain ∧
          SameResult (AtSameIndex tokens plain) "+1+2" (front ++ "1" ++ back) := by
  have read : tokenize "+1+2" = .ok [⟨0, numeralOf "1", "+1"⟩, ⟨2, .operator .add, "+"⟩, ⟨3, numeralOf "2", "2"⟩] := by
    decide +kernel
  have read' : tokenize "1 + +2" = .ok [⟨0, .number { literal := "1", trailingSpace := true }, "1"⟩,
      ⟨2, .operator .add, "+"⟩, ⟨4, numeralOf "2", "+2"⟩] := by
    decide +kernel
  obtain ⟨traces, signs⟩ := result_of_trace read
  obtain ⟨-, same⟩ := traces "1 + +2" _ read' (by decide)
  obtain ⟨front, back, text, place, rewritten⟩ :=
    signs _ List.mem_cons_self { literal := "1" } rfl (by decide) (by decide)
  obtain ⟨plain, readPlain, -, result⟩ := rewritten "1" (by decide)
  exact ⟨_, _, read, read', same, front, back, text, place, plain, readPlain, result⟩

end Expression

end Polish
