import Mathlib.Data.List.Infix
import Polish.CommandLine
import Polish.Proofs.Expression.Correspondence
import Polish.Proofs.Expression.Offsets
import Polish.Proofs.Lexer.WhiteSpace

/-!
# Words on the command line

The flags have letters and an expression that is read has none, so every part of such an expression is taken as a word;
only `--` has to stand behind another `--`. The words are joined with a blank between them.

White space that is put into an expression matters within a number only. A blank where two words meet is white space put
into the expression; the blanks are put in one after the other, the first one first, so that the places of the others
move on by as much as the text in front of them grows.
-/

namespace Polish.CommandLine

open Expression Lexer

/-! ## Arguments without letters -/

theorem Flag.ofName?_eq_none {name : String} (noLetter : ∀ c ∈ name.toList, c.isAlpha = false) :
    ofName? name = none := by
  unfold ofName?
  split
  case h_6 => rfl
  all_goals simp at noLetter

theorem Flag.ofLetter?_eq_none {c : Char} (noLetter : c.isAlpha = false) : ofLetter? c = none := by
  unfold ofLetter?
  split
  case h_5 => rfl
  all_goals simp at noLetter

/-- Only `--` is no word among the texts without letters. -/
theorem Argument.ofText_of_noLetter {text : String} (noLetter : ∀ c ∈ text.toList, c.isAlpha = false)
    (other : text ≠ "--") : ofText text = .word text := by
  unfold ofText
  split
  · next chars => exact absurd (String.toList_inj.mp chars) other
  · next long _ chars =>
    rw [chars] at noLetter
    have noName : Flag.ofName? (.ofList (long.takeWhile (· != '='))) = none := by
      apply Flag.ofName?_eq_none
      intro c member
      rw [String.toList_ofList] at member
      have inLong := (List.takeWhile_prefix (· != '=')).subset member
      exact noLetter c (by simp [inLong])
    rw [noName]
  · next letter letters _ _ chars =>
    rw [chars] at noLetter
    have noFlag := Flag.ofLetter?_eq_none (noLetter letter (by simp))
    simp [noFlag]
  · rfl

/-- Arguments that are words are met one after the other. -/
theorem Options.read_of_words {words : List String} (areWords : ∀ word ∈ words, Argument.ofText word = .word word)
    (o : Options) : o.read words = (o.addWords words).toRequest := by
  induction words generalizing o with
  | nil => simp [read, addWords]
  | cons word rest ih =>
    obtain ⟨first, later⟩ := List.forall_mem_cons.mp areWords
    rw [read, first]
    simp only [ih later, addWords, List.append_assoc, List.singleton_append]

theorem Request.ofArguments_of_words {words : List String}
    (areWords : ∀ word ∈ words, Argument.ofText word = .word word) : ofArguments words = .convert { words } := by
  rw [ofArguments, Options.read_of_words areWords]
  rfl

/-- Behind `--` everything is a word. -/
theorem Request.ofArguments_endOfFlags (words : List String) : ofArguments ("--" :: words) = .convert { words } := rfl

/-- Words are joined with blanks. -/
theorem Options.expression_of_words {o : Options} (some : o.words ≠ []) : o.expression = " ".intercalate o.words :=
  if_neg some

/-! ## Expressions cut into words -/

section

variable {expression : String} {tokens : List Token} {words : List String}

/-- Words of an expression that is read are taken as words. -/
theorem ofText_of_tokenize (read : tokenize expression = .ok tokens) (cut : String.join words = expression)
    (other : "--" ∉ words) : ∀ word ∈ words, Argument.ofText word = .word word := by
  intro word member
  apply Argument.ofText_of_noLetter
  · intro c inWord
    apply isAlpha_of_tokenize read c
    rw [← cut, String.toList_join]
    exact List.mem_flatMap.mpr ⟨word, member, inWord⟩
  · rintro rfl
    exact other member

/-- No number of the tokens goes on from one word to the next, when the words stand behind some text. -/
def Bounded (front : String) (words : List String) (tokens : List Token) : Prop :=
  ∀ before ∈ words.inits, ∀ t ∈ tokens, ¬ t.Covers (front ++ String.join before).utf8ByteSize

instance (front : String) : Decidable (Bounded front words tokens) :=
  inferInstanceAs (Decidable (∀ before ∈ words.inits, ∀ t ∈ tokens, _))

/-- A blank between two words moves the tokens behind it, and then the later words are bounded again. -/
theorem Bounded.next {front first : String} (bounded : Bounded front (first :: words) tokens) :
    Bounded (front ++ first ++ " ") words
      (tokens.map (Token.makeRoom (front ++ first).utf8ByteSize " ".utf8ByteSize)) := by
  intro before isPrefix t member
  obtain ⟨old, inTokens, rfl⟩ := List.mem_map.mp member
  have here := bounded [first] (by simp [List.mem_inits]) old inTokens
  have later := bounded (first :: before) (by simpa using isPrefix) old inTokens
  rw [String.join_cons, ← String.append_assoc] at later
  have moved : (front ++ first ++ " " ++ String.join before).utf8ByteSize =
      (front ++ first ++ String.join before).utf8ByteSize + " ".utf8ByteSize := by
    simp only [String.utf8ByteSize_append]
    omega
  rw [moved]
  refine Token.not_covers_makeRoom (by simpa using here) later ?_
  simp only [String.utf8ByteSize_append]
  omega

/-- Words that no number spans may be written with blanks between them. -/
theorem exists_tokenize_intercalate {front : String} (some : words ≠ [])
    (read : tokenize (front ++ String.join words) = .ok tokens) (bounded : Bounded front words tokens) :
    ∃ spaced, tokenize (front ++ " ".intercalate words) = .ok spaced ∧
      List.Forall₂ (fun a b : Token => a.kind.Same b.kind) tokens spaced := by
  induction words generalizing front tokens with
  | nil => exact absurd rfl some
  | cons first rest ih =>
    cases rest with
    | nil =>
      rw [String.intercalate_singleton]
      refine ⟨tokens, by simpa using read, ?_⟩
      exact List.forall₂_same.mpr fun t _ => .refl t.kind
    | cons second rest =>
      rw [String.join_cons, ← String.append_assoc] at read
      have blank : ∀ c ∈ " ".toList, isSpace c := by simp [isSpace]
      have free : ∀ t ∈ tokens, ¬ t.Covers (front ++ first).utf8ByteSize := by
        intro t member
        simpa using bounded [first] (by simp) t member
      -- The first blank goes in now. The other words then stand behind a longer text, with tokens that have moved on.
      have read' := tokenize_insert_of_free read (by decide) blank free
      obtain ⟨spaced, readAll, same⟩ := ih (by simp) read' bounded.next
      refine ⟨spaced, ?_, ?_⟩
      · rw [String.intercalate_cons_cons, ← String.append_assoc, ← String.append_assoc]
        exact readAll
      · rw [List.forall₂_map_left_iff] at same
        refine same.imp ?_
        intro old new kinds
        exact (Token.corresponds_makeRoom _ _ old).kind.trans kinds

/-! ## White space at any place -/

/-- Every byte offset into an expression that is read is a place between two characters. -/
theorem exists_append_of_place (read : tokenize expression = .ok tokens) {place : Nat}
    (inside : place ≤ expression.utf8ByteSize) :
    ∃ front back, expression = front ++ back ∧ front.utf8ByteSize = place := by
  have single := utf8Size_of_tokenize read
  refine ⟨.ofList (expression.toList.take place), .ofList (expression.toList.drop place), ?_, ?_⟩
  · rw [← String.ofList_append, List.take_append_drop, String.ofList_toList]
  · have long := Expression.width_of_single single
    rw [Text.width_toList] at long
    rw [Text.utf8ByteSize_ofList, Expression.width_of_single fun c member => single c (List.mem_of_mem_take member),
      List.length_take]
    omega

theorem toDiagnostic_missingOperator (c : Char) (offset : Nat) :
    SyntaxError.toDiagnostic ⟨.missingOperator c, offset⟩ =
      ⟨"expected operator but '" ++ String.singleton c ++ "' found", offset⟩ := by
  have opening : "expected operator but '" = "expected operator but " ++ "'" := by decide
  have closing : "' found" = "'" ++ " found" := by decide
  rw [opening, closing]
  unfold SyntaxError.toDiagnostic SyntaxError.Cause.message SyntaxError.aboutChar
  simp only [String.append_assoc]

/-- White space within a number is an error at the rest of the number. White space at any other place moves what
stands behind it and marks a number in front of it, and the same becomes of the expression; so it may be cut into words
anywhere but within a number. -/
theorem white_space_matters_within_numbers (read : tokenize expression = .ok tokens) :
    (∀ place ≤ expression.utf8ByteSize, ∃ front back, expression = front ++ back ∧ front.utf8ByteSize = place ∧
      ∀ space : String, space ≠ "" → (∀ c ∈ space.toList, c ∈ [' ', '\t', '\r', '\n']) →
        ((∃ t ∈ tokens, t.Covers place) →
          ∃ c e, back.toList.head? = some c ∧ tokenize (front ++ space ++ back) = .error e ∧
            e.toDiagnostic = ⟨"expected operator but '" ++ String.singleton c ++ "' found",
              place + space.utf8ByteSize⟩) ∧
        ((∀ t ∈ tokens, ¬ t.Covers place) →
          tokenize (front ++ space ++ back) = .ok (tokens.map (Token.makeRoom place space.utf8ByteSize)) ∧
          SameResult (fun before after => after = Text.shift place space.utf8ByteSize before) expression
            (front ++ space ++ back))) ∧
    ∀ words, String.join words = expression → Bounded "" words tokens →
      ("--" ∉ words → Request.ofArguments words = .convert { words }) ∧
      Request.ofArguments ("--" :: words) = .convert { words } ∧
      ∃ spaced, tokenize (Options.expression { words }) = .ok spaced ∧
        List.Forall₂ (fun a b : Token => a.kind.Same b.kind) tokens spaced ∧
        SameResult (AtSameIndex tokens spaced) expression (Options.expression { words }) := by
  constructor
  · intro place inside
    obtain ⟨front, back, rfl, rfl⟩ := exists_append_of_place read inside
    refine ⟨front, back, rfl, rfl, ?_⟩
    intro space some blank
    simp only [← Expression.isSpace_iff] at blank
    constructor
    · intro covered
      obtain ⟨c, next, failed⟩ := tokenize_insert_of_covers read some blank covered
      exact ⟨c, _, next, failed, toDiagnostic_missingOperator c _⟩
    · intro free
      have spaced := tokenize_insert_of_free read some blank free
      refine ⟨spaced, sameResult_of_corresponds read spaced ?_⟩
      rw [List.forall₂_map_right_iff, List.forall₂_same]
      intro t _
      exact t.corresponds_makeRoom _ _
  · intro words cut bounded
    have some : words ≠ [] := by
      rintro rfl
      subst cut
      cases read
    refine ⟨?_, Request.ofArguments_endOfFlags words, ?_⟩
    · intro other
      exact Request.ofArguments_of_words (ofText_of_tokenize read cut other)
    · obtain ⟨spaced, readAll, same⟩ :=
        exists_tokenize_intercalate some (by simpa [cut] using read) bounded
      rw [String.empty_append] at readAll
      rw [Options.expression_of_words some]
      exact ⟨spaced, readAll, same, sameResult_of_corresponds read readAll (corresponds_atSameIndex same)⟩

theorem white_space_matters_within_numbers_sum :
    ∃ tokens, tokenize "-1+2" = .ok tokens ∧
      (∃ front back, "-1+2" = front ++ back ∧ front.utf8ByteSize = 1 ∧
        ∃ c e, back.toList.head? = some c ∧ tokenize (front ++ " " ++ back) = .error e ∧
          e.toDiagnostic = ⟨"expected operator but '" ++ String.singleton c ++ "' found", 1 + " ".utf8ByteSize⟩) ∧
      (∃ front back, "-1+2" = front ++ back ∧ front.utf8ByteSize = 2 ∧
        tokenize (front ++ " " ++ back) = .ok (tokens.map (Token.makeRoom 2 " ".utf8ByteSize))) ∧
      Request.ofArguments ["-1", "+2"] = .convert { words := ["-1", "+2"] } ∧
      ∃ spaced, tokenize (Options.expression { words := ["-1", "+2"] }) = .ok spaced ∧
        SameResult (AtSameIndex tokens spaced) "-1+2" (Options.expression { words := ["-1", "+2"] }) := by
  have read : tokenize "-1+2" = .ok [⟨0, numeralOf "-1", "-1"⟩, ⟨2, .operator .add, "+"⟩, ⟨3, numeralOf "2", "2"⟩] := by
    decide +kernel
  obtain ⟨inserted, cut⟩ := white_space_matters_within_numbers read
  obtain ⟨front, back, text, size, within⟩ := inserted 1 (by decide)
  obtain ⟨front', back', text', size', between⟩ := inserted 2 (by decide)
  refine ⟨_, read, ⟨front, back, text, size, ?_⟩, ⟨front', back', text', size', ?_⟩, ?_⟩
  · exact (within " " (by decide) (by simp)).1 (by decide)
  · exact ((between " " (by decide) (by simp)).2 (by decide)).1
  · have bounded : Bounded "" ["-1", "+2"]
        [⟨0, numeralOf "-1", "-1"⟩, ⟨2, .operator .add, "+"⟩, ⟨3, numeralOf "2", "2"⟩] := by
      decide
    obtain ⟨words, -, spaced, readAll, -, same⟩ := cut ["-1", "+2"] (by decide) bounded
    exact ⟨words (by decide), spaced, readAll, same⟩

end

end Polish.CommandLine
