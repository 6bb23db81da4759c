import Mathlib.Data.List.Forall2
import Polish.ShuntingYard.Basic

/-!
# Reordering looks at kinds only

Two rows of tokens `Corresponds` if they agree, token by token, in everything but the texts, the notes on white space
and the offsets, and the offsets are related in some way. Such rows are taken in alike: both yards go through
corresponding states, and if a token is refused then so is its counterpart, for the same cause. No step looks at an
offset, so the relation between the offsets is arbitrary; it only tells where an error is reported.
-/

namespace Polish

/-! ## Tokens of the same kind -/

/-- The same number, but for the note on white space. -/
structure Numeral.Same (m n : Numeral) : Prop where
  literal : m.literal = n.literal
  hasPoint : m.hasPoint = n.hasPoint
  value? : m.value? = n.value?

/-- The same kind of token, but for the note on white space behind a number. -/
inductive Token.Kind.Same : Token.Kind → Token.Kind → Prop where
  | number {m n : Numeral} (numeral : m.Same n) : Same (.number m) (.number n)
  | openParen : Same .openParen .openParen
  | closeParen : Same .closeParen .closeParen
  | operator (op : Operator) : Same (.operator op) (.operator op)

/-- Tokens of the same kind whose offsets are related by `P`. -/
structure Token.Corresponds (P : Nat → Nat → Prop) (a b : Token) : Prop where
  kind : a.kind.Same b.kind
  offset : P a.offset b.offset

namespace Token

@[refl] theorem Kind.Same.refl (kind : Kind) : kind.Same kind := by
  cases kind with
  | number n => exact .number ⟨rfl, rfl, rfl⟩
  | openParen => exact .openParen
  | closeParen => exact .closeParen
  | operator op => exact .operator op

theorem Kind.Same.trans {k l m : Kind} (first : k.Same l) (second : l.Same m) : k.Same m := by
  cases first with
  | number one =>
    cases second with
    | number two =>
      exact .number ⟨one.literal.trans two.literal, one.hasPoint.trans two.hasPoint, one.value?.trans two.value?⟩
  | openParen => exact second
  | closeParen => exact second
  | operator op => exact second

theorem Kind.Same.label_eq {k l : Kind} (same : k.Same l) : k.label = l.label := by
  cases same with
  | number numeral => simp only [label, numeral.value?, numeral.literal]
  | openParen => rfl
  | closeParen => rfl
  | operator op => rfl

/-- A token marked as followed by white space is of the same kind. -/
theorem same_kind_markSpace (t : Token) : t.kind.Same t.markSpace.kind := by
  unfold markSpace
  split
  · next n kind =>
    rw [kind]
    exact .number ⟨rfl, rfl, rfl⟩
  · exact .refl _

namespace Corresponds

variable {P : Nat → Nat → Prop} {a b : Token}

theorem trace_eq (corresponds : a.Corresponds P b) : a.trace = b.trace := by
  rw [trace, trace, corresponds.kind.label_eq]

theorem precedence_eq (corresponds : a.Corresponds P b) : a.precedence = b.precedence := by
  obtain ⟨offset, kind, text⟩ := a
  obtain ⟨offset', kind', text'⟩ := b
  cases corresponds.kind <;> rfl

theorem isCaret_eq (corresponds : a.Corresponds P b) : a.isCaret = b.isCaret := by
  obtain ⟨offset, kind, text⟩ := a
  obtain ⟨offset', kind', text'⟩ := b
  cases corresponds.kind <;> rfl

end Corresponds

/-- Corresponding tokens have the same trace forms. -/
theorem traceAll_eq {P : Nat → Nat → Prop} {as bs : List Token} (corresponds : List.Forall₂ (Corresponds P) as bs) :
    traceAll as = traceAll bs := by
  have traces : as.map trace = bs.map trace := by
    induction corresponds with
    | nil => rfl
    | cons first more ih => rw [List.map_cons, List.map_cons, first.trace_eq, ih]
  rw [traceAll, traceAll, traces]

end Token

theorem Numeral.Same.evaluate_eq {m n : Numeral} (same : m.Same n) : m.evaluate = n.evaluate := by
  rw [evaluate, evaluate, same.literal]

/-! ## Verdicts -/

/-- Both are accepted, with results related by `Q`, or both are refused for the same cause, at offsets related by
`P`. -/
inductive SameVerdict {α β : Type} (P : Nat → Nat → Prop) (Q : α → β → Prop) :
    Except SyntaxError α → Except SyntaxError β → Prop where
  | accepted {x : α} {y : β} (results : Q x y) : SameVerdict P Q (.ok x) (.ok y)
  | refused (cause : SyntaxError.Cause) {first second : Nat} (offsets : P first second) :
      SameVerdict P Q (.error ⟨cause, first⟩) (.error ⟨cause, second⟩)

theorem SameVerdict.bind {α β γ δ : Type} {P : Nat → Nat → Prop} {Q : α → β → Prop} {R : γ → δ → Prop}
    {x : Except SyntaxError α} {y : Except SyntaxError β} {f : α → Except SyntaxError γ} {g : β → Except SyntaxError δ}
    (verdict : SameVerdict P Q x y) (later : ∀ a b, Q a b → SameVerdict P R (f a) (g b)) :
    SameVerdict P R (x.bind f) (y.bind g) := by
  cases verdict with
  | accepted results => exact later _ _ results
  | refused cause offsets => exact .refused cause offsets

namespace ShuntingYard

open Token

/-- Related lists are cut at the same place by tests that agree on related members. -/
theorem forall₂_span {R : Token → Token → Prop} {p q : Token → Bool} {as bs : List Token}
    (related : List.Forall₂ R as bs) (agree : ∀ a b, R a b → p a = q b) :
    List.Forall₂ R (as.takeWhile p) (bs.takeWhile q) ∧ List.Forall₂ R (as.dropWhile p) (bs.dropWhile q) := by
  induction related with
  | nil => exact ⟨.nil, .nil⟩
  | @cons a b as bs first more ih =>
    have test := agree a b first
    cases passes : q b with
    | true =>
      rw [passes] at test
      rw [List.takeWhile_cons_of_pos test, List.takeWhile_cons_of_pos passes, List.dropWhile_cons_of_pos test,
        List.dropWhile_cons_of_pos passes]
      exact ⟨.cons first ih.1, ih.2⟩
    | false =>
      rw [passes] at test
      rw [List.takeWhile_cons_of_neg (by simp [test]), List.takeWhile_cons_of_neg (by simp [passes]),
        List.dropWhile_cons_of_neg (by simp [test]), List.dropWhile_cons_of_neg (by simp [passes])]
      exact ⟨.nil, .cons first more⟩

/-- States whose tokens correspond. -/
structure State.Corresponds (P : Nat → Nat → Prop) (s t : State) : Prop where
  waiting : List.Forall₂ (Token.Corresponds P) s.waiting t.waiting
  output : List.Forall₂ (Token.Corresponds P) s.output t.output

section

variable {P : Nat → Nat → Prop} {a b : Token} {as bs : List Token} {s t : State}

theorem opens_eq (corresponds : a.Corresponds P b) : opens a = opens b := by
  obtain ⟨offset, kind, text⟩ := a
  obtain ⟨offset', kind', text'⟩ := b
  cases corresponds.kind <;> rfl

theorem releases_eq {top top' : Token} (arriving : a.Corresponds P b) (waiting : top.Corresponds P top') :
    releases a top = releases b top' := by
  rw [releases, releases, arriving.precedence_eq, waiting.precedence_eq, arriving.isCaret_eq]

namespace State.Corresponds

theorem start : Corresponds P ⟨[], []⟩ ⟨[], []⟩ := ⟨.nil, .nil⟩

theorem sendOperator (states : s.Corresponds P t) (tokens : a.Corresponds P b) :
    (s.sendOperator a).Corresponds P (t.sendOperator b) := by
  obtain ⟨released, kept⟩ := forall₂_span states.waiting fun top top' corresponds => releases_eq tokens corresponds
  exact ⟨.cons tokens kept, List.rel_append (List.rel_reverse released) states.output⟩

/-- Groups are closed alike: a parenthesis waits in both states or in neither. -/
theorem closeGroup (states : s.Corresponds P t) :
    Option.Rel (State.Corresponds P) s.closeGroup? t.closeGroup? := by
  have agree : ∀ a b : Token, a.Corresponds P b → (!opens a) = !opens b := by
    intro a b corresponds
    rw [opens_eq corresponds]
  obtain ⟨released, rest⟩ := forall₂_span states.waiting agree
  unfold State.closeGroup?
  generalize s.waiting.dropWhile (!opens ·) = first at rest ⊢
  generalize t.waiting.dropWhile (!opens ·) = second at rest ⊢
  cases rest with
  | nil => exact .none
  | cons opening outer => exact .some ⟨outer, List.rel_append (List.rel_reverse released) states.output⟩

/-- Corresponding tokens have the same effect, or are refused for the same cause. -/
theorem step (states : s.Corresponds P t) (tokens : a.Corresponds P b) :
    SameVerdict P (State.Corresponds P) (s.step a) (t.step b) := by
  obtain ⟨offset, kind, text⟩ := a
  obtain ⟨offset', kind', text'⟩ := b
  obtain ⟨same, offsets⟩ := tokens
  cases same with
  | @number m n numeral =>
    simp only [State.step, numeral.evaluate_eq]
    cases n.evaluate with
    | error cause => exact .refused cause offsets
    | ok x =>
      have evaluated : Numeral.Same { m with value? := some x } { n with value? := some x } :=
        ⟨numeral.literal, numeral.hasPoint, rfl⟩
      exact .accepted ⟨states.waiting, .cons ⟨.number evaluated, offsets⟩ states.output⟩
  | openParen => exact .accepted ⟨.cons ⟨.openParen, offsets⟩ states.waiting, states.output⟩
  | closeParen =>
    have groups := states.closeGroup
    simp only [State.step]
    generalize s.closeGroup? = first at groups ⊢
    generalize t.closeGroup? = second at groups ⊢
    cases groups with
    | none => exact .refused .unmatchedClose offsets
    | some outer => exact .accepted outer
  | operator op => exact .accepted (states.sendOperator ⟨.operator op, offsets⟩)

/-- Corresponding rows are taken in alike. -/
theorem run (states : s.Corresponds P t) (tokens : List.Forall₂ (Token.Corresponds P) as bs) :
    SameVerdict P (State.Corresponds P) (s.run as) (t.run bs) := by
  induction tokens generalizing s t with
  | nil => exact .accepted states
  | cons first more ih =>
    rw [State.run, State.run, Fold.cons, Fold.cons]
    exact (states.step first).bind fun _ _ next => ih next

/-- At the end the same parenthesis was not closed, or none. -/
theorem finish (states : s.Corresponds P t) :
    SameVerdict P (List.Forall₂ (Token.Corresponds P)) s.finish t.finish := by
  have opened : List.Forall₂ (Token.Corresponds P) (s.waiting.filter opens) (t.waiting.filter opens) := by
    refine List.rel_filter ?_ states.waiting
    intro a b corresponds
    simp only [opens_eq corresponds]
  unfold State.finish
  rw [← List.head?_filter, ← List.head?_filter]
  generalize s.waiting.filter opens = first at opened ⊢
  generalize t.waiting.filter opens = second at opened ⊢
  cases opened with
  | nil => exact .accepted (List.rel_append (List.rel_reverse states.waiting) states.output)
  | cons token outer => exact .refused .unmatchedOpen token.offset

end State.Corresponds

/-- Corresponding rows are reordered alike. -/
theorem sameVerdict_toPrefix (tokens : List.Forall₂ (Token.Corresponds P) as bs) :
    SameVerdict P (List.Forall₂ (Token.Corresponds P)) (toPrefix as) (toPrefix bs) :=
  (State.Corresponds.start.run tokens).bind fun _ _ states => states.finish

end

end ShuntingYard

end Polish
