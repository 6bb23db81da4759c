import Mathlib.Data.List.Chain
import Polish.Proofs.ShuntingYard.Waiting

/-!
# The stack of waiting tokens

Between any two tokens the waiting ones are operators and opening parentheses. No operator among them releases the one
right below it (`Stepped`), and from this neighbourly condition the order of a whole group follows: between two
parentheses the operators bind more and more tightly from the bottom to the top, and a power can only be the top one.
The loop by which an operator gets there compares precedences one by one (`State.takePlace`), and these are always
those of operators and opening parentheses.
-/

namespace Polish.ShuntingYard

/-! ## The loop of an arriving operator -/

/-- An arriving operator takes its place: as long as it releases the last waiting token, this one leaves. The result
comes with the pairs of precedences that were compared, that of the waiting token first. -/
def State.takePlace (arriving : Token) : (waiting output : List Token) → State × List (Int × Int)
  | [], output => (⟨[arriving], output⟩, [])
  | top :: below, output =>
    if releases arriving top then
      let (next, later) := takePlace arriving below (top :: output)
      (next, (top.precedence, arriving.precedence) :: later)
    else (⟨arriving :: top :: below, output⟩, [(top.precedence, arriving.precedence)])

section

variable {s : State} {token arriving : Token} {op : Operator}

/-- The loop does what is said of an arriving operator at once. -/
theorem takePlace_eq_sendOperator (arriving : Token) (waiting output : List Token) :
    (State.takePlace arriving waiting output).1 = State.sendOperator ⟨waiting, output⟩ arriving := by
  induction waiting generalizing output with
  | nil => rfl
  | cons top below ih =>
    rw [State.takePlace]
    split
    · next released => simp [ih, State.sendOperator, State.released, released]
    · next stays => simp [State.sendOperator, State.released, stays]

theorem step_eq_takePlace (kind : token.kind = .operator op) :
    s.step token = .ok (State.takePlace token s.waiting s.output).1 := by
  rw [takePlace_eq_sendOperator, State.step, kind]

theorem precedence_nonneg_of_waits {top : Token} (waits : top.kind = .openParen ∨ ∃ op, top.kind = .operator op) :
    0 ≤ top.precedence := by
  rcases waits with opening | ⟨op, kind⟩
  · exact Int.le_of_eq (precedence_of_openParen opening).symm
  · rw [precedence_of_operator kind]
    exact Int.natCast_nonneg _

theorem precedence_pos (kind : token.kind = .operator op) : 0 < token.precedence := by
  rw [precedence_of_operator kind]
  cases op <;> decide

/-- What is compared are precedences of waiting tokens with that of the arriving one. -/
theorem mem_of_compared {compared : Int × Int} {waiting output : List Token}
    (member : compared ∈ (State.takePlace arriving waiting output).2) :
    ∃ top ∈ waiting, compared = (top.precedence, arriving.precedence) := by
  induction waiting generalizing output with
  | nil => simp [State.takePlace] at member
  | cons top below ih =>
    rw [State.takePlace] at member
    split at member
    · rcases List.mem_cons.mp member with rfl | later
      · exact ⟨top, List.mem_cons_self, rfl⟩
      · obtain ⟨deeper, inside, rfl⟩ := ih later
        exact ⟨deeper, List.mem_cons_of_mem top inside, rfl⟩
    · exact ⟨top, List.mem_cons_self, List.mem_singleton.mp member⟩

end

/-! ## Neighbours on the stack -/

/-- No waiting operator releases the token right below it. -/
def Stepped (waiting : List Token) : Prop :=
  waiting.IsChain fun upper lower => opens upper = true ∨ ¬ releases upper lower

theorem State.Moves.stepped {s next : State} {token : Token} (moves : Moves s token next)
    (stepped : Stepped s.waiting) : Stepped next.waiting := by
  cases moves with
  | number n x kind value => exact stepped
  | openParen kind => exact stepped.cons fun below _ => .inl (opens_iff.mpr kind)
  | closeParen kind held opening outer waiting group opened =>
    rw [waiting] at stepped
    exact stepped.suffix ((List.suffix_cons opening outer).trans (List.suffix_append held _))
  | operator op kind held kept waiting released stays =>
    rw [waiting] at stepped
    exact stepped.right_of_append.cons fun below top => .inr (stays below top)

/-- Two operators of a group that wait one above the other: the lower one binds no more tightly, and it is no power. -/
def Carries (lower upper : Token) : Prop := lower.precedence ≤ upper.precedence ∧ lower.isCaret = false

theorem Carries.trans {lower middle upper : Token} (below : Carries lower middle) (above : Carries middle upper) :
    Carries lower upper :=
  ⟨Int.le_trans below.1 above.1, below.2⟩

/-- An operator that stays where another one arrives carries this one. -/
theorem carries_of_not_releases {upper lower : Token} {op other : Operator} (kind : upper.kind = .operator op)
    (kind' : lower.kind = .operator other) (stays : ¬ releases upper lower) : Carries lower upper := by
  rw [releases_iff_yieldsTo kind kind'] at stays
  rw [Carries, precedence_of_operator kind, precedence_of_operator kind', Token.isCaret, kind']
  cases op <;> cases other <;> simp_all [Operator.YieldsTo, Operator.precedence]

/-! ## Groups on the stack -/

/-- The waiting operators of one group, the last one to arrive first. -/
structure Rising (segment : List Token) : Prop where
  operators : ∀ top ∈ segment, ∃ op, top.kind = .operator op
  /-- From the bottom to the top the precedences do not decrease. -/
  precedences : (segment.reverse.map Token.precedence).Pairwise (· ≤ ·)
  onePower : segment.countP Token.isCaret ≤ 1
  /-- A power has nothing above it. -/
  powerOnTop : ∀ below ∈ segment.tail, below.isCaret = false

theorem rising_of_pairwise {segment : List Token} (operators : ∀ top ∈ segment, ∃ op, top.kind = .operator op)
    (carried : segment.Pairwise fun upper lower => Carries lower upper) : Rising segment := by
  have powerOnTop : ∀ below ∈ segment.tail, below.isCaret = false := by
    cases segment with
    | nil => simp
    | cons top rest =>
      intro below member
      exact (List.rel_of_pairwise_cons carried member).2
  refine ⟨operators, ?_, ?_, powerOnTop⟩
  · rw [List.pairwise_map, List.pairwise_reverse]
    exact carried.imp And.left
  · cases segment with
    | nil => simp
    | cons top rest =>
      have none : rest.countP Token.isCaret = 0 := by
        rw [List.countP_eq_zero]
        intro below member
        simp [powerOnTop below member]
      rw [List.countP_cons, none]
      split <;> simp

/-- Neighbours decide about a whole row of operators. -/
theorem Stepped.rising {waiting row : List Token} (stepped : Stepped waiting) (within : row <:+: waiting)
    (operators : ∀ top ∈ row, ∃ op, top.kind = .operator op) : Rising row := by
  have : IsTrans Token fun upper lower => Carries lower upper := ⟨fun _ _ _ above below => below.trans above⟩
  refine rising_of_pairwise operators (List.isChain_iff_pairwise.mp ?_)
  have inRow := List.IsChain.infix stepped within
  refine inRow.imp_of_mem_imp ?_
  intro upper lower memberUpper memberLower step
  obtain ⟨op, kind⟩ := operators upper memberUpper
  obtain ⟨other, kind'⟩ := operators lower memberLower
  have stays := step.resolve_left (by simp [opens_of_operator kind])
  exact carries_of_not_releases kind kind' stays

/-- The parts between the parentheses are rows of the stack without parentheses. -/
theorem mem_splitOnP_opens (waiting : List Token) :
    ∃ first others, waiting.splitOnP opens = first :: others ∧
      (first <+: waiting ∧ ∀ top ∈ first, opens top = false) ∧
      ∀ segment ∈ others, segment <:+: waiting ∧ ∀ top ∈ segment, opens top = false := by
  induction waiting with
  | nil => exact ⟨[], [], rfl, by simp, by simp⟩
  | cons top below ih =>
    obtain ⟨first, others, split, ⟨start, plain⟩, inside⟩ := ih
    rw [List.splitOnP_cons_eq_if_modifyHead, split]
    by_cases opening : opens top = true
    · rw [if_pos opening]
      refine ⟨[], first :: others, rfl, by simp, ?_⟩
      intro segment member
      rcases List.mem_cons.mp member with rfl | later
      · exact ⟨List.infix_cons start.isInfix, plain⟩
      · exact ⟨List.infix_cons (inside segment later).1, (inside segment later).2⟩
    · rw [if_neg opening, List.modifyHead_cons]
      refine ⟨top :: first, others, rfl, ⟨(List.prefix_cons_inj top).mpr start, ?_⟩, ?_⟩
      · exact List.forall_mem_cons.mpr ⟨Bool.not_eq_true _ ▸ opening, plain⟩
      · intro segment member
        exact ⟨List.infix_cons (inside segment member).1, (inside segment member).2⟩

theorem infix_of_mem_splitOnP {waiting segment : List Token} (member : segment ∈ waiting.splitOnP opens) :
    segment <:+: waiting ∧ ∀ top ∈ segment, opens top = false := by
  obtain ⟨first, others, split, ⟨start, plain⟩, inside⟩ := mem_splitOnP_opens waiting
  rw [split] at member
  rcases List.mem_cons.mp member with rfl | later
  · exact ⟨start.isInfix, plain⟩
  · exact inside segment later

/-! ## The stack between two tokens -/

/-- The stack of a yard that has taken in some tokens. -/
structure WellStacked (before : List Token) (s : State) : Prop where
  kinds : ∀ top ∈ s.waiting, top.kind = .openParen ∨ ∃ op, top.kind = .operator op
  segments : ∀ segment ∈ s.waiting.splitOnP opens, Rising segment
  /-- The parentheses on the stack are those of the tokens that have no partner so far, the last one on top. -/
  parentheses : LastFirst (fun token behind => token.kind = .openParen ∧ ¬ Closed behind) before
    (s.waiting.filter opens)
  /-- Whatever operator arrives, its precedence and those that it is compared with are not the `-1` of tokens that never
  wait. -/
  comparisons : ∀ token op, token.kind = .operator op →
    s.step token = .ok (State.takePlace token s.waiting s.output).1 ∧
      ∀ compared ∈ (State.takePlace token s.waiting s.output).2, 0 ≤ compared.1 ∧ 0 < compared.2

section

variable {before : List Token} {s : State}

theorem kinds_of_run (run : State.run ⟨[], []⟩ before = .ok s) :
    ∀ top ∈ s.waiting, top.kind = .openParen ∨ ∃ op, top.kind = .operator op := by
  have stacked : s.Stacked := State.keeps_of_run (fun _ _ _ holds moves => moves.stacked holds) State.stacked_start run
  intro top member
  cases opening : opens top with
  | true => exact .inl (opens_iff.mp opening)
  | false => exact .inr (stacked top member opening)

theorem stepped_of_run (run : State.run ⟨[], []⟩ before = .ok s) : Stepped s.waiting := by
  have start : Stepped [] := .nil
  refine State.keeps_of_run (P := fun s => Stepped s.waiting) ?_ start run
  intro s token next stepped moves
  exact moves.stepped stepped

theorem rising_of_run (run : State.run ⟨[], []⟩ before = .ok s) :
    ∀ segment ∈ s.waiting.splitOnP opens, Rising segment := by
  intro segment member
  obtain ⟨within, plain⟩ := infix_of_mem_splitOnP member
  refine (stepped_of_run run).rising within ?_
  intro top inside
  have notOpen : top.kind ≠ .openParen := opens_eq_false_iff.mp (plain top inside)
  exact (kinds_of_run run top (within.subset inside)).resolve_left notOpen

/-- The waiting parentheses are the waiting tokens that are parentheses. -/
theorem parentheses_of_run (run : State.run ⟨[], []⟩ before = .ok s) :
    LastFirst (fun token behind => token.kind = .openParen ∧ ¬ Closed behind) before (s.waiting.filter opens) := by
  refine ((waits_of_run run).filter opens).congr ?_
  intro token behind _
  rw [opens_iff]
  constructor
  · rintro ⟨⟨notClosed, -⟩, kind⟩
    exact ⟨kind, notClosed⟩
  · rintro ⟨kind, notClosed⟩
    exact ⟨⟨notClosed, .inl kind⟩, kind⟩

end

/-- Between any two tokens: what waits, in which order, and what the next operator compares. -/
theorem wellStacked_of_run {before : List Token} {s : State} (run : State.run ⟨[], []⟩ before = .ok s) :
    WellStacked before s where
  kinds := kinds_of_run run
  segments := rising_of_run run
  parentheses := parentheses_of_run run
  comparisons token op kind := by
    refine ⟨step_eq_takePlace kind, ?_⟩
    intro compared member
    obtain ⟨top, waits, rfl⟩ := mem_of_compared member
    exact ⟨precedence_nonneg_of_waits (kinds_of_run run top waits), precedence_pos kind⟩

/-- For instance `+ ( * ^`, on which the power stands above the product and both above the parenthesis. -/
theorem wellStacked_of_run_nested :
    let plus : Token := ⟨0, .operator .add, "+"⟩
    let opening : Token := ⟨1, .openParen, "("⟩
    let product : Token := ⟨2, .operator .mul, "*"⟩
    let power : Token := ⟨3, .operator .pow, "^"⟩
    State.run ⟨[], []⟩ [plus, opening, product, power] = .ok ⟨[power, product, opening, plus], []⟩ ∧
      WellStacked [plus, opening, product, power] ⟨[power, product, opening, plus], []⟩ := by
  intro plus opening product power
  have run : State.run ⟨[], []⟩ [plus, opening, product, power] = .ok ⟨[power, product, opening, plus], []⟩ := rfl
  exact ⟨run, wellStacked_of_run run⟩

end Polish.ShuntingYard
