import Polish.Proofs.ShuntingYard.Faults
import Polish.Proofs.ShuntingYard.LastFirst

/-!
# Which tokens wait

Whether a token waits in the yard depends on the tokens behind it only (`Waits`): its group is still open, and no
operator of this group is one that it gives way to. An arriving operator compares itself with the last waiting token and
stops at the first one that it does not release. This is enough: an operator below that one gives way to the arriving
one, if at all, only where the one above it does too (`Operator.YieldsTo.of_not_yieldsTo`), and below a parenthesis
another group begins.
-/

namespace Polish

/-- Whether an operator that waits gives way to one that arrives: to one that binds less tightly, and a power to a
power. -/
def Operator.YieldsTo (waiting arriving : Operator) : Prop :=
  arriving.precedence < waiting.precedence ∨ (waiting = .pow ∧ arriving = .pow)

theorem Operator.eq_pow_of_precedence {op : Operator} (high : Operator.pow.precedence ≤ op.precedence) : op = .pow := by
  cases op <;> first | rfl | exact absurd high (by decide)

/-- What the lower one of two waiting operators gives way to, the upper one gives way to as well, if the lower one did
not give way to the upper one. -/
theorem Operator.YieldsTo.of_not_yieldsTo {lower upper arriving : Operator} (yields : lower.YieldsTo arriving)
    (kept : ¬ lower.YieldsTo upper) : upper.YieldsTo arriving := by
  obtain ⟨notLess, notPowers⟩ := not_or.mp kept
  rcases yields with less | ⟨rfl, rfl⟩
  · refine .inl ?_
    omega
  · have power : upper = .pow := Operator.eq_pow_of_precedence (by omega)
    exact absurd ⟨rfl, power⟩ notPowers

namespace ShuntingYard

section

variable {tokens front back before after behind : List Token} {token : Token} {op arriving : Operator}

theorem releases_iff_yieldsTo {top : Token} (kind : token.kind = .operator arriving)
    (waiting : top.kind = .operator op) : releases token top ↔ op.YieldsTo arriving := by
  rw [releases_iff kind, precedence_of_operator waiting, Operator.YieldsTo]
  cases op <;> cases arriving <;> simp [Operator.precedence]

/-! ## Tokens without open groups -/

theorem split_concat {other : Token} (split : behind ++ [token] = before ++ other :: after) :
    (behind = before ∧ token = other ∧ after = []) ∨
      ∃ between, behind = before ++ other :: between ∧ after = between ++ [token] := by
  rcases same_or_behind_or_before split with ⟨rfl, rfl, rfl⟩ | ⟨between, -, none⟩ | ⟨between, rfl, rfl⟩
  · exact .inl ⟨rfl, rfl, rfl⟩
  · simp at none
  · exact .inr ⟨between, rfl, rfl⟩

theorem closed_concat_iff :
    Closed (behind ++ [token]) ↔ Closed behind ∨ (token.kind = .closeParen ∧ Matched behind) := by
  constructor
  · rintro ⟨inner, closing, rest, split, kind, matched⟩
    rcases split_concat split with ⟨rfl, rfl, -⟩ | ⟨between, rfl, -⟩
    · exact .inr ⟨kind, matched⟩
    · exact .inl ⟨inner, closing, between, rfl, kind, matched⟩
  · rintro (closed | ⟨kind, matched⟩)
    · exact closed.append [token]
    · exact ⟨behind, token, [], rfl, kind, matched⟩

/-- If a parenthesis before the tokens has no partner among them, all closing ones among them have one there. -/
theorem exists_openGroups_of_not_closed (notClosed : ¬ Closed tokens) : ∃ opened, OpenGroups tokens opened := by
  induction tokens using List.reverseRecOn with
  | nil => exact ⟨[], .outside .nil⟩
  | append_singleton front token ih =>
    rw [closed_concat_iff, not_or] at notClosed
    obtain ⟨opened, groups⟩ := ih notClosed.1
    by_cases opening : token.kind = .openParen
    · exact ⟨token :: opened, .group groups opening .nil⟩
    by_cases closing : token.kind = .closeParen
    · cases groups with
      | outside matched => exact absurd ⟨closing, matched⟩ notClosed.2
      | group outer kind inside => exact ⟨_, (OpenGroups.group outer kind inside).close closing⟩
    · exact ⟨opened, groups.append (.plain opening closing .nil)⟩

theorem AllClosed.of_append (closed : AllClosed (front ++ back)) : AllClosed back := by
  intro before token after split kind
  exact closed (front ++ before) token after (by simp [split]) kind

theorem AllClosed.matched (closed : AllClosed tokens) (notClosed : ¬ Closed tokens) : Matched tokens := by
  obtain ⟨opened, groups⟩ := exists_openGroups_of_not_closed notClosed
  cases groups with
  | outside matched => exact matched
  | @group front opened inner opening outer kind inside =>
    exact absurd (closed front opening inner rfl kind) inside.not_closed

theorem Matched.of_append (matched : Matched (front ++ back)) (first : Matched front) : Matched back := by
  refine matched.allClosed.of_append.matched ?_
  rintro ⟨inner, closing, rest, rfl, kind, inside⟩
  exact matched.not_closed ⟨front ++ inner, closing, rest, by simp, kind, first.append inside⟩

/-- Tokens between two places of one group. -/
theorem Matched.before_of_not_closed (matched : Matched (before ++ token :: after)) (notOpen : token.kind ≠ .openParen)
    (notClose : token.kind ≠ .closeParen) (notClosed : ¬ Closed after) : Matched before := by
  -- An open group before the token would be closed behind it, and nothing is.
  have later : Matched after := by
    have closed : AllClosed ((before ++ [token]) ++ after) := by simpa using matched.allClosed
    exact closed.of_append.matched notClosed
  obtain ⟨opened, groups⟩ := exists_openGroups_of_not_closed fun closed => matched.not_closed (closed.append _)
  cases groups with
  | outside matched => exact matched
  | @group front opened inner opening outer kind inside =>
    rw [List.append_assoc] at matched
    have closed : Closed (inner ++ token :: after) := matched.closed_of_open rfl kind
    exact absurd closed (inside.append (.plain notOpen notClose later)).not_closed

/-! ## What waits -/

/-- None of the tokens behind a waiting operator is an operator of its group that it gives way to. -/
def Unyielding (waiting : Operator) (behind : List Token) : Prop :=
  ∀ between token after arriving, behind = between ++ token :: after → Matched between →
    token.kind = .operator arriving → ¬ waiting.YieldsTo arriving

/-- A token waits while its group is open: an opening parenthesis, or an operator that has not given way yet. -/
def Waits (token : Token) (behind : List Token) : Prop :=
  ¬ Closed behind ∧ (token.kind = .openParen ∨ ∃ op, token.kind = .operator op ∧ Unyielding op behind)

/-- The arriving operator is the first one behind the token, in the same group, that the token gives way to. -/
def ReleasedBy (arriving : Operator) (token : Token) (behind : List Token) : Prop :=
  Matched behind ∧ ∃ op, token.kind = .operator op ∧ op.YieldsTo arriving ∧ Unyielding op behind

/-- The token is an operator of the group in which the tokens behind it end, and has not given way to any of them. -/
def LeftInGroup (token : Token) (behind : List Token) : Prop :=
  Matched behind ∧ ∃ op, token.kind = .operator op ∧ Unyielding op behind

theorem unyielding_concat_iff :
    Unyielding op (behind ++ [token]) ↔ Unyielding op behind ∧
      (Matched behind → ∀ arriving, token.kind = .operator arriving → ¬ op.YieldsTo arriving) := by
  constructor
  · intro unyielding
    refine ⟨?_, fun matched arriving => unyielding behind token [] arriving rfl matched⟩
    rintro between other after arriving rfl
    exact unyielding between other (after ++ [token]) arriving (by simp)
  · rintro ⟨unyielding, last⟩ between other after arriving split
    rcases split_concat split with ⟨rfl, rfl, -⟩ | ⟨shorter, rfl, -⟩
    · exact fun matched => last matched arriving
    · exact unyielding between other shorter arriving rfl

theorem unyielding_nil : Unyielding op [] := by
  intro between token after arriving split
  simp at split

theorem not_waits_of_notOperator (notOpen : token.kind ≠ .openParen) (notOperator : ∀ op, token.kind ≠ .operator op) :
    ¬ Waits token behind := by
  rintro ⟨-, opening | ⟨op, kind, -⟩⟩
  · exact notOpen opening
  · exact notOperator op kind

/-! ## One more token -/

variable {top : Token}

theorem waits_concat_operator_iff (kind : token.kind = .operator arriving) :
    Waits top (behind ++ [token]) ↔ Waits top behind ∧ ¬ ReleasedBy arriving top behind := by
  have closed : Closed (behind ++ [token]) ↔ Closed behind := by simp [closed_concat_iff, kind]
  simp only [Waits, closed, unyielding_concat_iff]
  constructor
  · rintro ⟨notClosed, opening | ⟨op, waiting, unyielding, last⟩⟩
    · refine ⟨⟨notClosed, .inl opening⟩, ?_⟩
      rintro ⟨-, op, waiting, -⟩
      rw [opening] at waiting
      cases waiting
    · refine ⟨⟨notClosed, .inr ⟨op, waiting, unyielding⟩⟩, ?_⟩
      rintro ⟨matched, op', waiting', yields, -⟩
      obtain rfl : op = op' := by simpa [waiting] using waiting'
      exact last matched arriving kind yields
  · rintro ⟨⟨notClosed, opening | ⟨op, waiting, unyielding⟩⟩, kept⟩
    · exact ⟨notClosed, .inl opening⟩
    · refine ⟨notClosed, .inr ⟨op, waiting, unyielding, ?_⟩⟩
      intro matched arriving' kind' yields
      obtain rfl : arriving = arriving' := by simpa [kind] using kind'
      exact kept ⟨matched, op, waiting, yields, unyielding⟩

theorem unyielding_concat_iff_of_notOperator (notOperator : ∀ op, token.kind ≠ .operator op) :
    Unyielding op (behind ++ [token]) ↔ Unyielding op behind := by
  simp [unyielding_concat_iff, notOperator]

theorem waits_concat_closeParen_iff (kind : token.kind = .closeParen) :
    Waits top (behind ++ [token]) ↔ Waits top behind ∧ ¬ Matched behind := by
  have unyielding (op : Operator) : Unyielding op (behind ++ [token]) ↔ Unyielding op behind :=
    unyielding_concat_iff_of_notOperator (by simp [kind])
  simp only [Waits, closed_concat_iff, kind, true_and, not_or, unyielding]
  exact and_right_comm

theorem waits_concat_iff (notClose : token.kind ≠ .closeParen) (notOperator : ∀ op, token.kind ≠ .operator op) :
    Waits top (behind ++ [token]) ↔ Waits top behind := by
  have unyielding (op : Operator) : Unyielding op (behind ++ [token]) ↔ Unyielding op behind :=
    unyielding_concat_iff_of_notOperator notOperator
  simp only [Waits, closed_concat_iff, notClose, false_and, or_false, unyielding]

/-! ## Which tokens leave -/

variable {held kept : List Token}

/-- Above the waiting parentheses the groups are closed. -/
theorem LastFirst.allClosed (waits : LastFirst Waits tokens held) (operators : ∀ top ∈ held, opens top = false) :
    AllClosed tokens := by
  rintro before token after rfl kind
  by_contra notClosed
  have member := waits.mem ⟨before, rfl⟩ ⟨notClosed, .inl kind⟩
  exact opens_eq_false_iff.mp (operators token member) kind

theorem LastFirst.waits_iff_leftInGroup (waits : LastFirst Waits tokens held)
    (operators : ∀ top ∈ held, opens top = false) (place : top :: behind <:+ tokens) :
    Waits top behind ↔ LeftInGroup top behind := by
  have closed : AllClosed behind := by
    obtain ⟨front, rfl⟩ := (List.suffix_cons top behind).trans place
    exact (waits.allClosed operators).of_append
  constructor
  · intro waiting
    have notOpen : top.kind ≠ .openParen := opens_eq_false_iff.mp (operators top (waits.mem place waiting))
    exact ⟨closed.matched waiting.1, waiting.2.resolve_left notOpen⟩
  · rintro ⟨matched, operator⟩
    exact ⟨matched.not_closed, .inr operator⟩

/-- If only operators wait, all of them are left in their group. -/
theorem LastFirst.leftInGroup (waits : LastFirst Waits tokens held) (operators : ∀ top ∈ held, opens top = false) :
    LastFirst LeftInGroup tokens held :=
  waits.congr fun _ _ place => waits.waits_iff_leftInGroup operators place

theorem LastFirst.waits_iff_releasedBy (waits : LastFirst Waits tokens held) (kind : token.kind = .operator arriving)
    (released : ∀ top ∈ held, releases token top) (place : top :: behind <:+ tokens) :
    Waits top behind ↔ ReleasedBy arriving top behind := by
  have operators : ∀ top ∈ held, opens top = false := fun top member => opens_of_releases kind (released top member)
  constructor
  · intro waiting
    obtain ⟨matched, op, operator, unyielding⟩ := (waits.waits_iff_leftInGroup operators place).mp waiting
    have yields := (releases_iff_yieldsTo kind operator).mp (released top (waits.mem place waiting))
    exact ⟨matched, op, operator, yields, unyielding⟩
  · rintro ⟨matched, op, operator, -, unyielding⟩
    exact ⟨matched.not_closed, .inr ⟨op, operator, unyielding⟩⟩

/-- Where an arriving operator stops, it would not release anything below either. -/
theorem not_releasedBy_below {lower upper : Token} {between : List Token} (waits : Waits upper behind)
    (kind : token.kind = .operator arriving) (stays : ¬ releases token upper) :
    ¬ ReleasedBy arriving lower (between ++ upper :: behind) := by
  rintro ⟨matched, op, -, yields, unyielding⟩
  rcases waits with ⟨notClosed, opening | ⟨upperOp, upperKind, -⟩⟩
  -- No group reaches past a parenthesis that waits, and in one group the lower operator did not give way to the upper.
  · exact notClosed (matched.closed_of_open rfl opening)
  · have sameGroup : Matched between :=
      matched.before_of_not_closed (by simp [upperKind]) (by simp [upperKind]) notClosed
    have notYields := unyielding between upper behind upperOp rfl sameGroup upperKind
    exact stays ((releases_iff_yieldsTo kind upperKind).mpr (yields.of_not_yieldsTo notYields))

/-- If an arriving operator releases all that wait, all give way to it. -/
theorem LastFirst.release_all (waits : LastFirst Waits tokens held) (kind : token.kind = .operator arriving)
    (released : ∀ top ∈ held, releases token top) :
    LastFirst (ReleasedBy arriving) tokens held ∧
      LastFirst (fun top behind => Waits top behind ∧ ¬ ReleasedBy arriving top behind) tokens [] := by
  refine ⟨waits.congr fun _ _ place => waits.waits_iff_releasedBy kind released place, .of_none ?_⟩
  rintro top behind place ⟨waiting, notReleased⟩
  exact notReleased ((waits.waits_iff_releasedBy kind released place).mp waiting)

/-- An arriving operator parts the waiting tokens into those that give way to it and those that go on waiting. -/
theorem LastFirst.part_operator (waits : LastFirst Waits tokens (held ++ kept)) (kind : token.kind = .operator arriving)
    (released : ∀ top ∈ held, releases token top) (stays : ∀ top ∈ kept.head?, ¬ releases token top) :
    LastFirst (ReleasedBy arriving) tokens held ∧
      LastFirst (fun top behind => Waits top behind ∧ ¬ ReleasedBy arriving top behind) tokens kept := by
  cases kept with
  | nil =>
    rw [List.append_nil] at waits
    exact waits.release_all kind released
  | cons upper below =>
    -- Behind the first token that stays all give way; before it none does.
    obtain ⟨front, inner, rfl, waiting, inside, outside⟩ := waits.exists_place
    obtain ⟨sent, none⟩ := inside.release_all kind released
    have upperStays : ¬ ReleasedBy arriving upper inner := by
      rintro ⟨-, op, operator, yields, -⟩
      exact stays upper rfl ((releases_iff_yieldsTo kind operator).mpr yields)
    have lowerStays {lower : Token} {between : List Token} :
        ¬ ReleasedBy arriving lower (between ++ upper :: inner) := not_releasedBy_below waiting kind (stays upper rfl)
    constructor
    · simpa using (sent.skip upperStays).append (.of_none fun _ _ _ => lowerStays)
    · exact (none.take ⟨waiting, upperStays⟩).append (outside.congr fun _ _ _ => (and_iff_left lowerStays).symm)

/-- A closing parenthesis parts the waiting tokens into the operators left in its group and those outside. -/
theorem LastFirst.part_closeParen {opening : Token} (waits : LastFirst Waits tokens (held ++ opening :: kept))
    (operators : ∀ top ∈ held, opens top = false) (opened : opening.kind = .openParen) :
    LastFirst LeftInGroup tokens held ∧
      LastFirst (fun top behind => Waits top behind ∧ ¬ Matched behind) tokens kept := by
  obtain ⟨front, inner, rfl, waiting, inside, outside⟩ := waits.exists_place
  have group : Matched inner := (inside.allClosed operators).matched waiting.1
  have lower {between : List Token} : ¬ Matched (between ++ opening :: inner) :=
    fun matched => waiting.1 (matched.closed_of_open rfl opened)
  constructor
  · have notLeft : ¬ LeftInGroup opening inner := by
      rintro ⟨-, op, operator, -⟩
      rw [opened] at operator
      cases operator
    have row := (inside.leftInGroup operators).skip notLeft
    simpa using row.append (.of_none fun _ _ _ left => lower left.1)
  · have row : LastFirst (fun top behind => Waits top behind ∧ ¬ Matched behind) inner [] := by
      refine .of_none ?_
      rintro top behind place ⟨waits', notMatched⟩
      exact notMatched ((inside.waits_iff_leftInGroup operators place).mp waits').1
    exact (row.skip fun both => both.2 group).append (outside.congr fun _ _ _ => (and_iff_left lower).symm)

/-- What waits after one more token is what the tokens say by then. -/
theorem LastFirst.waits_step {s next : State} (waits : LastFirst Waits tokens s.waiting)
    (moves : State.Moves s token next) : LastFirst Waits (tokens ++ [token]) next.waiting := by
  cases moves with
  | number n x kind value =>
    refine .concat_skip (not_waits_of_notOperator (by simp [kind]) (by simp [kind])) ?_
    exact waits.congr fun _ _ _ => (waits_concat_iff (by simp [kind]) (by simp [kind])).symm
  | openParen kind =>
    refine .concat_take ⟨Matched.nil.not_closed, .inl kind⟩ ?_
    exact waits.congr fun _ _ _ => (waits_concat_iff (by simp [kind]) (by simp [kind])).symm
  | closeParen kind held opening outer waiting group opened =>
    rw [waiting] at waits
    refine .concat_skip (not_waits_of_notOperator (by simp [kind]) (by simp [kind])) ?_
    exact (waits.part_closeParen group opened).2.congr fun _ _ _ => (waits_concat_closeParen_iff kind).symm
  | operator op kind held kept waiting released stays =>
    rw [waiting] at waits
    refine .concat_take ⟨Matched.nil.not_closed, .inr ⟨op, kind, unyielding_nil⟩⟩ ?_
    exact (waits.part_operator kind released stays).2.congr fun _ _ _ => (waits_concat_operator_iff kind).symm

/-- After a run the tokens wait that have not been closed or released, the last one first. -/
theorem waits_of_run {s : State} (run : State.run ⟨[], []⟩ tokens = .ok s) : LastFirst Waits tokens s.waiting := by
  have start : LastFirst Waits [] [] := .nil
  refine State.keeps_taken_of_run (P := fun before s => LastFirst Waits before s.waiting) ?_ start run
  intro before s token next waits moves
  exact waits.waits_step moves

end

end ShuntingYard

end Polish
