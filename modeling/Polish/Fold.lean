/-!
# Folds that can fail

A reader of a list takes in one element after the other and stops at the first one that it refuses: it is a fold in
`Except`. What holds of every such fold is said here. `keeps_taken` is the induction over a run: a property of the
elements taken in so far and of the state that every step keeps holds at the end.
-/

namespace Polish.Fold

variable {σ α ε : Type} {step : σ → α → Except ε σ} {s next last : σ} {a : α} {front rest back xs : List α} {e : ε}

theorem cons (step : σ → α → Except ε σ) (s : σ) (a : α) (rest : List α) :
    (a :: rest).foldlM step s = (step s a).bind fun next => rest.foldlM step next := rfl

theorem append (step : σ → α → Except ε σ) (s : σ) (front back : List α) :
    (front ++ back).foldlM step s = (front.foldlM step s).bind fun next => back.foldlM step next :=
  List.foldlM_append

theorem singleton (step : σ → α → Except ε σ) (s : σ) (a : α) : [a].foldlM step s = step s a := by
  rw [cons]
  cases step s a with
  | ok next => rfl
  | error e => rfl

/-! ## Going on and stopping -/

theorem cons_of_ok (taken : step s a = .ok next) (rest : List α) :
    (a :: rest).foldlM step s = rest.foldlM step next := by
  rw [cons, taken]
  rfl

theorem cons_of_error (refused : step s a = .error e) (rest : List α) : (a :: rest).foldlM step s = .error e := by
  rw [cons, refused]
  rfl

theorem append_of_ok (run : front.foldlM step s = .ok next) (back : List α) :
    (front ++ back).foldlM step s = back.foldlM step next := by
  rw [append, run]
  rfl

theorem append_of_error (failed : front.foldlM step s = .error e) (back : List α) :
    (front ++ back).foldlM step s = .error e := by
  rw [append, failed]
  rfl

/-! ## Parts of a run -/

theorem exists_of_append (run : (front ++ back).foldlM step s = .ok last) :
    ∃ middle, front.foldlM step s = .ok middle ∧ back.foldlM step middle = .ok last := by
  rw [append] at run
  cases start : front.foldlM step s with
  | ok middle =>
    rw [start] at run
    exact ⟨middle, rfl, run⟩
  | error e =>
    rw [start] at run
    cases run

theorem exists_of_cons (run : (a :: rest).foldlM step s = .ok last) :
    ∃ next, step s a = .ok next ∧ rest.foldlM step next = .ok last := by
  have parts : ([a] ++ rest).foldlM step s = .ok last := run
  obtain ⟨next, taken, more⟩ := exists_of_append parts
  exact ⟨next, (singleton step s a).symm.trans taken, more⟩

/-- A run fails at the first element that is refused. -/
theorem eq_error_iff :
    xs.foldlM step s = .error e ↔
      ∃ front a back middle, xs = front ++ a :: back ∧ front.foldlM step s = .ok middle ∧ step middle a = .error e := by
  constructor
  · intro failed
    induction xs generalizing s with
    | nil => cases failed
    | cons a rest ih =>
      cases taken : step s a with
      | ok next =>
        rw [cons_of_ok taken] at failed
        obtain ⟨front, b, back, middle, rfl, run, refused⟩ := ih failed
        exact ⟨a :: front, b, back, middle, rfl, (cons_of_ok taken front).trans run, refused⟩
      | error e' =>
        rw [cons_of_error taken] at failed
        cases failed
        exact ⟨[], a, rest, s, rfl, rfl, taken⟩
  · rintro ⟨front, a, back, middle, rfl, run, refused⟩
    rw [append_of_ok run, cons_of_error refused]

/-! ## What is kept -/

/-- What every step keeps of the elements taken in so far and of the state, a run keeps. -/
theorem keeps_taken {P : List α → σ → Prop}
    (keep : ∀ before s a next, P before s → step s a = .ok next → P (before ++ [a]) next) {before : List α}
    (holds : P before s) (run : xs.foldlM step s = .ok last) : P (before ++ xs) last := by
  induction xs generalizing s before with
  | nil =>
    cases run
    rwa [List.append_nil]
  | cons a rest ih =>
    obtain ⟨next, taken, more⟩ := exists_of_cons run
    have longer := ih (keep before s a next holds taken) more
    rwa [List.append_assoc] at longer

/-- What every step keeps of the state, a run keeps. -/
theorem keeps {P : σ → Prop} (keep : ∀ s a next, P s → step s a = .ok next → P next) (holds : P s)
    (run : xs.foldlM step s = .ok last) : P last :=
  @keeps_taken σ α ε step s last xs (fun _ => P) (fun _ => keep) [] holds run

end Polish.Fold
