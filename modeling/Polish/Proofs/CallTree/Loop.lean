import Mathlib.Data.Nat.SuccPred

/-!
# Loops over what waits

A loop takes turns as long as something waits. It is understood once two things are known of a turn: what will have come
of the loop in the end does not change with it, and it brings the end one turn nearer. How much waits says nothing, as
a turn may let more wait than it takes away.
-/

namespace Polish

/-- A loop that has a result and a number of turns until nothing waits. -/
structure Loop (State Item Result : Type) where
  turn : State → State
  waiting : State → List Item
  /-- What will have come of the loop in the end. -/
  result : State → Result
  turnsLeft : State → Nat
  result_turn : ∀ s, result (turn s) = result s
  turnsLeft_turn : ∀ s, turnsLeft (turn s) = turnsLeft s - 1
  turnsLeft_eq_zero : ∀ s, turnsLeft s = 0 ↔ waiting s = []

namespace Loop

variable {State Item Result : Type} (l : Loop State Item Result) (s : State)

theorem result_iterate (count : Nat) : l.result (l.turn^[count] s) = l.result s := by
  induction count with
  | zero => rfl
  | succ count ih => rw [Function.iterate_succ_apply', l.result_turn, ih]

theorem turnsLeft_iterate (count : Nat) : l.turnsLeft (l.turn^[count] s) = l.turnsLeft s - count := by
  induction count with
  | zero => rfl
  | succ count ih => rw [Function.iterate_succ_apply', l.turnsLeft_turn, ih, Nat.sub_sub]

/-- The loop has come to its end once all turns have been taken, and not before. -/
theorem waiting_iterate_eq_nil_iff (count : Nat) : l.waiting (l.turn^[count] s) = [] ↔ l.turnsLeft s ≤ count := by
  rw [← l.turnsLeft_eq_zero, l.turnsLeft_iterate, Nat.sub_eq_zero_iff_le]

/-- At its end nothing waits, and the result is that of the beginning. -/
theorem ended : l.waiting (l.turn^[l.turnsLeft s] s) = [] ∧ l.result (l.turn^[l.turnsLeft s] s) = l.result s :=
  ⟨(l.waiting_iterate_eq_nil_iff s _).mpr (Nat.le_refl _), l.result_iterate s _⟩

/-- What does not change with a turn, and is the result when nothing waits, is the result everywhere. -/
theorem eq_result {f : State → Result} (done : ∀ s, l.waiting s = [] → f s = l.result s)
    (goes : ∀ s, l.waiting s ≠ [] → f s = f (l.turn s)) : f s = l.result s := by
  induction left : l.turnsLeft s generalizing s with
  | zero => exact done s ((l.turnsLeft_eq_zero s).mp left)
  | succ count ih =>
    have some : l.waiting s ≠ [] := by
      intro none
      rw [(l.turnsLeft_eq_zero s).mpr none] at left
      cases left
    have left' : l.turnsLeft (l.turn s) = count := by rw [l.turnsLeft_turn, left, Nat.succ_sub_one]
    rw [goes s some, ih (l.turn s) left', l.result_turn]

end Loop

end Polish
