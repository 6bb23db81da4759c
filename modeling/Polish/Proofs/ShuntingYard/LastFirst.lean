import Mathlib.Data.List.Infix

/-!
# Rows that list places, the last one first

A place of a list is one of its elements with the elements behind it. `LastFirst p source row` says that the row holds
the elements of the places with the property `p`, the last place first. Equal elements at different places stay apart,
and the row is in the reverse of the order of the source.
-/

namespace Polish.ShuntingYard

/-- The row of the elements that have a property, given what is behind them, from the last one to the first. -/
inductive LastFirst {α : Type} (p : α → List α → Prop) : (source row : List α) → Prop where
  | nil : LastFirst p [] []
  | skip {a : α} {behind row : List α} (out : ¬ p a behind) (later : LastFirst p behind row) :
      LastFirst p (a :: behind) row
  | take {a : α} {behind row : List α} (within : p a behind) (later : LastFirst p behind row) :
      LastFirst p (a :: behind) (row ++ [a])

namespace LastFirst

variable {α : Type} {p q : α → List α → Prop} {a : α} {source front back behind row held kept : List α}

theorem of_none (none : ∀ a behind, a :: behind <:+ source → ¬ p a behind) : LastFirst p source [] := by
  induction source with
  | nil => exact .nil
  | cons first rest ih =>
    refine .skip (none first rest List.suffix_rfl) (ih ?_)
    intro a behind place
    exact none a behind (place.trans (List.suffix_cons first rest))

theorem congr (marked : LastFirst p source row)
    (same : ∀ a behind, a :: behind <:+ source → (p a behind ↔ q a behind)) : LastFirst q source row := by
  induction marked with
  | nil => exact .nil
  | @skip first rest row out later ih =>
    refine .skip ((same first rest List.suffix_rfl).not.mp out) (ih ?_)
    intro a behind place
    exact same a behind (place.trans (List.suffix_cons first rest))
  | @take first rest row within later ih =>
    refine .take ((same first rest List.suffix_rfl).mp within) (ih ?_)
    intro a behind place
    exact same a behind (place.trans (List.suffix_cons first rest))

theorem mem (marked : LastFirst p source row) (place : a :: behind <:+ source) (within : p a behind) : a ∈ row := by
  induction marked with
  | nil => cases List.eq_nil_of_suffix_nil place
  | skip out later ih =>
    rcases List.suffix_cons_iff.mp place with same | inside
    · cases same
      exact absurd within out
    · exact ih inside
  | take within' later ih =>
    rcases List.suffix_cons_iff.mp place with same | inside
    · cases same
      exact List.mem_concat_self
    · exact List.mem_append_left _ (ih inside)

/-- The elements of the row with one more property are those of the places that have both. -/
theorem filter (marked : LastFirst p source row) (keep : α → Bool) :
    LastFirst (fun a behind => p a behind ∧ keep a = true) source (row.filter keep) := by
  induction marked with
  | nil => exact .nil
  | skip out later ih => exact .skip (fun both => out both.1) ih
  | @take a behind row within later ih =>
    rw [List.filter_append]
    cases kept : keep a with
    | true => simpa [kept] using ih.take ⟨within, kept⟩
    | false => simpa [kept] using ih.skip (by simp [kept])

/-- The row of a list in two parts begins with the row of the second part. -/
theorem append (later : LastFirst p back held) (earlier : LastFirst (fun a behind => p a (behind ++ back)) front kept) :
    LastFirst p (front ++ back) (held ++ kept) := by
  induction earlier with
  | nil => simpa using later
  | skip out _ ih => exact .skip out ih
  | take within _ ih =>
    rw [← List.append_assoc]
    exact .take within ih

theorem concat_skip (out : ¬ p a []) (earlier : LastFirst (fun b behind => p b (behind ++ [a])) source row) :
    LastFirst p (source ++ [a]) row :=
  append (.skip out .nil) earlier

theorem concat_take (within : p a []) (earlier : LastFirst (fun b behind => p b (behind ++ [a])) source row) :
    LastFirst p (source ++ [a]) (a :: row) :=
  append (.take within .nil) earlier

/-- The place of an element of the row: what is before it in the row is behind it in the source. -/
theorem exists_place (marked : LastFirst p source (held ++ a :: kept)) :
    ∃ front behind, source = front ++ a :: behind ∧ p a behind ∧ LastFirst p behind held ∧
      LastFirst (fun b between => p b (between ++ a :: behind)) front kept := by
  generalize row_eq : held ++ a :: kept = row at marked
  induction marked generalizing kept with
  | nil => simp at row_eq
  | @skip first rest row out later ih =>
    obtain ⟨front, behind, rfl, within, inner, outer⟩ := ih row_eq
    exact ⟨first :: front, behind, rfl, within, inner, .skip out outer⟩
  | @take first rest row within later ih =>
    rcases List.eq_nil_or_concat kept with rfl | ⟨kept, last, rfl⟩
    · obtain ⟨rfl, same⟩ := List.append_inj' row_eq rfl
      cases same
      exact ⟨[], rest, rfl, within, later, .nil⟩
    · rw [List.concat_eq_append, ← List.cons_append, ← List.append_assoc] at row_eq
      obtain ⟨shorter, same⟩ := List.append_inj' row_eq rfl
      cases same
      obtain ⟨front, behind, rfl, here, inner, outer⟩ := ih shorter
      rw [List.concat_eq_append]
      exact ⟨first :: front, behind, rfl, here, inner, .take within outer⟩

end LastFirst

end Polish.ShuntingYard
