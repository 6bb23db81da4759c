import Polish.Proofs.Binary64.Literal
import Polish.Proofs.ShuntingYard.Conservation

/-!
# The literals that are accepted

The accepted literals are the texts of the finite doubles, and these are plain numbers of at most seventeen significant
digits, each nearest to its own double.
-/

namespace Polish

open Binary64 (Magnitude)

/-- An accepted literal is a plain number, and its value the double nearest to it. -/
theorem Numeral.exists_plain_of_evaluate {n : Numeral} {x : Binary64} (value : n.evaluate = .ok x) :
    ∃ (p : PlainNumber) (m : Magnitude), x = .finite p.negative m ∧ n.literal = p.text ∧
      p.significant.length ≤ 17 ∧ x.NearestTo p.toRat := by
  obtain ⟨readsBack, literal⟩ := evaluate_eq_ok_iff.mp value
  have isFinite := readsBack.isFinite
  cases x with
  | nan => cases isFinite
  | infinity negative => cases isFinite
  | finite negative m =>
    obtain ⟨p, rfl, chars, units, length⟩ := Binary64.exists_plain_chars negative m
    refine ⟨p, m, rfl, ?_, length, Binary64.nearestTo_of_units units⟩
    rw [literal, Binary64.text, chars, PlainNumber.text]

namespace ShuntingYard

open Token

variable {tokens reordered : List Token}

/-- A number comes out with its value. -/
theorem evaluated_mem_of_toPrefix (h : toPrefix tokens = .ok reordered) {token : Token} (member : token ∈ tokens)
    (number : token.isNumber) : token.evaluated ∈ reordered := by
  obtain ⟨last, run, operators, rfl⟩ := exists_run_of_toPrefix h
  have numbers := ((conserves_start.run run).finish operators).numbers
  rw [List.nil_append] at numbers
  have inside : token.evaluated ∈ (evaluatedWhere isNumber tokens).reverse := by
    rw [List.mem_reverse]
    exact List.mem_map_of_mem (List.mem_filter.mpr ⟨member, number⟩)
  rw [← numbers] at inside
  exact (List.mem_filter.mp inside).1

/-- Only canonical literals are accepted. In an accepted row of tokens every literal is a plain number of at most
seventeen significant digits; it comes out with the finite double nearest to it, whose text it is, and no other literal
has that double. -/
theorem toPrefix_literals (h : toPrefix tokens = .ok reordered) :
    ∀ token ∈ tokens, ∀ n, token.kind = .number n →
      ∃ (p : PlainNumber) (m : Magnitude),
        n.literal = p.text ∧ p.significant.length ≤ 17 ∧
        { token with kind := .number { n with value? := some (.finite p.negative m) } } ∈ reordered ∧
        (Binary64.finite p.negative m).NearestTo p.toRat ∧
        (Binary64.finite p.negative m).text = n.literal ∧
        ∀ other : Numeral, other.evaluate = .ok (.finite p.negative m) → other.literal = n.literal := by
  intro token member n kind
  obtain ⟨x, value⟩ := accepted_of_toPrefix h token member n kind
  obtain ⟨-, shown⟩ := Numeral.evaluate_eq_ok_iff.mp value
  obtain ⟨p, m, rfl, literal, length, nearest⟩ := Numeral.exists_plain_of_evaluate value
  refine ⟨p, m, literal, length, ?_, nearest, shown.symm, ?_⟩
  · rw [← evaluated_of_number kind value]
    exact evaluated_mem_of_toPrefix h member (by simp [isNumber, asNumber?, kind])
  · intro other same
    obtain ⟨-, shown'⟩ := Numeral.evaluate_eq_ok_iff.mp same
    rw [shown, shown']

theorem toPrefix_literals_tenth :
    ∃ tokens reordered, Token.traceAll tokens = "[num:-0.1][pow][num:1200]" ∧
      toPrefix tokens = .ok reordered ∧ Token.traceAll reordered = "[pow][num:1200][num:-0.1]" ∧
      ∀ token ∈ tokens, ∀ n, token.kind = .number n →
        ∃ (p : PlainNumber) (m : Magnitude),
          n.literal = p.text ∧ p.significant.length ≤ 17 ∧
          { token with kind := .number { n with value? := some (.finite p.negative m) } } ∈ reordered ∧
          (Binary64.finite p.negative m).NearestTo p.toRat ∧
          (Binary64.finite p.negative m).text = n.literal ∧
          ∀ other : Numeral, other.evaluate = .ok (.finite p.negative m) → other.literal = n.literal := by
  generalize tokens_eq : [(⟨0, .number { literal := "-0.1" }, "-0.1"⟩ : Token), ⟨4, .operator .pow, "^"⟩,
    ⟨5, .number { literal := "1200" }, "+1200"⟩] = tokens
  have traced : (toPrefix tokens).toOption.map Token.traceAll = some "[pow][num:1200][num:-0.1]" := by
    rw [← tokens_eq]
    decide +kernel
  cases reorder : toPrefix tokens with
  | error e => simp [reorder, Except.toOption] at traced
  | ok reordered =>
    rw [reorder] at traced
    have before : Token.traceAll tokens = "[num:-0.1][pow][num:1200]" := by
      rw [← tokens_eq]
      decide +kernel
    exact ⟨tokens, reordered, before, reorder, Option.some.inj traced, toPrefix_literals reorder⟩

end ShuntingYard

end Polish
