import Polish.Proofs.CallTree.Faithful
import Polish.Proofs.CallTree.Inverse
import Polish.Proofs.CallTree.Ways

/-!
# Drawings list the prefix sequence

The lines of a drawing are matched with the tokens of the sequence that the tree was read from. Behind the title they
are the labels of the nodes, each behind the margin of the way to its node, and the nodes come in the order of the
tokens.
-/

namespace Polish.CallTree

open Text (lines)

theorem lines_drawing_eq_zipWith (t : CallTree) :
    lines t.drawing.toList = "expression".toList ::
      List.zipWith (fun way label => (String.join (margin false way) ++ label).toList) t.ways t.labels := by
  have rows := drawingLines_eq "" false t
  rw [Bool.not_false] at rows
  rw [lines_drawing, rows, List.map_zipWith]
  simp only [String.empty_append]

/-- At the place of a token in what writes a tree there is the way to a node with the symbol of the token. -/
theorem exists_way_of_writes {tokens : List Token} {t : CallTree} (writes : Writes tokens t) {k : Nat} {token : Token}
    (place : tokens[k]? = some token) :
    ∃ way s, t.ways[k]? = some way ∧ t.at? way = some s ∧ token.symbol? = some s.rootSymbol ∧
      t.flatten[k]? = some s.rootSymbol := by
  have symbols : (t.ways.map fun way => (t.at? way).map rootSymbol)[k]? = (tokens.map Token.symbol?)[k]? := by
    rw [map_rootSymbol_ways, writes]
  have flat : (tokens.map Token.symbol?)[k]? = (t.flatten.map some)[k]? := by rw [writes]
  rw [List.getElem?_map, List.getElem?_map, place] at symbols flat
  obtain ⟨way, atPlace, same⟩ := Option.map_eq_some_iff.mp symbols
  obtain ⟨symbol, inFlat, kind⟩ := Option.map_eq_some_iff.mp flat.symm
  rw [← kind] at same
  obtain ⟨s, found, rfl⟩ := Option.map_eq_some_iff.mp same
  exact ⟨way, s, atPlace, found, kind.symm, inFlat⟩

/-- The drawing of a tree lists the prefix sequence that the tree was read from. Behind the title there is a line for
each token, in the same order: its label behind the margin of the way to the token's node, three characters
for each node on the way. A view is the drawing, and so is what is written of the outline that a builder makes, and what
the recursion gives. -/
theorem drawing_lists_prefix {tokens : List Token} {t : CallTree} (parsed : ofPrefix tokens = .ok t) :
    (lines t.drawing.toList).length = tokens.length + 1 ∧
    (lines t.drawing.toList).head? = some "expression".toList ∧
    (∀ k token, tokens[k]? = some token → ∃ way s, t.ways[k]? = some way ∧ t.at? way = some s ∧
      token.symbol? = some s.rootSymbol ∧
      (lines t.drawing.toList)[k + 1]? = some (String.join (margin false way) ++ s.rootSymbol.label).toList) ∧
    (t.ways.Nodup ∧ ∀ way, way ∈ t.ways ↔ ∃ s, t.at? way = some s) ∧
    (∀ way, (margin false way).length = way.length + 1 ∧ ∀ group ∈ margin false way, group.length = 3) ∧
    (∀ text, t.view? = .ok text → text = t.drawing) ∧
    t.drawing = (t.tell { text := "expression" }).build.write ∧
    t.drawing = String.join (("expression" :: t.drawingLines "" true).map (· ++ "\n")) := by
  have writes := writes_of_ofPrefix parsed
  have count : t.flatten.length = tokens.length := by simpa using (congrArg List.length writes).symm
  refine ⟨?_, ?_, ?_, ⟨t.nodup_ways, fun way => mem_ways_iff⟩, ?_, ?_, rfl, t.drawing_eq_join⟩
  · rw [lines_drawing_eq_zipWith, List.length_cons, List.length_zipWith, length_ways, labels, List.length_map, count,
      Nat.min_self]
  · rw [lines_drawing_eq_zipWith, List.head?_cons]
  · intro k token place
    obtain ⟨way, s, atPlace, found, symbol, inFlat⟩ := exists_way_of_writes writes place
    have label : t.labels[k]? = some s.rootSymbol.label := by rw [labels, List.getElem?_map, inFlat, Option.map_some]
    refine ⟨way, s, atPlace, found, symbol, ?_⟩
    rw [lines_drawing_eq_zipWith, List.getElem?_cons_succ, List.getElem?_zipWith, atPlace, label]
  · intro way
    exact ⟨length_margin false way, fun group => length_of_mem_margin⟩
  · intro text viewed
    unfold view? at viewed
    split at viewed
    · cases viewed
    · exact (Except.ok.inj viewed).symm

theorem drawing_lists_prefix_nested :
    ∃ tokens t, Token.traceAll tokens = "[sub][mul][pow][num:4][num:3][num:2][num:1]" ∧ ofPrefix tokens = .ok t ∧
      (lines t.drawing.toList).length = tokens.length + 1 ∧
      (lines t.drawing.toList)[4]? = some "   │  │  ├─ 4".toList ∧
      (lines t.drawing.toList)[5]? = some "   │  │  └─ 3".toList := by
  generalize tree_eq : call .sub (number (.ofBits 0x3ff0000000000000)) (call .mul (number (.ofBits 0x4000000000000000))
    (call .pow (number (.ofBits 0x4008000000000000)) (number (.ofBits 0x4010000000000000)))) = t
  have traced : Token.traceAll (t.flatten.map Symbol.token) = "[sub][mul][pow][num:4][num:3][num:2][num:1]" := by
    rw [← tree_eq]
    decide +kernel
  have reads := ofPrefix_of_writes t.writes_token
  obtain ⟨length, -, each, -⟩ := drawing_lists_prefix reads
  refine ⟨t.flatten.map Symbol.token, t, traced, reads, length, ?_, ?_⟩
  · obtain ⟨way, s, atPlace, found, -, line⟩ := each 3 _ (by rw [← tree_eq]; rfl)
    subst tree_eq
    cases atPlace
    cases found
    rw [line]
    decide +kernel
  · obtain ⟨way, s, atPlace, found, -, line⟩ := each 4 _ (by rw [← tree_eq]; rfl)
    subst tree_eq
    cases atPlace
    cases found
    rw [line]
    decide +kernel

end Polish.CallTree
