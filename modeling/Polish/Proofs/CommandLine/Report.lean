import Polish.Proofs.CommandLine.Words
import Polish.Proofs.Expression.Unfinished

/-!
# What a run reports

A run goes through the stages of an expression once more, by itself. An expression is refused, or its first operator in
prefix order lacks an operand, or it has a tree (`Course`), and in each of these cases the report says what the library
says. With a drawing it says more, or fails because the tree is too deep; so there are few things that a run that fails
can tell (`Tells`).
-/

namespace Polish.CommandLine

open CallTree Expression Lexer
open StructureError (chain_oneOperand chain_tooDeep)

variable {expression : String} {tokens reordered : List Token} {t : CallTree} {showTree : Bool}

/-! ## Stages -/

/-- How far an expression gets. -/
inductive Course (expression : String) : Prop where
  /-- It is not read, or its tokens are not reordered. -/
  | refused (e : SyntaxError) (failed : convert expression = .error e)
  /-- The first of its reordered tokens is an operator without a first operand. -/
  | unfinished (tokens reordered : List Token) (first : Token) (op : Operator)
      (read : tokenize expression = .ok tokens) (reorder : toPrefix tokens = .ok reordered)
      (head : reordered.head? = some first) (kind : first.kind = .operator op)
      (failed : ofPrefix reordered = .error (.oneOperand op))
  /-- It has a tree. -/
  | finished (tokens reordered : List Token) (t : CallTree) (read : tokenize expression = .ok tokens)
      (reorder : toPrefix tokens = .ok reordered) (parsed : ofPrefix reordered = .ok t)

theorem course (expression : String) : Course expression := by
  cases converted : convert expression with
  | error e => exact .refused e converted
  | ok reordered =>
    obtain ⟨tokens, read, reorder⟩ := convert_eq_ok_iff.mp converted
    cases parsed : ofPrefix reordered with
    | ok t => exact .finished tokens reordered t read reorder parsed
    | error cause =>
      have outcome := outcome_of_toPrefix read reorder
      have failed : render expression = .error (.structureError cause) := by
        rw [render, tree_of_convert converted, parsed]
        rfl
      rw [failed] at outcome
      obtain ⟨first, op, head, kind, same⟩ := outcome.exists_of_error
      cases same
      exact .unfinished tokens reordered first op read reorder head kind parsed

/-- The report without a drawing. -/
def shortReport (expression : String) (tokens reordered : List Token) (calls : String) : String :=
  "\n".intercalate [expression, Token.traceAll tokens, Token.traceAll reordered, calls]

theorem shortReport_eq (expression : String) (tokens reordered : List Token) (calls : String) :
    shortReport expression tokens reordered calls =
      expression ++ "\n" ++ Token.traceAll tokens ++ "\n" ++ Token.traceAll reordered ++ "\n" ++ calls := by
  simp only [shortReport, String.intercalate_cons_cons, String.intercalate_singleton, String.append_assoc]

theorem report_of_convert_error {e : SyntaxError} (failed : convert expression = .error e) (showTree : Bool) :
    report expression showTree = .error (.syntaxError e) := by
  rcases convert_error_cases failed with unread | ⟨tokens, read, unordered⟩
  · rw [report, unread]
    rfl
  · rw [report, read]
    show ((toPrefix tokens).mapError Failure.syntaxError >>= _) = _
    rw [unordered]
    rfl

theorem report_of_toPrefix (read : tokenize expression = .ok tokens) (reorder : toPrefix tokens = .ok reordered)
    (showTree : Bool) :
    report expression showTree = ((ofPrefix reordered).mapError Failure.structureError).bind fun t =>
      if showTree then
        (t.view?.mapError Failure.structureError).bind fun view =>
          .ok (shortReport expression tokens reordered t.callText ++ "\n" ++ view)
      else .ok (shortReport expression tokens reordered t.callText) := by
  simp only [shortReport_eq]
  rw [report, read]
  show ((toPrefix tokens).mapError Failure.syntaxError >>= _) = _
  rw [reorder]
  -- With the first two stages gone, both sides are the same stages that are left.
  rfl

section

variable (read : tokenize expression = .ok tokens) (reorder : toPrefix tokens = .ok reordered)

include read reorder

theorem report_of_ofPrefix_error {cause : StructureError} (failed : ofPrefix reordered = .error cause)
    (showTree : Bool) : report expression showTree = .error (.structureError cause) := by
  rw [report_of_toPrefix read reorder, failed]
  rfl

theorem report_of_ofPrefix (parsed : ofPrefix reordered = .ok t) :
    report expression false = .ok (shortReport expression tokens reordered t.callText) := by
  rw [report_of_toPrefix read reorder, parsed]
  rfl

theorem report_tree_of_ofPrefix (parsed : ofPrefix reordered = .ok t) :
    report expression true = if 256 < t.depth then .error (.structureError (.tooDeep t.depth 256))
      else .ok (shortReport expression tokens reordered t.callText ++ "\n" ++ t.drawing) := by
  rw [report_of_toPrefix read reorder, parsed]
  show (t.view?.mapError Failure.structureError).bind _ = _
  rw [view?, drawingLimit]
  split
  · rfl
  · rfl

theorem render_of_ofPrefix_error {cause : StructureError} (failed : ofPrefix reordered = .error cause) :
    render expression = .error (.structureError cause) := by
  rw [render, tree_of_convert (convert_eq_ok_iff.mpr ⟨tokens, read, reorder⟩), failed]
  rfl

theorem tree_of_ofPrefix (parsed : ofPrefix reordered = .ok t) : tree expression = .ok t :=
  tree_eq_ok_iff.mpr ⟨reordered, convert_eq_ok_iff.mpr ⟨tokens, read, reorder⟩, parsed⟩

end

/-! ## Reports -/

/-- Without a drawing a report fails exactly if there is no call text, and with the same error. -/
theorem report_eq_error_iff {failure : Failure} :
    report expression false = .error failure ↔ render expression = .error failure := by
  cases course expression with
  | refused e failed => rw [report_of_convert_error failed, render_of_convert_error failed]
  | unfinished tokens reordered first op read reorder head kind failed =>
    rw [report_of_ofPrefix_error read reorder failed, render_of_ofPrefix_error read reorder failed]
  | finished tokens reordered t read reorder parsed =>
    rw [report_of_ofPrefix read reorder parsed, render_of_tree (tree_of_ofPrefix read reorder parsed)]
    simp

/-- Without a drawing a report has the expression, both traces and the call text. -/
theorem report_eq_ok_iff {text : String} :
    report expression false = .ok text ↔ ∃ tokens reordered calls, tokenize expression = .ok tokens ∧
      convert expression = .ok reordered ∧ render expression = .ok calls ∧
      text = shortReport expression tokens reordered calls := by
  cases course expression with
  | refused e failed => simp [report_of_convert_error failed, failed]
  | unfinished tokens reordered first op read reorder head kind failed =>
    simp [report_of_ofPrefix_error read reorder failed, render_of_ofPrefix_error read reorder failed]
  | finished tokens reordered t read reorder parsed =>
    have converted := convert_eq_ok_iff.mpr ⟨tokens, read, reorder⟩
    have rendered := render_of_tree (tree_of_ofPrefix read reorder parsed)
    simp [report_of_ofPrefix read reorder parsed, read, converted, rendered, eq_comm]

/-- With a drawing a report fails as it does without, or because the tree is too deep. -/
theorem report_tree_eq_error_iff {failure : Failure} :
    report expression true = .error failure ↔ report expression false = .error failure ∨
      ∃ t, tree expression = .ok t ∧ 256 < t.depth ∧ failure = .structureError (.tooDeep t.depth 256) := by
  cases course expression with
  | refused e failed => simp [report_of_convert_error failed, tree_of_convert_error failed]
  | unfinished tokens reordered first op read reorder head kind failed =>
    have converted := convert_eq_ok_iff.mpr ⟨tokens, read, reorder⟩
    simp [report_of_ofPrefix_error read reorder failed, tree_of_convert converted, failed, Except.mapError]
  | finished tokens reordered t read reorder parsed =>
    rw [report_tree_of_ofPrefix read reorder parsed, report_of_ofPrefix read reorder parsed,
      tree_of_ofPrefix read reorder parsed]
    split
    · next deep => simp [deep, eq_comm]
    · next shallow => simp [shallow]

/-- With a drawing a report succeeds if it does without and the tree is not too deep. Then the drawing comes last. -/
theorem report_tree_eq_ok_iff {text : String} :
    report expression true = .ok text ↔ ∃ short t, report expression false = .ok short ∧ tree expression = .ok t ∧
      t.depth ≤ 256 ∧ text = short ++ "\n" ++ t.drawing := by
  cases course expression with
  | refused e failed => simp [report_of_convert_error failed]
  | unfinished tokens reordered first op read reorder head kind failed =>
    simp [report_of_ofPrefix_error read reorder failed]
  | finished tokens reordered t read reorder parsed =>
    rw [report_tree_of_ofPrefix read reorder parsed, report_of_ofPrefix read reorder parsed,
      tree_of_ofPrefix read reorder parsed]
    split
    · next deep => simp [Nat.not_le.mpr deep]
    · next shallow => simp [Nat.le_of_not_lt shallow, eq_comm]

/-! ## Runs -/

/-- What a run that fails can tell. -/
inductive Tells (expression : String) (showTree : Bool) : (told : String) → Prop where
  /-- Where the expression is wrong. -/
  | refused (e : SyntaxError) (failed : convert expression = .error e) :
      Tells expression showTree (e.toDiagnostic.display expression)
  /-- Which operator has no first operand. -/
  | unfinished (reordered : List Token) (first : Token) (op : Operator)
      (converted : convert expression = .ok reordered) (head : reordered.head? = some first)
      (kind : first.kind = .operator op) :
      Tells expression showTree ("could not render expression: Expected a first operand for " ++ first.trace ++
        ": Prefix sequence ended before the call tree was complete")
  /-- How deep the tree is, if it was to be drawn. -/
  | tooDeep (drawn : showTree = true) (t : CallTree) (parsed : tree expression = .ok t) (deep : 256 < t.depth) :
      Tells expression showTree ("could not render expression: Call tree is " ++ toString t.depth ++
        " levels deep, too deep to draw (at most 256)")

theorem describe_structureError (expression : String) (cause : StructureError) :
    describe expression (.structureError cause) = "could not render expression: " ++ ": ".intercalate cause.chain := rfl

/-- The text about a missing operand names the operator by its trace form. -/
theorem describe_oneOperand (expression : String) {token : Token} {op : Operator} (kind : token.kind = .operator op) :
    describe expression (.structureError (.oneOperand op)) =
      "could not render expression: Expected a first operand for " ++ token.trace ++
        ": Prefix sequence ended before the call tree was complete" := by
  have opening : "could not render expression: Expected a first operand for " =
    "could not render expression: " ++ "Expected a first operand for " := by decide
  have closing : ": Prefix sequence ended before the call tree was complete" =
    ": " ++ "Prefix sequence ended before the call tree was complete" := by decide
  rw [opening, closing, describe_structureError, chain_oneOperand kind]
  simp only [String.intercalate_cons_cons, String.intercalate_singleton, String.append_assoc]

theorem describe_tooDeep (expression : String) (depth : Nat) :
    describe expression (.structureError (.tooDeep depth 256)) =
      "could not render expression: Call tree is " ++ toString depth ++
        " levels deep, too deep to draw (at most 256)" := by
  have opening : "could not render expression: Call tree is " =
    "could not render expression: " ++ "Call tree is " := by decide
  rw [opening, describe_structureError, chain_tooDeep]
  simp only [String.intercalate_singleton, String.append_assoc]

theorem tells_of_report_error {failure : Failure} (failed : report expression showTree = .error failure) :
    Tells expression showTree (describe expression failure) := by
  cases course expression with
  | refused e refused =>
    rw [report_of_convert_error refused] at failed
    cases failed
    exact .refused e refused
  | unfinished tokens reordered first op read reorder head kind unfinished =>
    rw [report_of_ofPrefix_error read reorder unfinished] at failed
    cases failed
    rw [describe_oneOperand expression kind]
    exact .unfinished reordered first op (convert_eq_ok_iff.mpr ⟨tokens, read, reorder⟩) head kind
  | finished tokens reordered t read reorder parsed =>
    cases showTree with
    | false =>
      rw [report_of_ofPrefix read reorder parsed] at failed
      cases failed
    | true =>
      rw [report_tree_of_ofPrefix read reorder parsed] at failed
      split at failed
      · next deep =>
        cases failed
        rw [describe_tooDeep]
        exact .tooDeep rfl t (tree_of_ofPrefix read reorder parsed) deep
      · cases failed

/-- What a run leaves behind, but for the log: the report, or the reason why there is none and nothing else. -/
inductive Answers (expression : String) (showTree : Bool) (outcome : Outcome) : Prop where
  | reported (text : String) (reported : report expression showTree = .ok text) (exitCode : outcome.exitCode = 0)
      (stdout : outcome.stdout = text ++ "\n") (stderr : outcome.stderr = "")
  | failed (failure : Failure) (failed : report expression showTree = .error failure) (told : String)
      (tells : Tells expression showTree told) (exitCode : outcome.exitCode = 1) (stdout : outcome.stdout = "")
      (stderr : outcome.stderr = told ++ "\n")

theorem answers_run {arguments : List String} {o : Options} (request : Request.ofArguments arguments = .convert o) :
    Answers o.expression (o.trees ≠ 0) (run arguments) := by
  rw [run, request, Request.run]
  cases result : report o.expression (o.trees ≠ 0) with
  | ok text =>
    have outcome : o.run = { exitCode := 0, stdout := text ++ "\n", log := o.run.log } := by
      simp only [Options.run, result]
    rw [outcome]
    exact .reported text result rfl rfl rfl
  | error failure =>
    have outcome : o.run =
        { exitCode := 1, stderr := describe o.expression failure ++ "\n", log := o.run.log } := by
      simp only [Options.run, result]
    rw [outcome]
    exact .failed failure result _ (tells_of_report_error result) rfl rfl rfl

/-- Every expression can be given on the command line, with the flag for the drawing and without. -/
theorem exists_arguments (expression : String) (showTree : Bool) :
    ∃ arguments o, Request.ofArguments arguments = .convert o ∧ o.expression = expression ∧
      decide (o.trees ≠ 0) = showTree := by
  cases showTree with
  | false =>
    refine ⟨["--", expression], { words := [expression] }, rfl, ?_, rfl⟩
    rw [Options.expression_of_words (by simp), String.intercalate_singleton]
  | true =>
    refine ⟨["--tree", "--", expression], { words := [expression], trees := 1 }, rfl, ?_, rfl⟩
    rw [Options.expression_of_words (by simp), String.intercalate_singleton]

/-- The command line and the library agree on every expression: a report fails exactly if there is no call text and
with the same error, and otherwise it has the expression, its traces and the call text. The drawing only comes behind
that, if the tree is not too deep. A run gives the report, or nothing but one of the texts that `Tells` lists. -/
theorem run_agrees_with_render (expression : String) :
    (∀ failure, report expression false = .error failure ↔ render expression = .error failure) ∧
    (∀ text, report expression false = .ok text ↔ ∃ tokens reordered calls, tokenize expression = .ok tokens ∧
      convert expression = .ok reordered ∧ render expression = .ok calls ∧
      text = "\n".intercalate [expression, Token.traceAll tokens, Token.traceAll reordered, calls]) ∧
    (∀ failure, report expression true = .error failure ↔ report expression false = .error failure ∨
      ∃ t, tree expression = .ok t ∧ 256 < t.depth ∧ failure = .structureError (.tooDeep t.depth 256)) ∧
    (∀ text, report expression true = .ok text ↔ ∃ short t, report expression false = .ok short ∧
      tree expression = .ok t ∧ t.depth ≤ 256 ∧ text = short ++ "\n" ++ t.drawing) ∧
    (∀ arguments o, Request.ofArguments arguments = .convert o → o.expression = expression →
      Answers expression (o.trees ≠ 0) (run arguments)) ∧
    ∀ showTree, ∃ arguments o, Request.ofArguments arguments = .convert o ∧ o.expression = expression ∧
      decide (o.trees ≠ 0) = showTree := by
  refine ⟨?_, ?_, ?_, ?_, ?_, exists_arguments expression⟩
  · intro failure
    exact report_eq_error_iff
  · intro text
    exact report_eq_ok_iff
  · intro failure
    exact report_tree_eq_error_iff
  · intro text
    exact report_tree_eq_ok_iff
  · rintro arguments o request rfl
    exact answers_run request

theorem run_agrees_with_render_minus :
    ∃ o : Options, Request.ofArguments ["--tree", "1-"] = .convert o ∧ o.expression = "1-" ∧
      Answers "1-" (o.trees ≠ 0) (run ["--tree", "1-"]) ∧ (run ["--tree", "1-"]).exitCode = 1 := by
  have answers := (run_agrees_with_render "1-").2.2.2.2.1 ["--tree", "1-"] { words := ["1-"], trees := 1 }
    (by decide +kernel) (by decide +kernel)
  refine ⟨{ words := ["1-"], trees := 1 }, by decide +kernel, by decide +kernel, answers, ?_⟩
  cases answers with
  | failed failure failed told tells exitCode stdout stderr => exact exitCode
  | reported text reported exitCode stdout stderr =>
    have fails : ¬ (report "1-" true).isOk := by decide +kernel
    have reported' : report "1-" true = .ok text := reported
    simp [reported', Except.isOk, Except.toBool] at fails

end Polish.CommandLine
