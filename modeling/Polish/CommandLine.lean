import Polish.Expression

/-!
# The command line

The arguments of a run are flags and the words of an expression. Only a known flag is taken as one, so that
a word may start with a minus, and after `--` everything is a word. A run answers with an exit status, the texts for
the two output channels, and the log records that its verbosity shows.
-/

namespace Polish.CommandLine

/-- The flags. -/
inductive Flag where
  | tree
  | verbose
  | quiet
  | version
  | help
deriving DecidableEq

namespace Flag

/-- The flag with a long name. -/
def ofName? : String → Option Flag
  | "tree" => some tree
  | "verbose" => some verbose
  | "quiet" => some quiet
  | "version" => some version
  | "help" => some help
  | _ => none

/-- The flag with a one-letter name. -/
def ofLetter? : Char → Option Flag
  | 'v' => some verbose
  | 'q' => some quiet
  | 'V' => some version
  | 'h' => some help
  | _ => none

end Flag

/-- What one argument before `--` is. -/
inductive Argument where
  | word (text : String)
  | given (flags : List Flag)
  /-- A long flag with a value after `=`; no flag takes one. -/
  | flagWithValue (flag : Flag)
  /-- The argument `--`, after which everything is a word. -/
  | endOfFlags
deriving DecidableEq

/-- An argument that is neither a long flag nor a cluster of known letters after a minus is a word. -/
def Argument.ofText (text : String) : Argument :=
  match text.toList with
  | ['-', '-'] => .endOfFlags
  | '-' :: '-' :: long =>
    match Flag.ofName? (.ofList (long.takeWhile (· != '='))) with
    | some flag => if long.contains '=' then .flagWithValue flag else .given [flag]
    | none => .word text
  | '-' :: letter :: letters =>
    match (letter :: letters).mapM Flag.ofLetter? with
    | some flags => .given flags
    | none => .word text
  | _ => .word text

/-- The flags and words met so far. -/
structure Options where
  words : List String := []
  trees : Nat := 0
  verbose : Nat := 0
  quiet : Nat := 0
deriving DecidableEq

/-- What a command line asks for. -/
inductive Request where
  | convert (options : Options)
  | version
  | help
  | refused (reason : String)
deriving DecidableEq

/-- Takes note of flags in turn; a flag that asks for something else ends the run. -/
def Options.addFlags (o : Options) : List Flag → Except Request Options
  | [] => .ok o
  | .tree :: rest => { o with trees := o.trees + 1 }.addFlags rest
  | .verbose :: rest => { o with verbose := o.verbose + 1 }.addFlags rest
  | .quiet :: rest => { o with quiet := o.quiet + 1 }.addFlags rest
  | .version :: _ => .error .version
  | .help :: _ => .error .help

/-- Adds words after those met before. -/
def Options.addWords (o : Options) (words : List String) : Options := { o with words := o.words ++ words }

/-- The request that complete options make: a tree at most once, and not louder and quieter together. -/
def Options.toRequest (o : Options) : Request :=
  if 1 < o.trees then .refused "--tree may be given only once"
  else if o.verbose ≠ 0 ∧ o.quiet ≠ 0 then .refused "--quiet cannot be combined with --verbose"
  else .convert o

/-- Reads arguments from left to right, after the options met before. -/
def Options.read (o : Options) : List String → Request
  | [] => o.toRequest
  | text :: rest =>
    match Argument.ofText text with
    | .word word => (o.addWords [word]).read rest
    | .endOfFlags => (o.addWords rest).toRequest
    | .flagWithValue _ => .refused "no flag takes a value"
    | .given flags =>
      match o.addFlags flags with
      | .ok next => next.read rest
      | .error request => request

/-- What the arguments ask for. -/
def Request.ofArguments (arguments : List String) : Request := Options.read {} arguments

/-- The expression that stands in when no word is given. -/
def defaultExpression : String := "-1+(-2 +-5*+8.6)-3"

namespace Options

/-- The words, one blank between them. -/
def expression (o : Options) : String :=
  if o.words = [] then defaultExpression else " ".intercalate o.words

/-- The verbosity of the log: errors alone unless flags raise or lower it, by steps counted in a signed byte. -/
def verbosity (o : Options) : Int := 1 + ((o.verbose : Int) - o.quiet).bmod 256

end Options

/-- The expression, its tokens, its tokens in prefix order and its call text, and on demand its drawing. -/
def report (expression : String) (showTree : Bool) : Except Failure String := do
  let tokens ← (Lexer.tokenize expression).mapError .syntaxError
  let reordered ← (toPrefix tokens).mapError .syntaxError
  let tree ← (CallTree.ofPrefix reordered).mapError .structureError
  let text := expression ++ "\n" ++ Token.traceAll tokens ++ "\n" ++ Token.traceAll reordered ++ "\n" ++ tree.callText
  if showTree then
    let view ← tree.view?.mapError .structureError
    return text ++ "\n" ++ view
  else return text

/-- How a failure is told to the user. -/
def describe (expression : String) : Failure → String
  | .syntaxError e => e.toDiagnostic.display expression
  | .structureError e => "could not render expression: " ++ e.summary

/-- What a run leaves behind. -/
structure Outcome where
  exitCode : Nat
  stdout : String := ""
  stderr : String := ""
  log : List Log.Record := []
deriving DecidableEq

/-- The records about a run before its verbosity is applied. -/
def records (expression : String) : List Log.Record :=
  ⟨.info, "converting " ++ Text.quoted expression⟩ :: Expression.records expression

/-- Converts the expression that the options give. -/
def Options.run (o : Options) : Outcome :=
  let log := Log.visible o.verbosity (records o.expression)
  match report o.expression (o.trees ≠ 0) with
  | .ok text => { exitCode := 0, stdout := text ++ "\n", log }
  | .error failure => { exitCode := 1, stderr := describe o.expression failure ++ "\n", log }

/-- The name and version of the program. -/
def versionText : String := "prefix-converter-cli 0.1.0\n"

/-- How the program is called, in this library's own words, as are the reasons of `Request.refused`. The help text and
the messages that go with a declaration of the flags are not modelled, only the exit statuses. -/
def usageText : String := "usage: prefix-converter-cli [--tree] [-v | -q]... [-V] [-h] [--] [EXPRESSION]...\n"

/-- Answers a request. -/
def Request.run : Request → Outcome
  | .convert options => options.run
  | .version => { exitCode := 0, stdout := versionText }
  | .help => { exitCode := 0, stdout := usageText }
  | .refused reason => { exitCode := 2, stderr := "error: " ++ reason ++ "\n\n" ++ usageText }

/-- A whole run on the given arguments. -/
def run (arguments : List String) : Outcome := (Request.ofArguments arguments).run

end Polish.CommandLine
