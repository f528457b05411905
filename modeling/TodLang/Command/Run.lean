import TodLang.Command.Options
import TodLang.Command.Files
import TodLang.Session
import TodLang.Binding.Outline
/-!
What the command prints, and how it ends. It compiles one source, prints the dumps that it is asked
for, and reports the faults.
-/

namespace TodLang

/-- What a run of the command comes to. -/
structure Outcome where
  code : Nat
  output : String
  errors : String
  deriving DecidableEq, Repr

namespace Outcome

/-- A run that fails with a message. -/
def failure (message : String) : Outcome :=
  ⟨1, "", message ++ "\n"⟩

end Outcome

namespace Token

/-- A token's line in the dump. -/
def dumpLine (t : Token) : String :=
  toString t.span.startLine ++ ":" ++ toString t.span.startColumn ++ "\t" ++ t.kind.name ++ "\t" ++
    t.literal ++ "\n"

end Token

namespace OptionsError

/-- What comes of arguments that are no options. -/
def outcome (e : OptionsError) : Outcome :=
  .failure ("Error: " ++ e.message ++ "\n\n" ++ usage)

end OptionsError

namespace Compilation

/-- The dumps that options ask for. -/
def dumps (c : Compilation) (options : Options) : String :=
  (if options.showTokens then String.join (c.tokens.map Token.dumpLine) else "") ++
    (if options.showTree then treeText c.members options.color else "") ++
    (if options.showSymbols then c.program.symbolsText options.color else "")

/-- The reports of all faults and their number. -/
def reports (c : Compilation) (sources : Sources) (color : Bool) : String :=
  String.join (c.diagnostics.map fun d => d.render sources color ++ "\n") ++
    (if c.hasErrors then toString c.diagnostics.length ++ " error(s) found\n" else "")

/-- What comes of a source that was read and bound. -/
def outcome (c : Compilation) (sources : Sources) (options : Options) : Outcome :=
  ⟨if c.hasErrors then 1 else 0, c.dumps options, c.reports sources options.color⟩

end Compilation

namespace Options

/-- What comes of the text of the input, or of the failure to read it. -/
def outcome (options : Options) (content : Except ReadFailure String) : Outcome :=
  match content with
  | .error failure =>
    .failure ("Error: could not read '" ++ options.input ++ "': " ++ failure.message)
  | .ok text =>
    let start : Session := { hashComments := options.hashComments }
    match start.compile options.input text with
    | (.error d, session) => .failure (d.render session.sources options.color)
    | (.ok compilation, session) => compilation.outcome session.sources options

end Options

/-- Runs the command in a directory. -/
def runCommand (directory : Directory) (arguments : List String) : Outcome :=
  match Options.ofArguments arguments with
  | .error e => e.outcome
  | .ok options => options.outcome (directory.read options.input)

end TodLang
