/-!
The options of the command line.
-/

namespace TodLang

/-- How the command is called. -/
def usage : String :=
"Usage: todc <file.tod> [options]

Options:
  --tokens            print the token stream
  --ast               print the syntax tree
  --symbols           print the bound symbols
  --no-hash-comments  treat '#' as an ordinary character
  --no-color          disable colored output"

/-- What the command is asked to do. -/
structure Options where
  input : String
  hashComments : Bool := true
  showTokens : Bool := false
  showTree : Bool := false
  showSymbols : Bool := false
  color : Bool := true
  deriving DecidableEq, Repr

/-- Why arguments are no options. -/
inductive OptionsError where
  | missingInput
  | unknownArgument (argument : String)
  | multipleInputs (first second : String)
  deriving DecidableEq, Repr

namespace OptionsError

def message : OptionsError → String
  | missingInput => "no input file provided"
  | unknownArgument argument => "unknown argument '" ++ argument ++ "'"
  | multipleInputs first second =>
    "more than one input file: '" ++ first ++ "' and '" ++ second ++ "'"

end OptionsError

namespace Options

/-- Reads arguments, given the options and the input so far. The first argument that does not fit
is the error. -/
def readFrom (options : Options) (input : Option String) :
    List String → Except OptionsError Options
  | [] =>
    match input with
    | some input => .ok { options with input }
    | none => .error .missingInput
  | argument :: others =>
    if argument = "--tokens" then readFrom { options with showTokens := true } input others
    else if argument = "--ast" then readFrom { options with showTree := true } input others
    else if argument = "--symbols" then readFrom { options with showSymbols := true } input others
    else if argument = "--no-hash-comments" then
      readFrom { options with hashComments := false } input others
    else if argument = "--no-color" then readFrom { options with color := false } input others
    else if argument.toList.take 2 = ['-', '-'] then .error (.unknownArgument argument)
    else
      match input with
      | some first => .error (.multipleInputs first argument)
      | none => readFrom options (some argument) others

/-- Reads the arguments of the command. -/
def ofArguments (arguments : List String) : Except OptionsError Options :=
  readFrom { input := "" } none arguments

end Options

end TodLang
