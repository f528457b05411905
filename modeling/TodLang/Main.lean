import TodLang.Command.Run
/-!
The command itself: it reads its input from the file system and prints what a run comes to.
-/

namespace TodLang

/-- The number of a system's error, which may come as its negative. -/
def systemNumber (code : UInt32) : UInt32 :=
  min code (-code)

/-- The failure behind a system's error. -/
def readFailure (e : IO.Error) : ReadFailure :=
  match e with
  | .inappropriateType _ code _ =>
    if systemNumber code = 20 then .notDirectory else .isDirectory
  | .permissionDenied .. => .denied
  | _ => .missing

/-- Reads the text of a file. -/
def readInput (path : String) : IO (Except ReadFailure String) := do
  try
    return decodeText (← IO.FS.readBinFile path)
  catch e =>
    return .error (readFailure e)

end TodLang

/-- Runs the command. -/
def main (arguments : List String) : IO UInt32 := do
  let outcome ← match TodLang.Options.ofArguments arguments with
    | .error e => pure e.outcome
    | .ok options => do
      let content ← TodLang.readInput options.input
      pure (options.outcome content)
  IO.print outcome.output
  IO.eprint outcome.errors
  return outcome.code.toUInt32
