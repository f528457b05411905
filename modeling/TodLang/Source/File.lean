import TodLang.Source.Span
/-!
The texts that take part in a compilation. A file is known by its number, the order in which it
was added, and gives its lines back without their terminators.
-/

namespace TodLang

/-- A named text. -/
structure SourceFile where
  name : String
  text : String
  deriving DecidableEq, Repr, Inhabited

/-- The line after a number of line feeds, up to its own line feed or the end of the text. A text
that ends in a line feed has no further, empty line after it. -/
def lineAfter? (feeds : Nat) (text : List Char) : Option (List Char) :=
  match feeds with
  | 0 => if text.isEmpty then none else some (text.takeWhile (· ≠ '\n'))
  | feeds + 1 =>
    match text.dropWhile (· ≠ '\n') with
    | [] => none
    | _ :: rest => lineAfter? feeds rest

theorem lineAfter?_nil (feeds : Nat) : lineAfter? feeds [] = none := by
  cases feeds <;> rfl

/-- A line without the carriage returns at its end. -/
def trimReturns (line : List Char) : List Char :=
  (line.reverse.dropWhile (· = '\r')).reverse

namespace SourceFile

/-- A line by its number, counted from one, without its terminator. -/
def line? (file : SourceFile) (number : Nat) : Option String :=
  if number = 0 then none
  else (lineAfter? (number - 1) file.text.toList).map fun line => String.ofList (trimReturns line)

end SourceFile

/-- All files of a compilation, in the order in which they were added. -/
structure Sources where
  files : Array SourceFile := #[]
  deriving DecidableEq, Repr, Inhabited

namespace Sources

/-- Adds a file and gives its number. -/
def add (sources : Sources) (name text : String) : Nat × Sources :=
  (sources.files.size, { sources with files := sources.files.push ⟨name, text⟩ })

/-- The file with a given number. -/
def file? (sources : Sources) (file : Nat) : Option SourceFile :=
  sources.files[file]?

/-- The name of a file, with a stand-in for a number that no file has. -/
def fileName (sources : Sources) (file : Nat) : String :=
  ((sources.file? file).map SourceFile.name).getD "<unknown>"

/-- The text of a line of a file. -/
def line? (sources : Sources) (file number : Nat) : Option String :=
  (sources.file? file).bind (·.line? number)

end Sources

end TodLang
