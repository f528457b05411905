import TodLang.Source.Path
/-!
The files that a command can read. A directory is a list of files with their paths; what a path
leads to is found step by step, and a step from a file leads nowhere.
-/

namespace TodLang

/-- Why a file cannot be read. -/
inductive ReadFailure where
  | missing
  | denied
  | notDirectory
  | isDirectory
  | notText
  deriving DecidableEq, Repr

namespace ReadFailure

/-- The system's words for a failure. -/
def message : ReadFailure → String
  | missing => "No such file or directory (os error 2)"
  | denied => "Permission denied (os error 13)"
  | notDirectory => "Not a directory (os error 20)"
  | isDirectory => "Is a directory (os error 21)"
  | notText => "stream did not contain valid UTF-8"

end ReadFailure

/-- The text of a file's bytes. -/
def decodeText (bytes : ByteArray) : Except ReadFailure String :=
  match String.fromUTF8? bytes with
  | some text => .ok text
  | none => .error .notText

/-- The files below a directory, each with the names that lead to it. -/
structure Directory where
  files : List (List String × ByteArray)

namespace Directory

/-- A directory with the given files. -/
def ofFiles (files : List (String × ByteArray)) : Directory :=
  ⟨files.map fun file => ((pathSteps file.1).filter (!isIdleStep ·), file.2)⟩

/-- The file at some place. Of several the last counts. -/
def file? (d : Directory) (place : List String) : Option ByteArray :=
  (d.files.reverse.find? (·.1 == place)).map Prod.snd

/-- Whether some file lies below a place. -/
def isDirectory (d : Directory) (place : List String) : Bool :=
  d.files.any fun file => place.length < file.1.length && file.1.take place.length == place

/-- The bytes that the steps of a path lead to from some place. There is no place outside of the
directory that holds a file. -/
def locate (d : Directory) (place : Option (List String)) :
    List String → Except ReadFailure ByteArray
  | [] => .error .isDirectory
  | step :: others =>
    if isIdleStep step then d.locate place others
    else if step = ".." then
      match place with
      | some (name :: names) => d.locate (some (name :: names).dropLast) others
      | _ => d.locate none others
    else
      match place with
      | none => .error .missing
      | some names =>
        match d.file? (names ++ [step]) with
        | some bytes => if others.isEmpty then .ok bytes else .error .notDirectory
        | none =>
          if d.isDirectory (names ++ [step]) then d.locate (some (names ++ [step])) others
          else .error .missing

/-- The text of the file that a path leads to. -/
def read (d : Directory) (path : String) : Except ReadFailure String :=
  if path.isEmpty then .error .missing
  else
    let start := if path.toList.head? = some '/' then none else some []
    match d.locate start (pathSteps path) with
    | .ok bytes => decodeText bytes
    | .error failure => .error failure

end Directory

end TodLang
