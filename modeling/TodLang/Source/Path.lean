/-!
Paths, as names of sources. The parts of a path stand between slashes; empty parts and single dots
count for nothing.
-/

namespace TodLang

/-- The parts of a text between the characters equal to a given one. -/
def splitAtChar (separator : Char) : List Char → List (List Char)
  | [] => [[]]
  | c :: rest =>
    if c = separator then [] :: splitAtChar separator rest
    else
      match splitAtChar separator rest with
      | [] => [[c]]
      | first :: others => (c :: first) :: others

/-- The steps of a path from part to part, the idle ones too. -/
def pathSteps (path : String) : List String :=
  (splitAtChar '/' path.toList).map String.ofList

/-- Whether a step of a path leads nowhere. -/
def isIdleStep (step : String) : Bool :=
  step == "" || step == "."

/-- The name of the file that a path leads to, if its last part is a name. -/
def fileName? (path : String) : Option String :=
  match (pathSteps path).reverse.find? (!isIdleStep ·) with
  | some ".." => none
  | last => last

/-- A file's name without what follows its last dot. A dot at the beginning is part of the name. -/
def stemOf (name : String) : String :=
  let back := name.toList.reverse
  match back.dropWhile (· ≠ '.') with
  | [] => name
  | [_] => name
  | _ :: front => String.ofList front.reverse

/-- The stem of the file that a path leads to. -/
def fileStem? (path : String) : Option String :=
  (fileName? path).map stemOf

theorem splitAtChar_ne_nil (separator : Char) (text : List Char) :
    splitAtChar separator text ≠ [] := by
  cases text with
  | nil => simp [splitAtChar]
  | cons c rest =>
    unfold splitAtChar
    split
    · simp
    · split <;> simp

end TodLang
