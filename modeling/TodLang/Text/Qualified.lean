/-!
Names as they are written with a package.
-/

namespace TodLang

/-- A name, behind its package if it has one. -/
def qualified (package : Option String) (name : String) : String :=
  match package with
  | some package => package ++ "::" ++ name
  | none => name

end TodLang
