import TodLang.Binding.Program
import TodLang.Tree.Outline
/-!
The dump of a program's symbols: each symbol on a line, below a structure its fields and below a
function what is declared in it.
-/

namespace TodLang

namespace Symbol

/-- A symbol as the dump describes it. -/
def detail (s : Symbol) : String :=
  match s.asVariable? with
  | some v => v.name ++ " " ++ v.type.text ++ " [" ++ s.fingerprint ++ "]"
  | none => s.name ++ " [" ++ s.fingerprint ++ "]"

end Symbol

namespace BoundProgram

/-- What is declared in the first function with a given fingerprint. -/
def localsOf (p : BoundProgram) (f : FunctionSymbol) : List Symbol :=
  ((p.functions.find? (·.symbol.fingerprint == f.fingerprint)).map BoundFunction.locals).getD []

/-- The line of a symbol with the lines below it. -/
def symbolOutline (p : BoundProgram) (s : Symbol) : Outline :=
  .node s.kind.label s.detail <|
    match s with
    | .struct d => d.fields.map fun field => .leaf "Field" (field.name ++ " " ++ field.type.text)
    | .function f => (p.localsOf f).map fun inner => .leaf inner.kind.label inner.detail
    | _ => []

/-- The dump of a program's symbols. -/
def symbolsText (p : BoundProgram) (color : Bool) : String :=
  Outline.render color 0 (p.symbols.map p.symbolOutline)

end BoundProgram

end TodLang
