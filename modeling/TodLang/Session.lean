import TodLang.Source.Path
import TodLang.Diagnostic
import TodLang.Binding.Program
/-!
Sessions. Sources are compiled one after another. Each that can be read becomes a package under the
stem of its name, with the functions that it makes public, and the sources after it can refer to it.
A source that cannot be read leaves nothing behind but its number.
-/

namespace TodLang

/-- What is kept from source to source. -/
structure Session where
  sources : Sources := {}
  /-- The last number that a variable took. -/
  last : Nat := 0
  /-- The packages of the sources so far, one for each name. -/
  packages : List PackageSymbol := []
  /-- Whether `#` begins a comment. -/
  hashComments : Bool := true
  deriving Repr

/-- A source that was read and bound. -/
structure Compilation where
  file : Nat
  tokens : List Token
  members : List Member
  program : BoundProgram
  deriving Repr

namespace Compilation

/-- The faults of the program. -/
def diagnostics (c : Compilation) : List Diagnostic :=
  c.program.errors.map Diagnostic.ofSemanticError

def hasErrors (c : Compilation) : Bool :=
  !c.diagnostics.isEmpty

end Compilation

/-- The functions that a source makes public: those that won their name in its program and are
declared in the source itself. -/
def exportedFunctions (file : Nat) (program : BoundProgram) : List FunctionSymbol :=
  ((program.symbols.filter fun s => s.declaration?.any fun span => span.file == file).filterMap
    Symbol.asFunction?).filter fun f => f.isPublic && !f.isExternal

namespace Session

def package? (s : Session) (name : String) : Option PackageSymbol :=
  s.packages.find? (·.name == name)

/-- Adds a package, in place of one of the same name. -/
def register (s : Session) (package : PackageSymbol) : Session :=
  { s with packages := s.packages.filter (·.name != package.name) ++ [package] }

/-- Makes a source a package under the stem of its name, if it has one. -/
def registerSource (s : Session) (file : Nat) (name : String) (program : BoundProgram) : Session :=
  match fileStem? name with
  | some stem =>
    s.register
      { name := stem
        functions := exportedFunctions file program
        module := some name }
  | none => s

/-- The members of a source and its tokens, or the fault that keeps it from being read. -/
def read (s : Session) (file : Nat) (text : String) :
    Except Diagnostic (List Token × List Member) :=
  match tokenize file s.hashComments text with
  | .error e => .error (.ofLexicalError e)
  | .ok tokens =>
    match parseProgram tokens with
    | .error e => .error (.ofSyntaxError e)
    | .ok members => .ok (tokens, members)

/-- Compiles a source. -/
def compile (s : Session) (name text : String) : Except Diagnostic Compilation × Session :=
  let (file, sources) := s.sources.add name text
  let s := { s with sources }
  match s.read file text with
  | .error d => (.error d, s)
  | .ok (tokens, members) =>
    let program := bindProgram s.packages s.last members
    (.ok { file, tokens, members, program },
      { s with last := program.last }.registerSource file name program)

end Session

end TodLang
