import TodLang.Binding.Walk
/-!
Programs. First all members are declared, so that they see each other whatever their order: the
packages, what is used of them, the structures and then their fields, the functions, the global
variables. Then the bodies, the values of global variables and the other statements are bound, in
the order in which they are written.
-/

namespace TodLang

/-- A function and the symbols that are declared in it: those of its own region, then those of the
regions inside, in the order in which they end. -/
structure BoundFunction where
  symbol : FunctionSymbol
  locals : List Symbol
  deriving Repr, BEq, Inhabited

/-- A program and what was found in it. -/
structure BoundProgram where
  /-- The symbols of the program's own region, in the order of their names. -/
  symbols : List Symbol
  /-- The functions with a body, in the order in which they are written. -/
  functions : List BoundFunction
  findings : List Finding
  /-- The last number that a variable took. -/
  last : Nat
  deriving Repr

namespace BoundProgram

/-- The uses of names, in the order in which they were bound. -/
def resolutions (p : BoundProgram) : List Resolution :=
  p.findings.filterMap Finding.resolution?

/-- The faults, in the order in which they were found. -/
def errors (p : BoundProgram) : List SemanticError :=
  p.findings.filterMap Finding.error?

def symbol? (p : BoundProgram) (name : String) : Option Symbol :=
  p.symbols.find? (·.name == name)

def function? (p : BoundProgram) (name : String) : Option BoundFunction :=
  p.functions.find? (·.symbol.name == name)

/-- The uses of one name. -/
def resolutionsOf (p : BoundProgram) (name : String) : List Resolution :=
  p.resolutions.filter (·.name.name == name)

end BoundProgram

namespace Walk

/-- Declares a package. It is resolved if a package of its name is known; of several known ones the
last counts. -/
def packageReference (known : List PackageSymbol) (w : Walk) (span : Span) (name : Ident) : Walk :=
  let package := (known.reverse.find? (·.name == name.name)).getD { name := name.name }
  w.declare (.package { package with declaration := some span }) name.span

/-- Declares the functions of a package in the program. -/
def packageUse (w : Walk) (name : Ident) : Walk :=
  match w.scope.lookupPackage? name.name with
  | some package =>
    package.functions.foldl (fun w f => w.declare (.function f) name.span)
      (w.report [.resolved name package.fingerprint])
  | none => w.report [.fault (.undefinedPackage name.name) name.span, .unresolved name]

/-- The fields of a structure. A second field of one name is a fault and takes no number. -/
def fields (w : Walk) (known : List Variable) : List Parameter → List Variable × Walk
  | [] => (known, w)
  | field :: others =>
    let (type, w) := w.type field.type
    if known.any (·.name == field.name.name) then
      (w.report [.fault (.alreadyDeclared field.name.name) field.name.span]).fields known others
    else
      w.countVariable.fields (known ++ [w.newVariable field.name false type]) others

/-- Declares a structure without its fields, and says whether it was the first of its name. -/
def structName (w : Walk) (d : StructDeclaration) : Bool × Walk :=
  (!w.scope.inner.declares d.name.name,
    w.declare (.struct ⟨d.name.name, [], some (Member.struct d).span⟩) d.name.span)

/-- Declares structures without their fields, and gives those that were the first of their name. -/
def structNames (w : Walk) : List StructDeclaration → List StructDeclaration × Walk
  | [] => ([], w)
  | d :: others =>
    let (isFirst, w) := w.structName d
    let (accepted, w) := w.structNames others
    (if isFirst then d :: accepted else accepted, w)

/-- Gives a declared structure its fields. -/
def structFields (w : Walk) (d : StructDeclaration) : Walk :=
  let (fields, w) := w.fields [] d.fields
  { w with scope := { w.scope with inner := w.scope.inner.setFields d.name.name fields } }

/-- The parameters of a function. -/
def parameters (w : Walk) : List Parameter → List Variable × Walk
  | [] => ([], w)
  | p :: others =>
    let (type, w) := w.type p.type
    let (following, rest) := w.countVariable.parameters others
    (w.newVariable p.name false type :: following, rest)

/-- The type that a function gives back. -/
def returnType (w : Walk) : Option TypeClause → Ty × Walk
  | some clause => w.type clause
  | none => (.void, w)

/-- The symbol of a function. -/
def signature (w : Walk) (name : Ident) (parameters : List Parameter)
    (returnType : Option TypeClause) (span : Span) : FunctionSymbol × Walk :=
  let (parameters, w) := w.parameters parameters
  let (returnType, w) := w.returnType returnType
  ({ name := name.name, parameters, returnType, declaration := some span }, w)

/-- Declares the functions, and gives the symbols of those with a body. -/
def signatures (w : Walk) : List Member → List FunctionSymbol × Walk
  | [] => ([], w)
  | member :: others =>
    match member with
    | .function f =>
      let (symbol, w) := w.signature f.name f.parameters f.returnType member.span
      let symbol := { symbol with isPublic := f.visibility.isSome }
      let (symbols, w) := (w.declare (.function symbol) f.name.span).signatures others
      (symbol :: symbols, w)
    | .external e =>
      let (symbol, w) := w.signature e.name e.parameters e.returnType member.span
      (w.declare (.function symbol.asExternal) e.name.span).signatures others
    | _ => w.signatures others

end Walk

/-- The packages that a program refers to, each with the region of its member. -/
def packageReferences (members : List Member) : List (Span × Ident) :=
  members.filterMap fun member =>
    match member with
    | .packageReference _ name => some (member.span, name)
    | _ => none

/-- The names of the packages whose functions a program uses without their package. -/
def packageUses (members : List Member) : List Ident :=
  members.filterMap fun
    | .packageUse _ name => some name
    | _ => none

/-- The structures of a program. -/
def structDeclarations (members : List Member) : List StructDeclaration :=
  members.filterMap fun
    | .struct d => some d
    | _ => none

/-- The global variables of a program. -/
def globalVariables (members : List Member) : List VariableDeclaration :=
  members.filterMap fun
    | .statement (.declaration d) => some d
    | _ => none

namespace Walk

/-- Declares all members of a program, and gives the symbols of the functions with a body. -/
def declareMembers (known : List PackageSymbol) (w : Walk) (members : List Member) :
    List FunctionSymbol × Walk :=
  let w := (packageReferences members).foldl
    (fun w reference => w.packageReference known reference.1 reference.2) w
  let w := (packageUses members).foldl packageUse w
  let (accepted, w) := w.structNames (structDeclarations members)
  let w := accepted.foldl structFields w
  let (symbols, w) := w.signatures members
  (symbols, (globalVariables members).foldl (declareVariable · .globalVariable ·) w)

/-- Declares the parameters of a function in its region. -/
def declareParameters (w : Walk) (opening : Span) (parameters : List Variable) : Walk :=
  parameters.foldl (fun w p => w.declare (.parameter p) (p.declaration.getD opening)) w

/-- Binds the body of a function, and gives the symbols that are declared in it. -/
def functionBody (w : Walk) (symbol : FunctionSymbol) (body : Block) : BoundFunction × Walk :=
  let inside := ({ w with closed := [] }.enter.declareParameters body.opening
    symbol.parameters).statements body.statements
  (⟨symbol, inside.scope.inner.symbols ++ inside.closed⟩, { inside.leave with closed := [] })

/-- Binds a statement outside all functions, in a region of its own. -/
def globalStatement (w : Walk) (s : Statement) : Walk :=
  { (w.enter.statement s).leave with closed := [] }

/-- Binds the members of a program, given the symbols of the functions with a body. -/
def bindMembers (w : Walk) : List Member → List FunctionSymbol → List BoundFunction × Walk
  | [], _ => ([], w)
  | .function f :: others, symbol :: symbols =>
    let (bound, w) := w.functionBody symbol f.body
    let (functions, w) := w.bindMembers others symbols
    (bound :: functions, w)
  | .statement (.declaration d) :: others, symbols =>
    (w.optionalExpression d.value).bindMembers others symbols
  | .statement s :: others, symbols => (w.globalStatement s).bindMembers others symbols
  | _ :: others, symbols => w.bindMembers others symbols

end Walk

/-- Binds a program, given the packages that are known and the last number that a variable took
before. -/
def bindProgram (known : List PackageSymbol) (last : Nat) (members : List Member) : BoundProgram :=
  let start : Walk :=
    { scope := (Scope.root (prelude (last + typeFunctionIds))).enter
      last := last + typeFunctionIds + preludeIds
      typeFunctions := typeFunctions last }
  let (symbols, declared) := start.declareMembers known members
  let (functions, bound) := declared.bindMembers members symbols
  { symbols := bound.scope.inner.symbols
    functions
    findings := bound.findings
    last := bound.last }

end TodLang
