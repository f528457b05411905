import TodLang.Binding.Program
/-!
Lexical scoping, as a reading of the tree alone. A place in a body is the list of the regions around
it, the nearest first, each with the declarations that stand before the place. A name stands for its
first declaration in the nearest region that has one, else for the program's symbol, else for the
prelude's. `Expression.uses`, `Place.uses` and `programUses` list the uses of names in the order in
which they are bound, each with the regions that it sees.
-/

namespace TodLang

/-- A declaration in the body of a function or of a statement. -/
inductive Declared where
  /-- A local variable, by the name in its declaration and its number. -/
  | localVariable (name : Ident) (id : Nat)
  | parameter (v : Variable)

namespace Declared

def name : Declared → String
  | localVariable n _ => n.name
  | parameter v => v.name

def fingerprint : Declared → String
  | localVariable n id => "LV_" ++ n.name ++ "_" ++ toString id
  | parameter v => "PR_" ++ v.name ++ "_" ++ toString v.id

/-- Whether a symbol is the one of a declaration. -/
def Denotes (d : Declared) (symbol : Symbol) : Prop :=
  match d with
  | localVariable n id =>
    ∃ v : Variable, symbol = .localVariable v ∧ v.name = n.name ∧ v.id = id ∧
      v.declaration = some n.span
  | parameter v => symbol = .parameter v

end Declared

/-- What a name stands for: a declaration of a body, or a symbol of the program or the prelude. -/
inductive Meaning where
  | declared (declaration : Declared)
  | symbol (symbol : Symbol)

namespace Meaning

def fingerprint : Meaning → String
  | declared d => d.fingerprint
  | symbol s => s.fingerprint

/-- The fingerprint of what can be called: a function, or a type that converts. -/
def callable? : Meaning → Option String
  | symbol (.function f) => some f.fingerprint
  | symbol (.type type) => some type.fingerprint
  | _ => none

end Meaning

/-- What a name stands for where given regions are around it, the nearest first. -/
def lexical (program root : Region) (regions : List (List Declared)) (name : String) :
    Option Meaning :=
  match regions.findSome? (·.find? (·.name == name)) with
  | some d => some (.declared d)
  | none => ((program.lookup? name).or (root.lookup? name)).map .symbol

/-- How a name is used. -/
inductive UseForm where
  /-- A name for its value or address, or as the target of an assignment. -/
  | value (name : Ident)
  /-- A name that is called. -/
  | callee (name : Ident)
  /-- A written type, a field, or a function of a package or of a type: names that are looked up
  one after the other, until one stands for nothing. -/
  | other (names : List Ident)

/-- A use of a name and the regions around it. -/
structure Use where
  regions : List (List Declared)
  form : UseForm

/-- Whether a use was recorded with the symbol that lexical scoping gives. -/
def Use.Answered (program root : Region) (u : Use) (recorded : List Resolution) : Prop :=
  match u.form with
  | .value n =>
    recorded = [⟨n, (lexical program root u.regions n.name).map Meaning.fingerprint⟩]
  | .callee n =>
    recorded = [⟨n, (lexical program root u.regions n.name).bind Meaning.callable?⟩]
  | .other names => recorded.map Resolution.name <+: names

instance Use.decidableAnswered (program root : Region) (u : Use) (recorded : List Resolution) :
    Decidable (u.Answered program root recorded) :=
  match u with
  | ⟨_, .value _⟩ => inferInstanceAs (Decidable (recorded = [_]))
  | ⟨_, .callee _⟩ => inferInstanceAs (Decidable (recorded = [_]))
  | ⟨_, .other names⟩ => inferInstanceAs (Decidable (recorded.map Resolution.name <+: names))

/-- Uses and what was recorded for them, use by use. -/
inductive Answers (program root : Region) : List Use → List Resolution → Prop where
  | nil : Answers program root [] []
  | cons {u : Use} {uses : List Use} {recorded others : List Resolution}
      (first : u.Answered program root recorded) (rest : Answers program root uses others) :
      Answers program root (u :: uses) (recorded ++ others)

mutual

/-- The uses of names in an expression with given regions around it. Behind `main`, the name that
it speaks of sees no region of the body; arguments and values do. -/
def Expression.uses (regions : List (List Declared)) : Expression → List Use
  | .literal _ | .this _ => []
  | .parenthesized _ inner _ => inner.uses regions
  | .name n => [⟨regions, .value n⟩]
  | .assignment target value => value.uses regions ++ [⟨regions, .value target⟩]
  | .call callee arguments _ =>
    Expression.usesAll regions arguments ++ [⟨regions, .callee callee⟩]
  | .cast type arguments _ =>
    Expression.usesAll regions arguments ++ [⟨regions, .other [type.name]⟩]
  | .packageCall package callee arguments _ =>
    Expression.usesAll regions arguments ++ [⟨regions, .other [package, callee]⟩]
  | .typeCall receiver callee arguments _ =>
    Expression.usesAll regions arguments ++ [⟨regions, .other [receiver, callee]⟩]
  | .unary _ operand => operand.uses regions
  | .binary left _ right => left.uses regions ++ right.uses regions
  | .edit target _ value => value.uses regions ++ [⟨regions, .value target⟩]
  | .step target _ => [⟨regions, .value target⟩]
  | .fieldAccess object field => [⟨regions, .other [object, field]⟩]
  | .fieldAssignment object field value =>
    value.uses regions ++ [⟨regions, .other [object, field]⟩]
  | .arrayAccess array index _ => array.uses regions ++ index.uses regions
  | .arrayAssignment array index value =>
    array.uses regions ++ index.uses regions ++ value.uses regions
  | .reference _ n => [⟨regions, .value n⟩]
  | .dereference _ operand => operand.uses regions
  | .make _ type arguments _ =>
    ⟨regions, .other [type.name]⟩ :: Expression.usesAll regions arguments
  | .makeSized _ type length _ => ⟨regions, .other [type.name]⟩ :: length.uses regions
  | .makeArray _ type elements _ =>
    ⟨regions, .other [type.name]⟩ :: Expression.usesAll regions elements
  | .makeStruct _ type fields _ =>
    ⟨regions, .other [type.name]⟩ :: Expression.usesAll regions fields
  | .main _ (.call callee arguments _) =>
    Expression.usesAll regions arguments ++ [⟨[], .callee callee⟩]
  | .main _ (.assignment target value) => value.uses regions ++ [⟨[], .value target⟩]
  | .main _ inner => inner.uses []

/-- The uses of names in expressions one after another. -/
def Expression.usesAll (regions : List (List Declared)) : List Expression → List Use
  | [] => []
  | e :: others => e.uses regions ++ Expression.usesAll regions others

end

/-- The uses of names in a variable's declaration: in its value, and then in its written type. The
variable itself is not declared yet. -/
def VariableDeclaration.uses (regions : List (List Declared)) (d : VariableDeclaration) :
    List Use :=
  d.value.elim [] (Expression.uses regions) ++
    (d.type.map fun clause => ⟨regions, .other [clause.name]⟩).toList

/-- A place in a body: what is declared before it in the region that it is in and in the regions
around that one, and the last number that a variable took. -/
structure Place where
  inner : List Declared
  outer : List (List Declared)
  last : Nat

namespace Place

/-- The regions around a place, the nearest first. -/
def regions (p : Place) : List (List Declared) :=
  p.inner :: p.outer

/-- The beginning of a new region. -/
def enter (p : Place) : Place :=
  { inner := [], outer := p.regions, last := p.last }

/-- A place behind a region that ends at another place. -/
def resume (p ending : Place) : Place :=
  { p with last := ending.last }

/-- The place behind the declaration of a variable. -/
def declare (p : Place) (name : Ident) : Place :=
  { p with inner := p.inner ++ [.localVariable name (p.last + 1)], last := p.last + 1 }

mutual

/-- The place behind a statement. -/
def after (p : Place) : Statement → Place
  | .block _ statements _ => p.resume (p.enter.afterAll statements)
  | .declaration d => p.declare d.name
  | .ifThen _ _ body => p.resume (p.enter.after body)
  | .ifElse _ _ body _ alternative =>
    (p.resume (p.enter.after body)).resume
      ((p.resume (p.enter.after body)).enter.after alternative)
  | .return _ _ => p
  | .for _ init _ step body =>
    p.resume (((p.enter.declare init.name).after step).enter.after body)
  | .while _ _ body => p.resume (p.enter.after body)
  | .break _ => p
  | .continue _ => p
  | .expression _ => p

/-- The place behind statements one after another. -/
def afterAll (p : Place) : List Statement → Place
  | [] => p
  | s :: others => (p.after s).afterAll others

end

mutual

/-- The uses of names in a statement. A block, a branch, the body of a loop and the head of a `for`
are each a region, and the body of a `for` is one inside its head. -/
def uses (p : Place) : Statement → List Use
  | .block _ statements _ => p.enter.usesAll statements
  | .declaration d => d.uses p.regions
  | .ifThen _ condition body => condition.uses p.regions ++ p.enter.uses body
  | .ifElse _ condition body _ alternative =>
    condition.uses p.regions ++ p.enter.uses body ++
      (p.resume (p.enter.after body)).enter.uses alternative
  | .return _ value => value.elim [] (Expression.uses p.regions)
  | .for _ init condition step body =>
    let head := p.enter.declare init.name
    init.uses p.enter.regions ++ condition.uses head.regions ++ head.uses step ++
      (head.after step).enter.uses body
  | .while _ condition body => condition.uses p.regions ++ p.enter.uses body
  | .break _ => []
  | .continue _ => []
  | .expression e => e.uses p.regions

/-- The uses of names in statements one after another. -/
def usesAll (p : Place) : List Statement → List Use
  | [] => []
  | s :: others => p.uses s ++ (p.after s).usesAll others

end

/-- The beginning of a function's body: its parameters are declared in the region of the body. -/
def ofFunction (symbol : FunctionSymbol) (last : Nat) : Place :=
  { inner := symbol.parameters.map .parameter, outer := [], last }

/-- The beginning of a statement outside all functions. -/
def ofStatement (last : Nat) : Place :=
  { inner := [], outer := [], last }

end Place

/-- The uses of names in the bodies of a program, the values of its global variables and its other
statements, given the symbols of its functions and the last number that a variable took. -/
def programUses (last : Nat) : List Member → List FunctionSymbol → List Use
  | [], _ => []
  | .function f :: others, symbol :: symbols =>
    let place := Place.ofFunction symbol last
    place.usesAll f.body.statements ++
      programUses (place.afterAll f.body.statements).last others symbols
  | .statement (.declaration d) :: others, symbols =>
    d.value.elim [] (Expression.uses []) ++ programUses last others symbols
  | .statement s :: others, symbols =>
    (Place.ofStatement last).uses s ++
      programUses ((Place.ofStatement last).after s).last others symbols
  | _ :: others, symbols => programUses last others symbols

/-- The last number that a variable takes in the bodies of a program. -/
def programLast (last : Nat) : List Member → List FunctionSymbol → Nat
  | [], _ => last
  | .function f :: others, symbol :: symbols =>
    programLast ((Place.ofFunction symbol last).afterAll f.body.statements).last others symbols
  | .statement (.declaration _) :: others, symbols => programLast last others symbols
  | .statement s :: others, symbols =>
    programLast ((Place.ofStatement last).after s).last others symbols
  | _ :: others, symbols => programLast last others symbols

end TodLang
