import TodLang.Binding.Program
/-!
The references of a program: the places of the tree where names are looked up, in the order in which
they are bound. A reference has a name of its own and perhaps a second one, a function of a package
or of a type or a field, which is looked up only if the first is found. The lists here are read off
the tree alone.
-/

namespace TodLang

mutual

/-- The names in a written type, in the order in which they are written. -/
def TypeClause.names : TypeClause → List Ident
  | ⟨package, name, arguments, _⟩ => package.toList ++ name :: TypeClause.namesAll arguments

def TypeClause.namesAll : List TypeClause → List Ident
  | [] => []
  | clause :: others => clause.names ++ TypeClause.namesAll others

end

/-- A place where names are looked up, with what is needed for it beside a scope. -/
inductive Reference where
  /-- A name for its value or its address. -/
  | value (name : Ident)
  /-- A name that is assigned to. -/
  | target (name : Ident)
  /-- A name that is called, with the number of arguments. -/
  | call (callee : Ident) (count : Nat)
  | packageCall (package callee : Ident) (count : Nat)
  | typeCall (receiver callee : Ident) (count : Nat)
  | fieldOf (object field : Ident)
  /-- A written type. Of its names, only the outermost is recorded. -/
  | type (clause : TypeClause)
  /-- `using name` -/
  | packageUse (name : Ident)
  /-- What `main` speaks of, which is looked up in the program's scope. -/
  | own (reference : Reference)

namespace Reference

/-- The name of a reference. -/
def head : Reference → Ident
  | value n | target n | call n _ | packageUse n => n
  | packageCall package _ _ => package
  | typeCall receiver _ _ => receiver
  | fieldOf object _ => object
  | type clause => clause.name
  | own r => r.head

/-- The name that is looked up once the first is found. -/
def follower? : Reference → Option Ident
  | packageCall _ callee _ | typeCall _ callee _ => some callee
  | fieldOf _ field => some field
  | own r => r.follower?
  | _ => none

/-- The names of a reference. -/
def names (r : Reference) : List Ident :=
  r.head :: r.follower?.toList

end Reference

mutual

/-- The references in an expression: arguments before the name that is called, an assigned value
before the name that it is assigned to. -/
def Expression.references : Expression → List Reference
  | .literal _ | .this _ => []
  | .parenthesized _ inner _ => inner.references
  | .name n => [.value n]
  | .assignment target value => value.references ++ [.target target]
  | .call callee arguments _ =>
    Expression.referencesAll arguments ++ [.call callee arguments.length]
  | .cast type arguments _ => Expression.referencesAll arguments ++ [.type type]
  | .packageCall package callee arguments _ =>
    Expression.referencesAll arguments ++ [.packageCall package callee arguments.length]
  | .typeCall receiver callee arguments _ =>
    Expression.referencesAll arguments ++ [.typeCall receiver callee arguments.length]
  | .unary _ operand => operand.references
  | .binary left _ right => left.references ++ right.references
  | .edit target _ value => value.references ++ [.target target]
  | .step target _ => [.target target]
  | .fieldAccess object field => [.fieldOf object field]
  | .fieldAssignment object field value => value.references ++ [.fieldOf object field]
  | .arrayAccess array index _ => array.references ++ index.references
  | .arrayAssignment array index value =>
    array.references ++ index.references ++ value.references
  | .reference _ n => [.value n]
  | .dereference _ operand => operand.references
  | .make _ type arguments _ => .type type :: Expression.referencesAll arguments
  | .makeSized _ type length _ => .type type :: length.references
  | .makeArray _ type elements _ => .type type :: Expression.referencesAll elements
  | .makeStruct _ type fields _ => .type type :: Expression.referencesAll fields
  | .main _ (.call callee arguments _) =>
    Expression.referencesAll arguments ++ [.own (.call callee arguments.length)]
  | .main _ (.assignment target value) => value.references ++ [.own (.target target)]
  | .main _ inner => inner.references.map .own

/-- The references in expressions one after another. -/
def Expression.referencesAll : List Expression → List Reference
  | [] => []
  | e :: others => e.references ++ Expression.referencesAll others

end

/-- The references in the value of a variable's declaration. -/
def VariableDeclaration.valueReferences (d : VariableDeclaration) : List Reference :=
  d.value.elim [] Expression.references

/-- The written type of a variable's declaration. -/
def VariableDeclaration.typeReferences (d : VariableDeclaration) : List Reference :=
  (d.type.map .type).toList

mutual

/-- The references in a statement. A local variable's value is bound before its type. -/
def Statement.references : Statement → List Reference
  | .block _ statements _ => Statement.referencesAll statements
  | .declaration d => d.valueReferences ++ d.typeReferences
  | .ifThen _ condition body => condition.references ++ body.references
  | .ifElse _ condition body _ alternative =>
    condition.references ++ body.references ++ alternative.references
  | .return _ value => value.elim [] Expression.references
  | .for _ init condition step body =>
    init.valueReferences ++ init.typeReferences ++ condition.references ++ step.references ++
      body.references
  | .while _ condition body => condition.references ++ body.references
  | .break _ => []
  | .continue _ => []
  | .expression e => e.references

/-- The references in statements one after another. -/
def Statement.referencesAll : List Statement → List Reference
  | [] => []
  | s :: others => s.references ++ Statement.referencesAll others

end

/-- The steps in which a program is bound. Each of them goes through all members. -/
inductive Stage where
  /-- The packages whose functions are used. -/
  | uses
  /-- The types of the fields of structures. -/
  | fields
  /-- The types of parameters, and those that functions give back. -/
  | signatures
  /-- The types of global variables. -/
  | globals
  /-- The bodies of functions, the values of global variables and the other statements. -/
  | bodies
  deriving DecidableEq, Repr

/-- All stages in their order. -/
def Stage.all : List Stage :=
  [.uses, .fields, .signatures, .globals, .bodies]

/-- The references in the types of parameters or fields. -/
def parameterReferences (parameters : List Parameter) : List Reference :=
  parameters.map fun p => .type p.type

/-- The references in the head of a function. -/
def headReferences (parameters : List Parameter) (returnType : Option TypeClause) :
    List Reference :=
  parameterReferences parameters ++ (returnType.map .type).toList

/-- The references in the signature of a member. -/
def Member.signatureReferences : Member → List Reference
  | .function f => headReferences f.parameters f.returnType
  | .external e => headReferences e.parameters e.returnType
  | _ => []

/-- The references in the body of a member. The type of a global variable is not part of it. -/
def Member.bodyReferences : Member → List Reference
  | .function f => Statement.referencesAll f.body.statements
  | .statement (.declaration d) => d.valueReferences
  | .statement s => s.references
  | _ => []

/-- The references in a member that are bound in a stage. Of the structures, only those that are
accepted have their fields bound. -/
def Member.references (accepted : StructDeclaration → Bool) : Stage → Member → List Reference
  | .uses, .packageUse _ name => [.packageUse name]
  | .fields, .struct d => if accepted d then parameterReferences d.fields else []
  | .signatures, member => member.signatureReferences
  | .globals, .statement (.declaration d) => d.typeReferences
  | .bodies, member => member.bodyReferences
  | _, _ => []

/-- The references in a program, stage by stage. -/
def programReferences (accepted : StructDeclaration → Bool) (members : List Member) :
    List Reference :=
  Stage.all.flatMap fun stage => members.flatMap (Member.references accepted stage)

end TodLang
