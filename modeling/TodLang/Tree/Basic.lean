import TodLang.Text.Qualified
import TodLang.Token.Basic
/-!
The syntax tree of a program. A node keeps the places of the marks that delimit it, and its region
is computed from them and from the regions of its parts.
-/

namespace TodLang

/-- A name and where it is written. -/
structure Ident where
  name : String
  span : Span
  deriving DecidableEq, Repr, Inhabited

/-- An operator and where it is written. -/
structure Operator where
  sign : Sign
  span : Span
  deriving DecidableEq, Repr

/-- A written type: a name, perhaps of a package, and perhaps with types in brackets. -/
structure TypeClause where
  package : Option Ident
  name : Ident
  arguments : List TypeClause
  /-- The closing bracket, if there are types in brackets. -/
  closing : Option Span
  deriving Repr, BEq, Inhabited

namespace TypeClause

def span (c : TypeClause) : Span :=
  let first := (c.package.map Ident.span).getD c.name.span
  first.cover (c.closing.getD c.name.span)

/-- Whether there are types in brackets. -/
def isGeneric (c : TypeClause) : Bool :=
  !c.arguments.isEmpty

mutual

/-- The clause as it is written, in one spelling. -/
def text (c : TypeClause) : String :=
  match c with
  | ⟨package, name, [], _⟩ => qualified (package.map Ident.name) name.name
  | ⟨package, name, first :: others, _⟩ =>
    qualified (package.map Ident.name) name.name ++ "[" ++ first.text ++ textTail others ++ "]"

/-- Further types in brackets, each after a comma. -/
def textTail : List TypeClause → String
  | [] => ""
  | c :: others => ", " ++ c.text ++ textTail others

end

end TypeClause

/-- A parameter of a function or a field of a structure. -/
structure Parameter where
  name : Ident
  type : TypeClause
  deriving Repr, BEq, Inhabited

namespace Parameter

def span (p : Parameter) : Span :=
  p.name.span.cover p.type.span

end Parameter

/-- Expressions. -/
inductive Expression where
  | literal (token : Token)
  | parenthesized (opening : Span) (inner : Expression) (closing : Span)
  | name (name : Ident)
  /-- `target = value` -/
  | assignment (target : Ident) (value : Expression)
  /-- `callee(arguments)` -/
  | call (callee : Ident) (arguments : List Expression) (closing : Span)
  /-- `type(arguments)`, where the type has types in brackets or a package -/
  | cast (type : TypeClause) (arguments : List Expression) (closing : Span)
  /-- `package::callee(arguments)` -/
  | packageCall (package callee : Ident) (arguments : List Expression) (closing : Span)
  /-- `receiver.callee(arguments)` -/
  | typeCall (receiver callee : Ident) (arguments : List Expression) (closing : Span)
  | unary (operator : Operator) (operand : Expression)
  | binary (left : Expression) (operator : Operator) (right : Expression)
  /-- `target += value` and its like -/
  | edit (target : Ident) (operator : Operator) (value : Expression)
  /-- `target++` or `target--`; the operator is the sign that is written twice -/
  | step (target : Ident) (operator : Operator)
  | fieldAccess (object field : Ident)
  | fieldAssignment (object field : Ident) (value : Expression)
  | arrayAccess (array index : Expression) (closing : Span)
  | arrayAssignment (array index value : Expression)
  /-- `&name` -/
  | reference (ampersand : Span) (name : Ident)
  /-- `*operand` -/
  | dereference (star : Span) (operand : Expression)
  /-- `make type(arguments)` -/
  | make (keyword : Span) (type : TypeClause) (arguments : List Expression) (closing : Span)
  /-- `make type(length)`, where the type has types in brackets -/
  | makeSized (keyword : Span) (type : TypeClause) (length : Expression) (closing : Span)
  /-- `make type{elements}`, where the type has types in brackets -/
  | makeArray (keyword : Span) (type : TypeClause) (elements : List Expression) (closing : Span)
  /-- `make type{fields}` -/
  | makeStruct (keyword : Span) (type : TypeClause) (fields : List Expression) (closing : Span)
  | this (keyword : Span)
  /-- `main` in front of a name, a call or an assignment, which then means the program's own -/
  | main (keyword : Span) (inner : Expression)
  deriving Repr, BEq, Inhabited

namespace Expression

def span : Expression → Span
  | literal token => token.span
  | parenthesized opening _ closing => opening.cover closing
  | name n => n.span
  | assignment target value => target.span.cover value.span
  | call callee _ closing => callee.span.cover closing
  | cast type _ closing => type.name.span.cover closing
  | packageCall package _ _ closing => package.span.cover closing
  | typeCall receiver _ _ closing => receiver.span.cover closing
  | unary operator operand => operator.span.cover operand.span
  | binary left _ right => left.span.cover right.span
  | edit target _ value => target.span.cover value.span
  | step target operator => target.span.cover operator.span
  | fieldAccess object field => object.span.cover field.span
  | fieldAssignment object _ value => object.span.cover value.span
  | arrayAccess array _ closing => array.span.cover closing
  | arrayAssignment array _ value => array.span.cover value.span
  | reference ampersand n => ampersand.cover n.span
  | dereference star operand => star.cover operand.span
  | make keyword _ _ closing => keyword.cover closing
  | makeSized keyword _ _ closing => keyword.cover closing
  | makeArray keyword _ _ closing => keyword.cover closing
  | makeStruct keyword _ _ closing => keyword.cover closing
  | this keyword => keyword
  | main keyword inner => keyword.cover inner.span

/-- What kind of expression it is, as dumps call it. -/
def label : Expression → String
  | literal .. => "Literal Expression"
  | parenthesized .. => "Parenthesized Expression"
  | name .. => "Name Expression"
  | assignment .. => "Assignment Expression"
  | call .. | cast .. => "Call Expression"
  | packageCall .. => "PackageCall Expression"
  | typeCall .. => "TypeCall Expression"
  | unary .. => "Unary Expression"
  | binary .. => "Binary Expression"
  | edit .. | step .. => "VariableEditor Expression"
  | fieldAccess .. => "FieldAccess Expression"
  | fieldAssignment .. => "FieldAssignment Expression"
  | arrayAccess .. => "ArrayAccess Expression"
  | arrayAssignment .. => "ArrayAssignment Expression"
  | reference .. => "Reference Expression"
  | dereference .. => "Dereference Expression"
  | make .. => "Make Expression"
  | makeSized .. | makeArray .. => "MakeArray Expression"
  | makeStruct .. => "MakeStruct Expression"
  | this .. => "This Expression"
  | main .. => "Main Expression"

/-- Whether it assigns to an element of an array. -/
def isArrayAssignment : Expression → Bool
  | arrayAssignment .. => true
  | _ => false

end Expression

/-- `var name`, or `set name` for one that keeps its value, with a type or a value or both. -/
structure VariableDeclaration where
  keyword : Span
  readOnly : Bool
  type : Option TypeClause
  name : Ident
  value : Option Expression
  deriving Repr, BEq, Inhabited

namespace VariableDeclaration

def span (d : VariableDeclaration) : Span :=
  match d.value with
  | some value => d.keyword.cover value.span
  | none => d.keyword.cover d.name.span

def label : String := "Variable Declaration"

/-- The word that the declaration begins with. -/
def word (d : VariableDeclaration) : String :=
  if d.readOnly then "set" else "var"

end VariableDeclaration

/-- Statements. -/
inductive Statement where
  | block (opening : Span) (statements : List Statement) (closing : Span)
  | declaration (declaration : VariableDeclaration)
  | ifThen (keyword : Span) (condition : Expression) (body : Statement)
  | ifElse (keyword : Span) (condition : Expression) (body : Statement) (elseKeyword : Span)
      (alternative : Statement)
  | return (keyword : Span) (value : Option Expression)
  | for (keyword : Span) (init : VariableDeclaration) (condition : Expression)
      (step body : Statement)
  | while (keyword : Span) (condition : Expression) (body : Statement)
  | break (keyword : Span)
  | continue (keyword : Span)
  | expression (expression : Expression)
  deriving Repr, BEq, Inhabited

namespace Statement

def span : Statement → Span
  | block opening _ closing => opening.cover closing
  | declaration d => d.span
  | ifThen keyword _ body => keyword.cover body.span
  | ifElse keyword _ _ elseKeyword alternative =>
    keyword.cover (elseKeyword.cover alternative.span)
  | .return keyword (some value) => keyword.cover value.span
  | .return keyword none => keyword
  | .for keyword _ _ _ body => keyword.cover body.span
  | .while keyword _ body => keyword.cover body.span
  | .break keyword => keyword
  | .continue keyword => keyword
  | expression e => e.span

/-- What kind of statement it is, as dumps call it. -/
def label : Statement → String
  | block .. => "Block Statement"
  | declaration .. => VariableDeclaration.label
  | ifThen .. | ifElse .. => "If Statement"
  | .return .. => "Return Statement"
  | .for .. => "For Statement"
  | .while .. => "While Statement"
  | .break .. => "Break Statement"
  | .continue .. => "Continue Statement"
  | expression .. => "Expression Statement"

end Statement

/-- The statements between two braces. -/
structure Block where
  opening : Span
  statements : List Statement
  closing : Span
  deriving Repr, BEq, Inhabited

namespace Block

/-- A block is a statement. -/
def toStatement (b : Block) : Statement :=
  .block b.opening b.statements b.closing

def span (b : Block) : Span :=
  b.opening.cover b.closing

end Block

/-- A function with its body. -/
structure FunctionDeclaration where
  /-- The word that makes the function visible to other sources, if it is written. -/
  visibility : Option Span
  keyword : Span
  name : Ident
  parameters : List Parameter
  returnType : Option TypeClause
  body : Block
  deriving Repr, BEq, Inhabited

/-- A function that is defined elsewhere. -/
structure ExternalDeclaration where
  keyword : Span
  name : Ident
  parameters : List Parameter
  returnType : Option TypeClause
  /-- The parenthesis after the parameters. -/
  closing : Span
  deriving Repr, BEq, Inhabited

/-- A structure with its fields. -/
structure StructDeclaration where
  keyword : Span
  name : Ident
  fields : List Parameter
  closing : Span
  deriving Repr, BEq, Inhabited

/-- The members of a program. -/
inductive Member where
  | statement (statement : Statement)
  | function (declaration : FunctionDeclaration)
  | external (declaration : ExternalDeclaration)
  | struct (declaration : StructDeclaration)
  /-- `package name` -/
  | packageReference (keyword : Span) (name : Ident)
  /-- `using name` -/
  | packageUse (keyword : Span) (name : Ident)
  deriving Repr, BEq, Inhabited

namespace Member

def span : Member → Span
  | statement s => s.span
  | function f => (f.visibility.getD f.keyword).cover f.body.span
  | external e =>
    match e.returnType with
    | some type => e.keyword.cover type.span
    | none => e.keyword.cover e.closing
  | struct d => d.keyword.cover d.closing
  | packageReference keyword name => keyword.cover name.span
  | packageUse keyword name => keyword.cover name.span

/-- What kind of member it is, as dumps call it. -/
def label : Member → String
  | statement _ => "Global Statement"
  | function _ => "Function Declaration"
  | external _ => "External Function Declaration"
  | struct _ => "Struct Declaration"
  | packageReference .. => "Package Reference"
  | packageUse .. => "Package Use"

end Member

end TodLang
