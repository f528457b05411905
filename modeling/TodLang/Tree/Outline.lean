import TodLang.Text.Paint
import TodLang.Tree.Basic
/-!
Outlines: nested lists of lines, each a label with an optional detail. A syntax tree has an
outline, and an outline is written with two blanks of indentation for every level.
-/

namespace TodLang

/-- A line and the lines below it. -/
inductive Outline where
  | node (label detail : String) (children : List Outline)
  deriving Repr, Inhabited

namespace Outline

/-- A line with nothing below it. -/
def leaf (label detail : String) : Outline :=
  node label detail []

/-- One line of an outline. -/
def line (color : Bool) (depth : Nat) (label detail : String) : String :=
  let indent := String.ofList (List.replicate (2 * depth) ' ')
  let mark := indent ++ "- " ++ Ink.cyan.paint color label
  if detail.isEmpty then mark ++ "\n" else mark ++ " " ++ Ink.yellow.paint color detail ++ "\n"

mutual

/-- The lines of an outline whose first line has a given depth. -/
def lines (color : Bool) (depth : Nat) : Outline → List String
  | node label detail children =>
    line color depth label detail :: linesOfAll color (depth + 1) children

/-- The lines of outlines one after another. -/
def linesOfAll (color : Bool) (depth : Nat) : List Outline → List String
  | [] => []
  | o :: others => lines color depth o ++ linesOfAll color depth others

end

/-- The text of outlines one after another. -/
def render (color : Bool) (depth : Nat) (outlines : List Outline) : String :=
  String.join (linesOfAll color depth outlines)

end Outline

namespace TypeClause

def outline (c : TypeClause) : Outline :=
  .leaf "Type Clause" c.text

end TypeClause

namespace Parameter

def outline (p : Parameter) : Outline :=
  .leaf "Parameter" (p.name.name ++ " " ++ p.type.text)

end Parameter

namespace Expression

mutual

def outline (e : Expression) : Outline :=
  match e with
  | literal token => .leaf e.label token.literal
  | parenthesized _ inner _ => .node e.label "" [inner.outline]
  | name n => .leaf e.label n.name
  | assignment target value => .node e.label target.name [value.outline]
  | call callee arguments _ => .node e.label callee.name (outlines arguments)
  | cast type arguments _ => .node e.label ("cast " ++ type.text) (outlines arguments)
  | packageCall package callee arguments _ =>
    .node e.label (package.name ++ "::" ++ callee.name) (outlines arguments)
  | typeCall receiver callee arguments _ =>
    .node e.label (receiver.name ++ "." ++ callee.name) (outlines arguments)
  | unary operator operand => .node e.label operator.sign.text [operand.outline]
  | binary left operator right => .node e.label operator.sign.text [left.outline, right.outline]
  | edit target operator value =>
    .node e.label (target.name ++ " " ++ operator.sign.text) [value.outline]
  | step target operator => .leaf e.label (target.name ++ operator.sign.text ++ operator.sign.text)
  | fieldAccess object field => .leaf e.label (object.name ++ "." ++ field.name)
  | fieldAssignment object field value =>
    .node e.label (object.name ++ "." ++ field.name) [value.outline]
  | arrayAccess array index _ => .node e.label "" [array.outline, index.outline]
  | arrayAssignment array index value =>
    .node e.label "" [array.outline, index.outline, value.outline]
  | reference _ n => .leaf e.label n.name
  | dereference _ operand => .node e.label "" [operand.outline]
  | make _ type arguments _ => .node e.label type.text (outlines arguments)
  | makeSized _ type length _ => .node e.label (type.text ++ " sized") [length.outline]
  | makeArray _ type elements _ => .node e.label (type.text ++ " literal") (outlines elements)
  | makeStruct _ type fields _ => .node e.label type.text (outlines fields)
  | this _ => .leaf e.label ""
  | main _ inner => .node e.label "" [inner.outline]

def outlines : List Expression → List Outline
  | [] => []
  | e :: others => e.outline :: outlines others

end

end Expression

namespace VariableDeclaration

def outline (d : VariableDeclaration) : Outline :=
  .node label (d.word ++ " " ++ d.name.name)
    ((d.type.map TypeClause.outline).toList ++ (d.value.map Expression.outline).toList)

end VariableDeclaration

namespace Statement

mutual

def outline (s : Statement) : Outline :=
  match s with
  | block _ statements _ => .node s.label "" (outlines statements)
  | declaration d => d.outline
  | ifThen _ condition body => .node s.label "" [condition.outline, body.outline]
  | ifElse _ condition body _ alternative =>
    .node s.label "" [condition.outline, body.outline, .node "Else Clause" "" [alternative.outline]]
  | .return _ value => .node s.label "" (value.map Expression.outline).toList
  | .for _ init condition step body =>
    .node s.label "" [init.outline, condition.outline, step.outline, body.outline]
  | .while _ condition body => .node s.label "" [condition.outline, body.outline]
  | .break _ => .leaf s.label ""
  | .continue _ => .leaf s.label ""
  | expression e => .node s.label "" [e.outline]

def outlines : List Statement → List Outline
  | [] => []
  | s :: others => s.outline :: outlines others

end

end Statement

namespace Member

def outline (m : Member) : Outline :=
  match m with
  | statement s => .node m.label "" [s.outline]
  | function f =>
    .node m.label ((if f.visibility.isSome then "public " else "") ++ f.name.name)
      (f.parameters.map Parameter.outline ++ (f.returnType.map TypeClause.outline).toList ++
        [f.body.toStatement.outline])
  | external e =>
    .node m.label e.name.name
      (e.parameters.map Parameter.outline ++ (e.returnType.map TypeClause.outline).toList)
  | struct d => .node m.label d.name.name (d.fields.map Parameter.outline)
  | packageReference _ name => .leaf m.label name.name
  | packageUse _ name => .leaf m.label name.name

end Member

/-- The dump of a program's tree. -/
def treeText (members : List Member) (color : Bool) : String :=
  Outline.render color 0 (members.map Member.outline)

end TodLang
