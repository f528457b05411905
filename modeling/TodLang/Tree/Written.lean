import TodLang.Token.Piece
import TodLang.Tree.Bare
/-!
The one way in which a tree is written from itself alone: the tokens of its grammar in their order,
with a semicolon behind every statement and every declaration without a body, and no comma that may
be left out. The tokens stand at no place. White space stands behind each of them but the first of
the two signs of a step.
-/

namespace TodLang

/-- A sign in a written tree. -/
def Sign.written (s : Sign) : Token :=
  { kind := .sign s, literal := s.text, span := Span.none, spaceAfter := true }

/-- A sign with the next one right behind it. -/
def Sign.writtenTight (s : Sign) : Token :=
  { kind := .sign s, literal := s.text, span := Span.none, spaceAfter := false }

/-- A keyword in a written tree. -/
def Keyword.written (k : Keyword) : Token :=
  { kind := .keyword k, literal := k.text, value := k.value?, span := Span.none
    spaceAfter := true }

/-- A name in a written tree. -/
def Ident.written (name : Ident) : Token :=
  { kind := .identifier, literal := name.name, span := Span.none, spaceAfter := true }

/-- The word that speaks of the program's own names. -/
def mainWritten : Token :=
  Ident.written ⟨"main", Span.none⟩

namespace TypeClause

/-- The package in front of a name, if there is one. -/
def packageWritten : Option Ident → List Token
  | some package => [package.written, Sign.pathSep.written]
  | none => []

mutual

/-- How a type is written. -/
def written (c : TypeClause) : List Token :=
  match c with
  | ⟨package, name, [], _⟩ => packageWritten package ++ [name.written]
  | ⟨package, name, first :: others, _⟩ =>
    packageWritten package ++ name.written :: Sign.lbrack.written :: first.written ++
      writtenTail others ++ [Sign.rbrack.written]

/-- Further types in brackets, each after a comma. -/
def writtenTail : List TypeClause → List Token
  | [] => []
  | c :: others => Sign.comma.written :: c.written ++ writtenTail others

end

end TypeClause

namespace Parameter

/-- How a parameter is written. -/
def written (p : Parameter) : List Token :=
  p.name.written :: p.type.written

/-- Further parameters, each after a comma. -/
def writtenTail : List Parameter → List Token
  | [] => []
  | p :: others => Sign.comma.written :: p.written ++ writtenTail others

/-- How parameters are written. -/
def writtenAll : List Parameter → List Token
  | [] => []
  | p :: others => p.written ++ writtenTail others

end Parameter

namespace Expression

mutual

/-- How an expression is written. -/
def written : Expression → List Token
  | literal token => [token.bare]
  | parenthesized _ inner _ => Sign.lparen.written :: inner.written ++ [Sign.rparen.written]
  | name n => [n.written]
  | assignment target value => target.written :: Sign.assign.written :: value.written
  | call callee arguments _ =>
    callee.written :: Sign.lparen.written :: writtenAll arguments ++ [Sign.rparen.written]
  | cast type arguments _ =>
    type.written ++ Sign.lparen.written :: writtenAll arguments ++ [Sign.rparen.written]
  | packageCall package callee arguments _ =>
    package.written :: Sign.pathSep.written :: callee.written :: Sign.lparen.written ::
      writtenAll arguments ++ [Sign.rparen.written]
  | typeCall receiver callee arguments _ =>
    receiver.written :: Sign.period.written :: callee.written :: Sign.lparen.written ::
      writtenAll arguments ++ [Sign.rparen.written]
  | unary operator operand => operator.sign.written :: operand.written
  | binary left operator right => left.written ++ operator.sign.written :: right.written
  | edit target operator value => target.written :: operator.sign.written :: value.written
  | step target operator => [target.written, operator.sign.writtenTight, operator.sign.written]
  | fieldAccess object field => [object.written, Sign.period.written, field.written]
  | fieldAssignment object field value =>
    object.written :: Sign.period.written :: field.written :: Sign.assign.written ::
      value.written
  | arrayAccess array index _ =>
    array.written ++ Sign.lbrack.written :: index.written ++ [Sign.rbrack.written]
  | arrayAssignment array index value =>
    array.written ++ Sign.lbrack.written :: index.written ++
      Sign.rbrack.written :: Sign.assign.written :: value.written
  | reference _ n => [Sign.and.written, n.written]
  | dereference _ operand => Sign.mul.written :: operand.written
  | make _ type arguments _ =>
    Keyword.makeWord.written :: type.written ++ Sign.lparen.written :: writtenAll arguments ++
      [Sign.rparen.written]
  | makeSized _ type length _ =>
    Keyword.makeWord.written :: type.written ++ Sign.lparen.written :: length.written ++
      [Sign.rparen.written]
  | makeArray _ type elements _ =>
    Keyword.makeWord.written :: type.written ++ Sign.lbrace.written :: writtenAll elements ++
      [Sign.rbrace.written]
  | makeStruct _ type fields _ =>
    Keyword.makeWord.written :: type.written ++ Sign.lbrace.written :: writtenAll fields ++
      [Sign.rbrace.written]
  | this _ => [Keyword.thisWord.written]
  | main _ inner => mainWritten :: inner.written

/-- How expressions are written. -/
def writtenAll : List Expression → List Token
  | [] => []
  | e :: others => e.written ++ writtenTail others

/-- Further expressions, each after a comma. -/
def writtenTail : List Expression → List Token
  | [] => []
  | e :: others => Sign.comma.written :: e.written ++ writtenTail others

end

end Expression

namespace VariableDeclaration

/-- The word that a declaration begins with. -/
def keywordOf (readOnly : Bool) : Keyword :=
  if readOnly then .setWord else .varWord

/-- The value of a declaration, behind its sign. -/
def valueWritten : Option Expression → List Token
  | some value => Sign.assign.written :: value.written
  | none => []

/-- How a declaration is written. -/
def written (d : VariableDeclaration) : List Token :=
  (keywordOf d.readOnly).written :: (d.type.map TypeClause.written).getD [] ++
    d.name.written :: valueWritten d.value

end VariableDeclaration

namespace Statement

mutual

/-- How a statement is written, without the semicolon behind it. -/
def written : Statement → List Token
  | block _ statements _ =>
    Sign.lbrace.written :: writtenAll statements ++ [Sign.rbrace.written]
  | declaration d => d.written
  | ifThen _ condition body =>
    Keyword.ifWord.written :: Sign.lparen.written :: condition.written ++
      Sign.rparen.written :: body.written ++ [Sign.semicolon.written]
  | ifElse _ condition body _ alternative =>
    Keyword.ifWord.written :: Sign.lparen.written :: condition.written ++
      Sign.rparen.written :: body.written ++ Sign.semicolon.written ::
      Keyword.elseWord.written :: alternative.written ++ [Sign.semicolon.written]
  | .return _ value => Keyword.returnWord.written :: (value.map Expression.written).getD []
  | .for _ init condition step body =>
    Keyword.forWord.written :: Sign.lparen.written :: init.written ++
      Sign.semicolon.written :: condition.written ++
      Sign.semicolon.written :: step.written ++ Sign.semicolon.written ::
      Sign.rparen.written :: body.written ++ [Sign.semicolon.written]
  | .while _ condition body =>
    Keyword.whileWord.written :: Sign.lparen.written :: condition.written ++
      Sign.rparen.written :: body.written ++ [Sign.semicolon.written]
  | .break _ => [Keyword.breakWord.written]
  | .continue _ => [Keyword.continueWord.written]
  | expression e => e.written

/-- How statements are written, each with a semicolon behind it. -/
def writtenAll : List Statement → List Token
  | [] => []
  | s :: others => s.written ++ Sign.semicolon.written :: writtenAll others

end

end Statement

/-- How a block is written. -/
def Block.written (b : Block) : List Token :=
  Sign.lbrace.written :: Statement.writtenAll b.statements ++ [Sign.rbrace.written]

/-- How the head of a function is written, from its keyword on. -/
def signatureWritten (name : Ident) (parameters : List Parameter)
    (returnType : Option TypeClause) : List Token :=
  Keyword.fnWord.written :: name.written :: Sign.lparen.written ::
    Parameter.writtenAll parameters ++ Sign.rparen.written ::
    (returnType.map TypeClause.written).getD []

namespace Member

/-- How a member is written. -/
def written : Member → List Token
  | statement s => s.written ++ [Sign.semicolon.written]
  | function f =>
    (if f.visibility.isSome then [Keyword.setWord.written] else []) ++
      signatureWritten f.name f.parameters f.returnType ++ f.body.written
  | external e =>
    Keyword.externalWord.written :: signatureWritten e.name e.parameters e.returnType ++
      [Sign.semicolon.written]
  | struct d =>
    Keyword.structWord.written :: d.name.written :: Sign.lbrace.written ::
      Parameter.writtenAll d.fields ++ [Sign.rbrace.written, Sign.semicolon.written]
  | packageReference _ name =>
    [Keyword.packageWord.written, name.written, Sign.semicolon.written]
  | packageUse _ name => [Keyword.usingWord.written, name.written, Sign.semicolon.written]

end Member

/-- The characters of tokens in a row, with a space behind each that is to have white space behind
it and is not the last one. -/
def spelledOut : List Token → List Char
  | [] => []
  | [t] => t.literal.toList
  | t :: next :: others =>
    t.literal.toList ++ (if t.spaceAfter then [' '] else []) ++ spelledOut (next :: others)

/-- The source that a program is written as. -/
def writtenSource (members : List Member) : String :=
  String.ofList (spelledOut (members.flatMap Member.written))

end TodLang
