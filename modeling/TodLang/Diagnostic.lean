import TodLang.Source.File
import TodLang.Text.Paint
import TodLang.Token.Scan
import TodLang.Grammar.Member
import TodLang.Binding.Finding
/-!
Diagnostics: faults of every kind, as they are shown to the author of a source. A diagnostic shows
the line in which a fault begins, and carets below the fault.
-/

namespace TodLang

/-- What part of the work a fault was found in. -/
inductive Category where
  | lexer
  | parser
  | semantic
  deriving DecidableEq, Repr

namespace Category

def all : List Category := [.lexer, .parser, .semantic]

def label : Category → String
  | lexer => "lexer"
  | parser => "parser"
  | semantic => "semantic"

end Category

/-- The kinds of faults. -/
inductive FaultKind where
  | realValueConversion
  | unterminatedString
  | unterminatedComment
  | invalidEscape
  | unexpectedToken
  | alreadyDeclared
  | undefinedName
  | undefinedFunction
  | undefinedType
  | undefinedPackage
  | notCallable
  | argumentCount
  | readOnlyAssignment
  | undefinedField
  deriving DecidableEq, Repr

namespace FaultKind

def all : List FaultKind :=
  [.realValueConversion, .unterminatedString, .unterminatedComment, .invalidEscape,
   .unexpectedToken, .alreadyDeclared, .undefinedName, .undefinedFunction, .undefinedType,
   .undefinedPackage, .notCallable, .argumentCount, .readOnlyAssignment, .undefinedField]

def name : FaultKind → String
  | realValueConversion => "RealValueConversion"
  | unterminatedString => "UnterminatedString"
  | unterminatedComment => "UnterminatedComment"
  | invalidEscape => "InvalidEscape"
  | unexpectedToken => "UnexpectedToken"
  | alreadyDeclared => "AlreadyDeclared"
  | undefinedName => "UndefinedName"
  | undefinedFunction => "UndefinedFunction"
  | undefinedType => "UndefinedType"
  | undefinedPackage => "UndefinedPackage"
  | notCallable => "NotCallable"
  | argumentCount => "ArgumentCount"
  | readOnlyAssignment => "ReadOnlyAssignment"
  | undefinedField => "UndefinedField"

end FaultKind

namespace LexicalFault

def kind : LexicalFault → FaultKind
  | unterminatedText => .unterminatedString
  | unterminatedComment => .unterminatedComment
  | unknownEscape _ => .invalidEscape
  | unreadableNumber _ _ => .realValueConversion

end LexicalFault

namespace SemanticFault

def kind : SemanticFault → FaultKind
  | alreadyDeclared _ => .alreadyDeclared
  | undefinedName _ => .undefinedName
  | undefinedFunction _ => .undefinedFunction
  | undefinedType _ => .undefinedType
  | undefinedPackage _ => .undefinedPackage
  | notCallable _ => .notCallable
  | argumentCount _ _ _ => .argumentCount
  | readOnlyAssignment _ => .readOnlyAssignment
  | undefinedField _ _ => .undefinedField

end SemanticFault

/-- A fault as it is reported. -/
structure Diagnostic where
  category : Category
  kind : FaultKind
  span : Span
  message : String
  deriving DecidableEq, Repr

namespace Diagnostic

def ofLexicalError (e : LexicalError) : Diagnostic :=
  ⟨.lexer, e.fault.kind, e.span, e.message⟩

def ofSyntaxError (e : SyntaxError) : Diagnostic :=
  ⟨.parser, .unexpectedToken, e.span, e.message⟩

def ofSemanticError (e : SemanticError) : Diagnostic :=
  ⟨.semantic, e.fault.kind, e.span, e.message⟩

/-- The category and the kind, as reports begin. -/
def tag (d : Diagnostic) : String :=
  d.category.label ++ "[" ++ d.kind.name ++ "]"

/-- The diagnostic in one line, without the name of the file. -/
def text (d : Diagnostic) : String :=
  d.tag ++ " at line " ++ toString d.span.startLine ++ ", column " ++
    toString d.span.startColumn ++ ": " ++ d.message

/-- The first line of a report. -/
def header (d : Diagnostic) (sources : Sources) : String :=
  d.tag ++ " " ++ sources.fileName d.span.file ++ ":" ++ toString d.span.startLine ++ ":" ++
    toString d.span.startColumn ++ ": " ++ d.message

/-- The first line in its colour. -/
def paintedHeader (d : Diagnostic) (sources : Sources) (color : Bool) : String :=
  match d.category with
  | .semantic => Ink.yellow.paint color (d.header sources)
  | .lexer | .parser => Ink.red.paintBold color (d.header sources)

/-- How many carets a region gets: one for every character, but a single one if it has no
characters or reaches beyond its first line. -/
def caretCount (span : Span) : Nat :=
  if span.isEmpty || span.stopLine != span.startLine then 1
  else max (span.stopColumn - span.startColumn) 1

/-- A number of equal characters. -/
def repeated (count : Nat) (c : Char) : String :=
  String.ofList (List.replicate count c)

/-- The line of a fault and the carets below it. -/
def excerpt (span : Span) (line : String) (color : Bool) : String :=
  let number := toString span.startLine
  "\n  " ++ number ++ " | " ++ line ++ "\n  " ++ repeated number.length ' ' ++ " | " ++
    repeated (span.startColumn - 1) ' ' ++ Ink.red.paint color (repeated (caretCount span) '^')

/-- The report: the first line and, if the source has the line of the fault, an excerpt. -/
def render (d : Diagnostic) (sources : Sources) (color : Bool) : String :=
  match sources.line? d.span.file d.span.startLine with
  | some line => d.paintedHeader sources color ++ excerpt d.span line color
  | none => d.paintedHeader sources color

end Diagnostic

end TodLang
