import TodLang.Source.Span
import TodLang.Number.Shortest
import TodLang.Text.Quoted
import TodLang.Token.Word
/-!
Tokens: the kinds of them, the values that literals carry, and how a message names a token.
-/

namespace TodLang

/-- What a token is. -/
inductive TokenKind where
  /-- A character that begins no token of the language. -/
  | illegal
  /-- The end of the text. -/
  | ending
  | identifier
  | integer
  | decimal
  | text
  | keyword (word : Keyword)
  | sign (sign : Sign)
  deriving DecidableEq, Repr

namespace TokenKind

/-- All kinds of tokens. -/
def all : List TokenKind :=
  [.illegal, .ending, .identifier, .integer, .decimal, .text] ++ Keyword.all.map .keyword ++
    Sign.all.map .sign

/-- A kind as a message shows it. -/
def label : TokenKind → String
  | illegal => "ILLEGAL"
  | ending => "EOF"
  | identifier => "IDENT"
  | integer => "INT"
  | decimal => "FLOAT"
  | text => "STRING"
  | keyword word => word.text
  | sign s => s.text

/-- The name of a kind in dumps. -/
def name : TokenKind → String
  | illegal => "Illegal"
  | ending => "Eof"
  | identifier => "Ident"
  | integer => "Int"
  | decimal => "Float"
  | text => "String"
  | keyword word => word.name
  | sign s => s.name

/-- The kind with a given name in dumps. -/
def ofName? (name : String) : Option TokenKind :=
  all.find? (·.name == name)

/-- A kind of token that is an expression by itself. -/
def isLiteral : TokenKind → Bool
  | integer | decimal | text | keyword .trueWord | keyword .falseWord => true
  | _ => false

def isKeyword : TokenKind → Bool
  | keyword _ => true
  | _ => false

def unaryPrecedence : TokenKind → Nat
  | sign s => s.unaryPrecedence
  | _ => 0

def binaryPrecedence : TokenKind → Nat
  | sign s => s.binaryPrecedence
  | _ => 0

end TokenKind

/-- The value of a literal. -/
inductive Value where
  | integer (value : Int)
  | decimal (value : Binary64)
  | truth (value : Bool)
  | text (value : String)
  deriving DecidableEq, Repr

namespace Value

/-- A value as dumps show it. -/
def display : Value → String
  | integer value => toString value
  | decimal value => value.text
  | truth value => if value then "true" else "false"
  | text value => quoted value

end Value

/-- A piece of the source that the grammar speaks of. -/
structure Token where
  kind : TokenKind
  /-- The characters, exactly as they are written. -/
  literal : String
  /-- The value, if the token is a literal. -/
  value : Option Value := none
  span : Span
  /-- Whether white space or the end of the text comes next. -/
  spaceAfter : Bool := false
  deriving DecidableEq, Repr

namespace Token

/-- The end of the text, at a given place. -/
def ending (span : Span) : Token :=
  { kind := .ending, literal := "", span := span }

def isEnding (t : Token) : Bool :=
  t.kind == .ending

/-- How a message names a token. -/
def describe (t : Token) : String :=
  match t.kind with
  | .identifier => "identifier '" ++ t.literal ++ "'"
  | .integer | .decimal => "number " ++ t.literal
  | .text => "string " ++ t.literal
  | .illegal => "illegal token '" ++ t.literal ++ "'"
  | .ending => "end of file"
  | kind => "'" ++ kind.label ++ "'"

end Token

end TodLang
