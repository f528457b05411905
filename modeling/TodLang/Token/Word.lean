/-!
The words and signs of the language: keywords, operators and punctuation, each with its one
spelling and its name in dumps.
-/

namespace TodLang

/-- A reserved word. -/
inductive Keyword where
  | fnWord
  | varWord
  | setWord
  | ifWord
  | elseWord
  | whileWord
  | forWord
  | returnWord
  | breakWord
  | continueWord
  | trueWord
  | falseWord
  | structWord
  | packageWord
  | usingWord
  | externalWord
  | makeWord
  | thisWord
  deriving DecidableEq, Repr

namespace Keyword

/-- All reserved words. -/
def all : List Keyword :=
  [.fnWord, .varWord, .setWord, .ifWord, .elseWord, .whileWord,
   .forWord, .returnWord, .breakWord, .continueWord, .trueWord, .falseWord,
   .structWord, .packageWord, .usingWord, .externalWord, .makeWord, .thisWord]

/-- The word as it is written. -/
def text : Keyword → String
  | fnWord => "fn"
  | varWord => "var"
  | setWord => "set"
  | ifWord => "if"
  | elseWord => "else"
  | whileWord => "while"
  | forWord => "for"
  | returnWord => "return"
  | breakWord => "break"
  | continueWord => "continue"
  | trueWord => "true"
  | falseWord => "false"
  | structWord => "struct"
  | packageWord => "package"
  | usingWord => "using"
  | externalWord => "external"
  | makeWord => "make"
  | thisWord => "this"

/-- The keyword that a word spells. -/
def ofText? (word : String) : Option Keyword :=
  all.find? (·.text == word)

/-- The name in dumps: the word with a capital. -/
def name (k : Keyword) : String :=
  k.text.capitalize

theorem mem_all (k : Keyword) : k ∈ all := by
  cases k <;> decide

theorem ofText?_text (k : Keyword) : ofText? k.text = some k := by
  cases k <;> decide

theorem text_of_ofText? {word : String} {k : Keyword} (h : ofText? word = some k) :
    k.text = word := by
  have := List.find?_some h
  simpa using this

end Keyword

/-- An operator or a punctuation mark. -/
inductive Sign where
  | assign
  | add
  | sub
  | mul
  | quo
  | rem
  | and
  | or
  | xor
  | shl
  | shr
  | andNot
  | logicalAnd
  | logicalOr
  | eq
  | notEq
  | lt
  | leq
  | gt
  | geq
  | spaceship
  | bang
  | addAssign
  | subAssign
  | mulAssign
  | quoAssign
  | remAssign
  | andAssign
  | orAssign
  | xorAssign
  | shlAssign
  | shrAssign
  | andNotAssign
  | define
  | pathSep
  | comma
  | lparen
  | rparen
  | lbrace
  | rbrace
  | period
  | lbrack
  | rbrack
  | semicolon
  deriving DecidableEq, Repr

namespace Sign

/-- All operators and punctuation marks. -/
def all : List Sign :=
  [.assign, .add, .sub, .mul, .quo, .rem, .and,
   .or, .xor, .shl, .shr, .andNot, .logicalAnd, .logicalOr,
   .eq, .notEq, .lt, .leq, .gt, .geq, .spaceship,
   .bang, .addAssign, .subAssign, .mulAssign, .quoAssign, .remAssign, .andAssign,
   .orAssign, .xorAssign, .shlAssign, .shrAssign, .andNotAssign, .define, .pathSep,
   .comma, .lparen, .rparen, .lbrace, .rbrace, .period, .lbrack,
   .rbrack, .semicolon]

/-- The sign as it is written. -/
def text : Sign → String
  | assign => "="
  | add => "+"
  | sub => "-"
  | mul => "*"
  | quo => "/"
  | rem => "%"
  | and => "&"
  | or => "|"
  | xor => "^"
  | shl => "<<"
  | shr => ">>"
  | andNot => "&^"
  | logicalAnd => "&&"
  | logicalOr => "||"
  | eq => "=="
  | notEq => "!="
  | lt => "<"
  | leq => "<="
  | gt => ">"
  | geq => ">="
  | spaceship => "<=>"
  | bang => "!"
  | addAssign => "+="
  | subAssign => "-="
  | mulAssign => "*="
  | quoAssign => "/="
  | remAssign => "%="
  | andAssign => "&="
  | orAssign => "|="
  | xorAssign => "^="
  | shlAssign => "<<="
  | shrAssign => ">>="
  | andNotAssign => "&^="
  | define => ":="
  | pathSep => "::"
  | comma => ","
  | lparen => "("
  | rparen => ")"
  | lbrace => "\x7b"
  | rbrace => "\x7d"
  | period => "."
  | lbrack => "["
  | rbrack => "]"
  | semicolon => ";"

/-- The characters of the sign. -/
def spelling (s : Sign) : List Char :=
  s.text.toList

/-- The sign that some characters spell. -/
def ofSpelling? (characters : List Char) : Option Sign :=
  all.find? (·.spelling == characters)

/-- The name in dumps. -/
def name : Sign → String
  | assign => "Assign"
  | add => "Add"
  | sub => "Sub"
  | mul => "Mul"
  | quo => "Quo"
  | rem => "Rem"
  | and => "And"
  | or => "Or"
  | xor => "Xor"
  | shl => "Shl"
  | shr => "Shr"
  | andNot => "AndNot"
  | logicalAnd => "LAnd"
  | logicalOr => "LOr"
  | eq => "Eq"
  | notEq => "NotEq"
  | lt => "Lt"
  | leq => "Leq"
  | gt => "Gt"
  | geq => "Geq"
  | spaceship => "Spaceship"
  | bang => "Bang"
  | addAssign => "AddAssign"
  | subAssign => "SubAssign"
  | mulAssign => "MulAssign"
  | quoAssign => "QuoAssign"
  | remAssign => "RemAssign"
  | andAssign => "AndAssign"
  | orAssign => "OrAssign"
  | xorAssign => "XorAssign"
  | shlAssign => "ShlAssign"
  | shrAssign => "ShrAssign"
  | andNotAssign => "AndNotAssign"
  | define => "Define"
  | pathSep => "PathSep"
  | comma => "Comma"
  | lparen => "LParen"
  | rparen => "RParen"
  | lbrace => "LBrace"
  | rbrace => "RBrace"
  | period => "Period"
  | lbrack => "LBrack"
  | rbrack => "RBrack"
  | semicolon => "Semicolon"

/-- How tightly a sign binds as an operator before its operand; zero if it is none. It is above
every binary level. -/
def unaryPrecedence : Sign → Nat
  | add | sub | bang => 6
  | _ => 0

/-- How tightly a sign binds as an operator between two operands; zero if it is none. -/
def binaryPrecedence : Sign → Nat
  | mul | quo | rem => 5
  | add | sub => 4
  | eq | notEq | lt | gt | leq | geq | shl | shr => 3
  | and => 2
  | or | xor => 1
  | _ => 0

theorem mem_all (s : Sign) : s ∈ all := by
  cases s <;> decide

theorem ofSpelling?_spelling (s : Sign) : ofSpelling? s.spelling = some s := by
  cases s <;> decide

theorem spelling_of_ofSpelling? {characters : List Char} {s : Sign}
    (h : ofSpelling? characters = some s) : s.spelling = characters := by
  have := List.find?_some h
  simpa using this

theorem spelling_ne_nil (s : Sign) : s.spelling ≠ [] := by
  cases s <;> decide

theorem binaryPrecedence_lt_unary (s t : Sign) (h : t.unaryPrecedence ≠ 0) :
    s.binaryPrecedence < t.unaryPrecedence := by
  cases t <;> simp [unaryPrecedence] at h ⊢ <;> cases s <;> simp [binaryPrecedence]

end Sign

end TodLang
