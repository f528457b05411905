import TodLang.Token.Piece
/-!
The tokens of a source: its lexemes, each with the place where it stands. White space and comments
leave no token, and one token at the end marks the end of the source.
-/

namespace TodLang

/-- A fault and the region of the source that it concerns. -/
structure LexicalError where
  fault : LexicalFault
  span : Span
  deriving DecidableEq, Repr

namespace NumberForm

/-- The name of a form in messages. -/
def label : NumberForm → String
  | integer => "int"
  | decimal => "float"

end NumberForm

namespace LexicalFault

/-- What a fault is reported as. -/
def message : LexicalFault → String
  | unterminatedText => "unterminated string literal"
  | unterminatedComment => "unterminated block comment"
  | unknownEscape escape => "unknown escape sequence \\" ++ String.singleton escape
  | unreadableNumber run form =>
    "value \"" ++ String.ofList run ++ "\" could not be converted to real value [" ++
      form.label ++ "]"

end LexicalFault

namespace LexicalError

def message (e : LexicalError) : String :=
  e.fault.message

end LexicalError

namespace BrokenPiece

/-- The error that a piece beginning at a given place makes. -/
def errorAt (file : Nat) (place : Position) (piece : BrokenPiece) : LexicalError :=
  let first := place.advance piece.before
  ⟨piece.fault, Span.between file first (first.advance piece.extent)⟩

end BrokenPiece

namespace Reading

/-- The tokens of what was read from a given place on. -/
def tokens (file : Nat) (place : Position) : Reading → Except LexicalError (List Token)
  | finished => .ok [Token.ending (Span.point file place)]
  | broken fault => .error (fault.errorAt file place)
  | piece (.lexeme kind value text) next => do
    let after := place.advance text
    let others ← next.tokens file after
    return { kind, literal := String.ofList text, value, span := Span.between file place after,
             spaceAfter := next.startsBlank } :: others
  | piece first next => next.tokens file (place.advance first.text)

end Reading

/-- The tokens of a source. `hashComments` says whether `#` begins a comment. -/
def tokenize (file : Nat) (hashComments : Bool) (source : String) :
    Except LexicalError (List Token) :=
  (readPieces hashComments source.toList).tokens file Position.start

end TodLang
