import TodLang.Grammar.Member
/-!
A cursor over the tokens of a program, and the steps that readers with a cursor are made of. The
cursor sees all tokens, those behind an end mark too. It goes on over one token at a time, and back
only to a place that was saved; all its moves are kept, so that they can be spoken of.
-/

namespace TodLang

/-- A move of a cursor, and where it takes it. -/
inductive Move where
  /-- Over the token at the cursor. -/
  | onward (target : Nat)
  /-- Over the token at the cursor because the reader of something has left it there. -/
  | forced (target : Nat)
  /-- To a saved place. -/
  | back (target : Nat)
  deriving DecidableEq, Repr

namespace Move

/-- Where a move takes the cursor. -/
def target : Move → Nat
  | onward target | forced target | back target => target

/-- Whether nothing but the move itself takes the cursor on. -/
def isForced : Move → Bool
  | forced _ => true
  | _ => false

end Move

/-- Where a reader is among the tokens, and how it came there. -/
structure Cursor where
  position : Nat
  moves : List Move
  deriving DecidableEq, Repr

namespace Cursor

/-- The cursor before the first token. -/
def start : Cursor := ⟨0, []⟩

def move (c : Cursor) (m : Move) : Cursor :=
  ⟨m.target, c.moves ++ [m]⟩

end Cursor

/-- The end mark behind the last token, which stands for all that comes after it. -/
def endMark (tokens : List Token) : Token :=
  Token.ending ((tokens.getLast?.map (·.span.finish)).getD Span.none)

/-- The token at a position. -/
def tokenAt (tokens : List Token) (position : Nat) : Token :=
  tokens[position]?.getD (endMark tokens)

/-- What is done with a cursor over some tokens. It gives a value or ends with an error, and leaves
the cursor somewhere. It is `none` if readers come to stand in readers more deeply than a limit
allows. -/
abbrev Steps (α : Type) := ReaderT (List Token) (ExceptT SyntaxError (StateT Cursor Option)) α

namespace Steps

/-- What is done, and where the cursor is afterwards. -/
def outcome? {α : Type} (tokens : List Token) (c : Cursor) (steps : Steps α) :
    Option (Except SyntaxError α × Cursor) :=
  ((steps.run tokens).run).run c

/-- What is done where readers stand in readers too deeply. -/
def beyondLimit {α : Type} : Steps α := fun _ _ => none

/-- The token at a distance from the cursor. -/
def peek (distance : Nat) : Steps Token := do
  let tokens ← read
  let c ← get
  return tokenAt tokens (c.position + distance)

/-- The token at the cursor. -/
def current : Steps Token :=
  peek 0

/-- The kind of the token at a distance from the cursor, unless that is an end mark. -/
def kindAhead? (distance : Nat) : Steps (Option TokenKind) := do
  let t ← peek distance
  return if t.isEnding then none else some t.kind

/-- Whether the token at the cursor is of a given kind. -/
def check (kind : TokenKind) : Steps Bool := do
  let t ← current
  return t.kind = kind

def atEnd : Steps Bool :=
  check .ending

/-- Whether there is nothing more in front of a closing sign: it comes next, or the end mark
does. -/
def atClosing (closing : Sign) : Steps Bool := do
  let closed ← check (.sign closing)
  let ended ← atEnd
  return closed || ended

/-- Goes over the token at the cursor. Behind the last token the cursor stays where it is. -/
def advance : Steps Token := do
  let t ← current
  let tokens ← read
  let c ← get
  if c.position < tokens.length then set (c.move (.onward (c.position + 1)))
  return t

/-- Goes over the token at the cursor if it is of a given kind. -/
def eat (kind : TokenKind) : Steps (Option Token) := do
  if ← check kind then
    let t ← advance
    return some t
  else return none

/-- Ends because the token at the cursor is not what is wanted. -/
def unexpected {α : Type} (wanted : Wanted) : Steps α := do
  let t ← current
  throw ⟨t, wanted⟩

/-- Goes over the token at the cursor, which has to be of a given kind. -/
def consume (kind : TokenKind) : Steps Token := do
  if ← check kind then advance else unexpected (.token kind)

/-- Where the cursor is. -/
def save : Steps Nat := do
  let c ← get
  return c.position

/-- Goes back to a saved place. -/
def restore (saved : Nat) : Steps Unit :=
  modify fun c => c.move (.back saved)

/-- Goes over the token at the cursor if nothing was read since the cursor was at a saved place. -/
def leave (saved : Nat) : Steps Unit := do
  if (← save) = saved then modify fun c => c.move (.forced (c.position + 1))

/-- The place of the token at the cursor. -/
def place : Steps Span := do
  let t ← advance
  return t.span

/-- The token at the cursor as an operator, which is a given sign. -/
def operator (s : Sign) : Steps Operator := do
  let t ← advance
  return ⟨s, t.span⟩

/-- A name. -/
def ident : Steps Ident := do
  let t ← consume .identifier
  return t.ident

/-- The place of a sign. -/
def sign (s : Sign) : Steps Span := do
  let t ← consume (.sign s)
  return t.span

/-- The place of a keyword. -/
def keyword (word : Keyword) : Steps Span := do
  let t ← consume (.keyword word)
  return t.span

end Steps

end TodLang
