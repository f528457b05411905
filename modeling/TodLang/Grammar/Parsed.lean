import TodLang.Tree.Basic
/-!
What reading a piece of the grammar from a list of tokens comes to: a value and the tokens after
it, or the place where the tokens stop fitting and what the grammar wants there. The tokens after
a value are fewer than a bound, which is what makes the grammar's recursion end. A reader of what
may be missing has a bound of one more, so that it can leave all tokens.
-/

namespace TodLang

/-- A value that was read, and the tokens after it. -/
structure Parsed (α : Type) (bound : Nat) where
  value : α
  rest : List Token
  shorter : rest.length < bound

namespace Parsed

variable {α : Type} {m n : Nat}

/-- What was read below a bound was read below every higher one. -/
def below (h : m < n) (p : Parsed α m) : Parsed α n :=
  ⟨p.value, p.rest, Nat.lt_trans p.shorter h⟩

/-- What may be missing, read below a bound, was read below every higher one. -/
def optionalBelow (h : m < n) (p : Parsed α (m + 1)) : Parsed α n :=
  ⟨p.value, p.rest, Nat.lt_of_lt_of_le p.shorter h⟩

/-- What was read, as something that may be missing. -/
def optional (p : Parsed α n) : Parsed α (n + 1) :=
  ⟨p.value, p.rest, Nat.lt_succ_of_lt p.shorter⟩

/-- A value for which no token was read. -/
def unread (value : α) (tokens : List Token) : Parsed α (tokens.length + 1) :=
  ⟨value, tokens, Nat.lt_succ_self tokens.length⟩

end Parsed

/-- What the grammar can want at some place. -/
inductive Wanted where
  | token (kind : TokenKind)
  | expression
  | variable
  deriving DecidableEq, Repr

/-- The tokens that do not fit, and what was wanted of the first of them. -/
structure Mismatch where
  wanted : Wanted
  rest : List Token
  deriving Repr

/-- A reader's outcome. -/
abbrev Parse (α : Type) (bound : Nat) := Except Mismatch (Parsed α bound)

/-- The outcome of a reader that goes on where another one stopped. -/
def after {α : Type} {m n : Nat} (h : m < n) (outcome : Parse α m) : Parse α n :=
  match outcome with
  | .ok p => .ok (p.below h)
  | .error mismatch => .error mismatch

/-- The outcome of a reader, of what may be missing, that goes on where another one stopped. -/
def afterOptional {α : Type} {m n : Nat} (h : m < n) (outcome : Parse α (m + 1)) : Parse α n :=
  match outcome with
  | .ok p => .ok (p.optionalBelow h)
  | .error mismatch => .error mismatch

/-- The kind of the token at a distance from the first one, if there are so many tokens. -/
def kindAt (tokens : List Token) (distance : Nat) : Option TokenKind :=
  tokens[distance]?.map Token.kind

/-- The kind of the first token. -/
def nextKind (tokens : List Token) : Option TokenKind :=
  kindAt tokens 0

/-- The first token, if it is of a given kind. -/
def accept? (kind : TokenKind) (tokens : List Token) : Option (Parsed Token tokens.length) :=
  match tokens with
  | [] => none
  | t :: rest => if t.kind = kind then some ⟨t, rest, Nat.lt_succ_self rest.length⟩ else none

/-- What another reader finds, if it finds something, where one stopped. -/
def findAfter? {α : Type} {m n : Nat} (h : m < n) (found : Option (Parsed α m)) :
    Option (Parsed α n) :=
  found.map (Parsed.below h)

/-- The first of the tokens where another reader stopped, if it is of a given kind. -/
def acceptAfter? {tokens : List Token} {n : Nat} (h : tokens.length < n) (kind : TokenKind) :
    Option (Parsed Token n) :=
  findAfter? h (accept? kind tokens)

/-- The first token, which has to be of a given kind. -/
def take (kind : TokenKind) (tokens : List Token) : Parse Token tokens.length :=
  match accept? kind tokens with
  | some found => .ok found
  | none => .error ⟨.token kind, tokens⟩

/-- A first token of a given kind, which may be missing. -/
def takeOptional (kind : TokenKind) (tokens : List Token) :
    Parse (Option Token) (tokens.length + 1) :=
  match accept? kind tokens with
  | some ⟨t, rest, h⟩ => .ok (Parsed.optional ⟨some t, rest, h⟩)
  | none => .ok (Parsed.unread none tokens)

/-- A token as a name. -/
def Token.ident (t : Token) : Ident :=
  ⟨t.literal, t.span⟩

/-- A name. -/
def takeIdent (tokens : List Token) : Parse Ident tokens.length := do
  let ⟨t, rest, h⟩ ← take .identifier tokens
  return ⟨t.ident, rest, h⟩

/-- An operator. -/
def takeOperator (sign : Sign) (tokens : List Token) : Parse Operator tokens.length := do
  let ⟨t, rest, h⟩ ← take (.sign sign) tokens
  return ⟨⟨sign, t.span⟩, rest, h⟩

/-- The place of a sign. -/
def takeSign (sign : Sign) (tokens : List Token) : Parse Span tokens.length := do
  let ⟨t, rest, h⟩ ← take (.sign sign) tokens
  return ⟨t.span, rest, h⟩

/-- The place of a keyword. -/
def takeKeyword (word : Keyword) (tokens : List Token) : Parse Span tokens.length := do
  let ⟨t, rest, h⟩ ← take (.keyword word) tokens
  return ⟨t.span, rest, h⟩

theorem accept?_eq_some {kind : TokenKind} {tokens : List Token}
    {found : Parsed Token tokens.length} (h : accept? kind tokens = some found) :
    tokens = found.value :: found.rest ∧ found.value.kind = kind := by
  cases tokens with
  | nil => simp [accept?] at h
  | cons t rest =>
    simp only [accept?] at h
    by_cases hk : t.kind = kind
    · rw [if_pos hk, Option.some.injEq] at h
      subst h
      exact ⟨rfl, hk⟩
    · simp [hk] at h

theorem accept?_eq_none_iff {kind : TokenKind} {tokens : List Token} :
    accept? kind tokens = none ↔ nextKind tokens ≠ some kind := by
  cases tokens with
  | nil => simp [accept?, nextKind, kindAt]
  | cons t rest => simp [accept?, nextKind, kindAt]

theorem after_eq_ok {α : Type} {m n : Nat} {h : m < n} {outcome : Parse α m} {p : Parsed α n} :
    after h outcome = .ok p ↔
      ∃ q, outcome = .ok q ∧ q.value = p.value ∧ q.rest = p.rest := by
  cases outcome with
  | error mismatch => simp [after]
  | ok q =>
    cases p
    simp [after, Parsed.below]

theorem afterOptional_eq_ok {α : Type} {m n : Nat} {h : m < n} {outcome : Parse α (m + 1)}
    {p : Parsed α n} :
    afterOptional h outcome = .ok p ↔
      ∃ q, outcome = .ok q ∧ q.value = p.value ∧ q.rest = p.rest := by
  cases outcome with
  | error mismatch => simp [afterOptional]
  | ok q =>
    cases p
    simp [afterOptional, Parsed.optionalBelow]

end TodLang
