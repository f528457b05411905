import TodLang.Grammar.Parsed
/-!
Written types: a name, before it perhaps a package and `::`, behind it perhaps types in brackets.
There are two readers. One reports where a type goes wrong; the other only tries, at places where
something else may stand as well.
-/

namespace TodLang

/-- A name, which may be qualified by a package. -/
structure QualifiedName where
  package : Option Ident
  name : Ident
  deriving Repr

/-- Whether a qualified name begins here, if a name does. -/
def isQualified (tokens : List Token) : Bool :=
  kindAt tokens 1 = some (.sign .pathSep)

/-- The name that a written type begins with. -/
def parseQualifiedName (tokens : List Token) : Parse QualifiedName tokens.length :=
  if isQualified tokens then do
    let ⟨package, r₁, h₁⟩ ← takeIdent tokens
    let ⟨_, r₂, h₂⟩ ← after h₁ (takeSign .pathSep r₁)
    let ⟨name, r₃, h₃⟩ ← after h₂ (takeIdent r₂)
    return ⟨⟨some package, name⟩, r₃, h₃⟩
  else do
    let ⟨name, r₁, h₁⟩ ← takeIdent tokens
    return ⟨⟨none, name⟩, r₁, h₁⟩

mutual

/-- A written type. -/
def parseTypeClause (tokens : List Token) : Parse TypeClause tokens.length := do
  let ⟨⟨package, name⟩, r₁, h₁⟩ ← parseQualifiedName tokens
  match acceptAfter? h₁ (.sign .lbrack) with
  | none => return ⟨⟨package, name, [], none⟩, r₁, h₁⟩
  | some ⟨_, r₂, h₂⟩ =>
    let ⟨arguments, r₃, h₃⟩ ← after h₂ (parseTypeArguments r₂)
    let ⟨closing, r₄, h₄⟩ ← after h₃ (takeSign .rbrack r₃)
    return ⟨⟨package, name, arguments, some closing⟩, r₄, h₄⟩
termination_by 2 * tokens.length

/-- One or more written types with commas between them. -/
def parseTypeArguments (tokens : List Token) : Parse (List TypeClause) tokens.length := do
  let ⟨first, r₁, h₁⟩ ← parseTypeClause tokens
  match acceptAfter? h₁ (.sign .comma) with
  | none => return ⟨[first], r₁, h₁⟩
  | some ⟨_, r₂, h₂⟩ =>
    let ⟨others, r₃, h₃⟩ ← after h₂ (parseTypeArguments r₂)
    return ⟨first :: others, r₃, h₃⟩
termination_by 2 * tokens.length + 1

end

/-- A written type, which may be missing. -/
def parseOptionalTypeClause (tokens : List Token) : Parse (Option TypeClause) (tokens.length + 1) :=
  if nextKind tokens = some .identifier then do
    let ⟨type, r₁, h₁⟩ ← parseTypeClause tokens
    return Parsed.optional ⟨some type, r₁, h₁⟩
  else return Parsed.unread none tokens

/-- The name of a written type, if there is one. -/
def tryQualifiedName? (tokens : List Token) : Option (Parsed QualifiedName tokens.length) :=
  if isQualified tokens then do
    let ⟨package, _, h₁⟩ ← accept? .identifier tokens
    let ⟨_, _, h₂⟩ ← acceptAfter? h₁ (.sign .pathSep)
    let ⟨name, r₃, h₃⟩ ← acceptAfter? h₂ .identifier
    return ⟨⟨some package.ident, name.ident⟩, r₃, h₃⟩
  else do
    let ⟨name, r₁, h₁⟩ ← accept? .identifier tokens
    return ⟨⟨none, name.ident⟩, r₁, h₁⟩

mutual

/-- A written type, if there is one. -/
def tryTypeClause? (tokens : List Token) : Option (Parsed TypeClause tokens.length) := do
  let ⟨⟨package, name⟩, r₁, h₁⟩ ← tryQualifiedName? tokens
  match acceptAfter? h₁ (.sign .lbrack) with
  | none => return ⟨⟨package, name, [], none⟩, r₁, h₁⟩
  | some ⟨_, r₂, h₂⟩ =>
    let ⟨arguments, r₃, h₃⟩ ← findAfter? h₂ (tryTypeArguments? r₂)
    let ⟨closing, r₄, h₄⟩ ← acceptAfter? h₃ (.sign .rbrack)
    return ⟨⟨package, name, arguments, some closing.span⟩, r₄, h₄⟩
termination_by 2 * tokens.length

/-- One or more written types with commas between them, if they are there. -/
def tryTypeArguments? (tokens : List Token) : Option (Parsed (List TypeClause) tokens.length) := do
  let ⟨first, r₁, h₁⟩ ← tryTypeClause? tokens
  match acceptAfter? h₁ (.sign .comma) with
  | none => return ⟨[first], r₁, h₁⟩
  | some ⟨_, r₂, h₂⟩ =>
    let ⟨others, r₃, h₃⟩ ← findAfter? h₂ (tryTypeArguments? r₂)
    return ⟨first :: others, r₃, h₃⟩
termination_by 2 * tokens.length + 1

end

end TodLang
