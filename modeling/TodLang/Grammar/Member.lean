import TodLang.Grammar.Statement
/-!
The members of a program, and the reading of a whole program from its tokens. The first end mark
among the tokens is the end; without one the end is where the last token stops.
-/

namespace TodLang

/-- A name and its type. -/
def parseParameter (tokens : List Token) : Parse Parameter tokens.length := do
  let ⟨name, r₁, h₁⟩ ← takeIdent tokens
  let ⟨type, r₂, h₂⟩ ← after h₁ (parseTypeClause r₁)
  return ⟨⟨name, type⟩, r₂, h₂⟩

/-- One or more parameters with commas between them. -/
def parseParameters (tokens : List Token) : Parse (List Parameter) tokens.length := do
  let ⟨first, r₁, h₁⟩ ← parseParameter tokens
  match acceptAfter? h₁ (.sign .comma) with
  | none => return ⟨[first], r₁, h₁⟩
  | some ⟨_, r₂, h₂⟩ =>
    let ⟨others, r₃, h₃⟩ ← after h₂ (parseParameters r₂)
    return ⟨first :: others, r₃, h₃⟩
termination_by tokens.length

/-- The parameters of a function between parentheses, and the place of the closing one. -/
def parseParameterList (tokens : List Token) : Parse (List Parameter × Span) tokens.length := do
  let ⟨_, r₁, h₁⟩ ← takeSign .lparen tokens
  match acceptAfter? h₁ (.sign .rparen) with
  | some ⟨closing, r₂, h₂⟩ => return ⟨([], closing.span), r₂, h₂⟩
  | none =>
    let ⟨parameters, r₂, h₂⟩ ← after h₁ (parseParameters r₁)
    let ⟨closing, r₃, h₃⟩ ← after h₂ (takeSign .rparen r₂)
    return ⟨(parameters, closing), r₃, h₃⟩

/-- The fields of a structure, with commas between them and perhaps one after the last, and the
place of the closing brace. -/
def parseFields (tokens : List Token) : Parse (List Parameter × Span) tokens.length :=
  match accept? (.sign .rbrace) tokens with
  | some ⟨t, r₁, h₁⟩ => return ⟨([], t.span), r₁, h₁⟩
  | none =>
    if tokens.isEmpty then .error ⟨.token (.sign .rbrace), tokens⟩
    else do
      let ⟨first, r₁, h₁⟩ ← parseParameter tokens
      match acceptAfter? h₁ (.sign .comma) with
      | some ⟨_, r₂, h₂⟩ =>
        let ⟨⟨others, closing⟩, r₃, h₃⟩ ← after h₂ (parseFields r₂)
        return ⟨(first :: others, closing), r₃, h₃⟩
      | none =>
        let ⟨closing, r₂, h₂⟩ ← after h₁ (takeSign .rbrace r₁)
        return ⟨([first], closing), r₂, h₂⟩
termination_by tokens.length

/-- A function with its body, behind the word that makes it visible to other sources, if that word
was there. -/
def parseFunction (visibility : Option Span) (tokens : List Token) :
    Parse Member tokens.length := do
  let ⟨keyword, r₁, h₁⟩ ← takeKeyword .fnWord tokens
  let ⟨name, r₂, h₂⟩ ← after h₁ (takeIdent r₁)
  let ⟨⟨parameters, _⟩, r₃, h₃⟩ ← after h₂ (parseParameterList r₂)
  let ⟨returnType, r₄, h₄⟩ ← afterOptional h₃ (parseOptionalTypeClause r₃)
  let ⟨body, r₅, h₅⟩ ← after h₄ (parseBlock r₄)
  return ⟨.function ⟨visibility, keyword, name, parameters, returnType, body⟩, r₅, h₅⟩

/-- A function that is defined elsewhere. -/
def parseExternal (tokens : List Token) : Parse Member tokens.length := do
  let ⟨keyword, r₁, h₁⟩ ← takeKeyword .externalWord tokens
  let ⟨_, r₂, h₂⟩ ← after h₁ (takeKeyword .fnWord r₁)
  let ⟨name, r₃, h₃⟩ ← after h₂ (takeIdent r₂)
  let ⟨⟨parameters, closing⟩, r₄, h₄⟩ ← after h₃ (parseParameterList r₃)
  let ⟨returnType, r₅, h₅⟩ ← afterOptional h₄ (parseOptionalTypeClause r₄)
  let ⟨_, r₆, h₆⟩ ← afterOptional h₅ (takeOptional (.sign .semicolon) r₅)
  return ⟨.external ⟨keyword, name, parameters, returnType, closing⟩, r₆, h₆⟩

/-- A structure. -/
def parseStruct (tokens : List Token) : Parse Member tokens.length := do
  let ⟨keyword, r₁, h₁⟩ ← takeKeyword .structWord tokens
  let ⟨name, r₂, h₂⟩ ← after h₁ (takeIdent r₁)
  let ⟨_, r₃, h₃⟩ ← after h₂ (takeSign .lbrace r₂)
  let ⟨⟨fields, closing⟩, r₄, h₄⟩ ← after h₃ (parseFields r₃)
  let ⟨_, r₅, h₅⟩ ← afterOptional h₄ (takeOptional (.sign .semicolon) r₄)
  return ⟨.struct ⟨keyword, name, fields, closing⟩, r₅, h₅⟩

/-- A keyword with a name, and what they make. -/
def parseDirective (word : Keyword) (make : Span → Ident → Member) (tokens : List Token) :
    Parse Member tokens.length := do
  let ⟨keyword, r₁, h₁⟩ ← takeKeyword word tokens
  let ⟨name, r₂, h₂⟩ ← after h₁ (takeIdent r₁)
  let ⟨_, r₃, h₃⟩ ← afterOptional h₂ (takeOptional (.sign .semicolon) r₂)
  return ⟨make keyword name, r₃, h₃⟩

/-- A statement outside all functions. -/
def parseGlobalStatement (tokens : List Token) : Parse Member tokens.length := do
  let ⟨statement, r₁, h₁⟩ ← parseStatement tokens
  return ⟨.statement statement, r₁, h₁⟩

/-- A member of a program. -/
def parseMember (tokens : List Token) : Parse Member tokens.length :=
  match nextKind tokens with
  | some (.keyword .fnWord) => parseFunction none tokens
  | some (.keyword .setWord) =>
    if kindAt tokens 1 = some (.keyword .fnWord) then do
      let ⟨word, r₁, h₁⟩ ← takeKeyword .setWord tokens
      after h₁ (parseFunction (some word) r₁)
    else parseGlobalStatement tokens
  | some (.keyword .externalWord) => parseExternal tokens
  | some (.keyword .structWord) => parseStruct tokens
  | some (.keyword .packageWord) => parseDirective .packageWord .packageReference tokens
  | some (.keyword .usingWord) => parseDirective .usingWord .packageUse tokens
  | _ => parseGlobalStatement tokens

/-- The members that some tokens spell, all of them. -/
def parseMembers (tokens : List Token) : Except Mismatch (List Member) :=
  if tokens.isEmpty then return []
  else do
    let ⟨first, r₁, _⟩ ← parseMember tokens
    let others ← parseMembers r₁
    return first :: others
termination_by tokens.length

/-- A token at which a program stops fitting the grammar, and what was wanted there. -/
structure SyntaxError where
  found : Token
  wanted : Wanted
  deriving Repr

namespace SyntaxError

def span (e : SyntaxError) : Span :=
  e.found.span

/-- The kind of token that alone would have fitted. -/
def expected? (e : SyntaxError) : Option TokenKind :=
  match e.wanted with
  | .token kind => some kind
  | .expression | .variable => none

/-- The message says what was found and what was wanted. A keyword in place of a certain token may
have been meant as a name. -/
def message (e : SyntaxError) : String :=
  let found := "unexpected " ++ e.found.describe ++ ", expected "
  match e.wanted with
  | .token kind =>
    let hint :=
      if e.found.kind.isKeyword then " (identifier may be '" ++ e.found.literal ++ "')" else ""
    found ++ "'" ++ kind.label ++ "'" ++ hint
  | .expression => found ++ "an expression"
  | .variable => found ++ "'var' or 'set'"

end SyntaxError

/-- The tokens before the first end mark. -/
def beforeEnding (tokens : List Token) : List Token :=
  tokens.takeWhile fun t => !t.isEnding

/-- Where a program ends. -/
def endingSpan (tokens : List Token) : Span :=
  match tokens.find? Token.isEnding with
  | some ending => ending.span
  | none => ((tokens.getLast?).map (·.span.finish)).getD Span.none

/-- The members of the program that some tokens spell. -/
def parseProgram (tokens : List Token) : Except SyntaxError (List Member) :=
  match parseMembers (beforeEnding tokens) with
  | .ok members => .ok members
  | .error mismatch =>
    .error ⟨mismatch.rest.head?.getD (Token.ending (endingSpan tokens)), mismatch.wanted⟩

end TodLang
