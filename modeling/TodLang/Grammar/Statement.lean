import TodLang.Grammar.Expression
/-!
Statements. A semicolon after a statement may be written or left out.
-/

namespace TodLang

/-- Whether a written type, and not the name itself, comes next in a declaration. -/
def atDeclaredType (tokens : List Token) : Bool :=
  nextKind tokens = some .identifier &&
    [some .identifier, some (.sign .lbrack), some (.sign .pathSep)].contains (kindAt tokens 1)

/-- The type in a declaration, which may be missing. -/
def parseDeclaredType (tokens : List Token) : Parse (Option TypeClause) (tokens.length + 1) :=
  if atDeclaredType tokens then do
    let ⟨type, r₁, h₁⟩ ← parseTypeClause tokens
    return Parsed.optional ⟨some type, r₁, h₁⟩
  else return Parsed.unread none tokens

/-- `= value`, which may be missing. -/
def parseInitialValue (tokens : List Token) : Parse (Option Expression) (tokens.length + 1) :=
  match accept? (.sign .assign) tokens with
  | some ⟨_, r₁, h₁⟩ => do
    let ⟨value, r₂, h₂⟩ ← after h₁ (parseExpression r₁)
    return Parsed.optional ⟨some value, r₂, h₂⟩
  | none => return Parsed.unread none tokens

/-- The word that begins a declaration, and whether the variable keeps its value. -/
def parseVariableWord (tokens : List Token) : Parse (Span × Bool) tokens.length :=
  match nextKind tokens with
  | some (.keyword .varWord) => do
    let ⟨keyword, r₁, h₁⟩ ← takeKeyword .varWord tokens
    return ⟨(keyword, false), r₁, h₁⟩
  | some (.keyword .setWord) => do
    let ⟨keyword, r₁, h₁⟩ ← takeKeyword .setWord tokens
    return ⟨(keyword, true), r₁, h₁⟩
  | _ => .error ⟨.variable, tokens⟩

/-- A declaration of a variable. -/
def parseVariableDeclaration (tokens : List Token) : Parse VariableDeclaration tokens.length := do
  let ⟨⟨keyword, readOnly⟩, r₁, h₁⟩ ← parseVariableWord tokens
  let ⟨type, r₂, h₂⟩ ← afterOptional h₁ (parseDeclaredType r₁)
  let ⟨name, r₃, h₃⟩ ← after h₂ (takeIdent r₂)
  let ⟨value, r₄, h₄⟩ ← afterOptional h₃ (parseInitialValue r₃)
  return ⟨⟨keyword, readOnly, type, name, value⟩, r₄, h₄⟩

/-- The value that a `return` gives back, which may be missing. -/
def parseReturnValue (tokens : List Token) : Parse (Option Expression) (tokens.length + 1) :=
  if [none, some (.sign .semicolon), some (.sign .rbrace)].contains (nextKind tokens) then
    return Parsed.unread none tokens
  else do
    let ⟨value, r₁, h₁⟩ ← parseExpression tokens
    return Parsed.optional ⟨some value, r₁, h₁⟩

/-- A condition between parentheses, behind the keyword that it belongs to. -/
def parseCondition (tokens : List Token) : Parse Expression tokens.length := do
  let ⟨_, r₁, h₁⟩ ← takeSign .lparen tokens
  let ⟨condition, r₂, h₂⟩ ← after h₁ (parseExpression r₁)
  let ⟨_, r₃, h₃⟩ ← after h₂ (takeSign .rparen r₂)
  return ⟨condition, r₃, h₃⟩

mutual

/-- A statement with the semicolon behind it, if there is one. -/
def parseStatement (tokens : List Token) : Parse Statement tokens.length := do
  let ⟨statement, r₁, h₁⟩ ← parseBareStatement tokens
  let ⟨_, r₂, h₂⟩ ← afterOptional h₁ (takeOptional (.sign .semicolon) r₁)
  return ⟨statement, r₂, h₂⟩
termination_by 4 * tokens.length + 1

/-- A statement without the semicolon behind it. -/
def parseBareStatement (tokens : List Token) : Parse Statement tokens.length :=
  match nextKind tokens with
  | some (.keyword .varWord) | some (.keyword .setWord) => do
    let ⟨declaration, r₁, h₁⟩ ← parseVariableDeclaration tokens
    return ⟨.declaration declaration, r₁, h₁⟩
  | some (.sign .lbrace) => do
    let ⟨opening, r₁, h₁⟩ ← takeSign .lbrace tokens
    let ⟨⟨statements, closing⟩, r₂, h₂⟩ ← after h₁ (parseStatements r₁)
    return ⟨.block opening statements closing, r₂, h₂⟩
  | some (.keyword .ifWord) => do
    let ⟨keyword, r₁, h₁⟩ ← takeKeyword .ifWord tokens
    let ⟨condition, r₂, h₂⟩ ← after h₁ (parseCondition r₁)
    let ⟨body, r₃, h₃⟩ ← after h₂ (parseStatement r₂)
    match acceptAfter? h₃ (.keyword .elseWord) with
    | some ⟨elseToken, r₄, h₄⟩ =>
      let ⟨alternative, r₅, h₅⟩ ← after h₄ (parseStatement r₄)
      return ⟨.ifElse keyword condition body elseToken.span alternative, r₅, h₅⟩
    | none => return ⟨.ifThen keyword condition body, r₃, h₃⟩
  | some (.keyword .returnWord) => do
    let ⟨keyword, r₁, h₁⟩ ← takeKeyword .returnWord tokens
    let ⟨value, r₂, h₂⟩ ← afterOptional h₁ (parseReturnValue r₁)
    return ⟨.return keyword value, r₂, h₂⟩
  | some (.keyword .forWord) => do
    let ⟨keyword, r₁, h₁⟩ ← takeKeyword .forWord tokens
    let ⟨_, r₂, h₂⟩ ← after h₁ (takeSign .lparen r₁)
    let ⟨init, r₃, h₃⟩ ← after h₂ (parseVariableDeclaration r₂)
    let ⟨_, r₄, h₄⟩ ← after h₃ (takeSign .semicolon r₃)
    let ⟨condition, r₅, h₅⟩ ← after h₄ (parseExpression r₄)
    let ⟨_, r₆, h₆⟩ ← after h₅ (takeSign .semicolon r₅)
    let ⟨step, r₇, h₇⟩ ← after h₆ (parseStatement r₆)
    let ⟨_, r₈, h₈⟩ ← after h₇ (takeSign .rparen r₇)
    let ⟨body, r₉, h₉⟩ ← after h₈ (parseStatement r₈)
    return ⟨.for keyword init condition step body, r₉, h₉⟩
  | some (.keyword .whileWord) => do
    let ⟨keyword, r₁, h₁⟩ ← takeKeyword .whileWord tokens
    let ⟨condition, r₂, h₂⟩ ← after h₁ (parseCondition r₁)
    let ⟨body, r₃, h₃⟩ ← after h₂ (parseStatement r₂)
    return ⟨.while keyword condition body, r₃, h₃⟩
  | some (.keyword .breakWord) => do
    let ⟨keyword, r₁, h₁⟩ ← takeKeyword .breakWord tokens
    return ⟨.break keyword, r₁, h₁⟩
  | some (.keyword .continueWord) => do
    let ⟨keyword, r₁, h₁⟩ ← takeKeyword .continueWord tokens
    return ⟨.continue keyword, r₁, h₁⟩
  | _ => do
    let ⟨expression, r₁, h₁⟩ ← parseExpression tokens
    return ⟨.expression expression, r₁, h₁⟩
termination_by 4 * tokens.length

/-- The statements of a block and the place of the brace that closes it. -/
def parseStatements (tokens : List Token) : Parse (List Statement × Span) tokens.length :=
  match accept? (.sign .rbrace) tokens with
  | some ⟨t, r₁, h₁⟩ => return ⟨([], t.span), r₁, h₁⟩
  | none =>
    if tokens.isEmpty then .error ⟨.token (.sign .rbrace), tokens⟩
    else do
      let ⟨first, r₁, h₁⟩ ← parseStatement tokens
      let ⟨⟨others, closing⟩, r₂, h₂⟩ ← after h₁ (parseStatements r₁)
      return ⟨(first :: others, closing), r₂, h₂⟩
termination_by 4 * tokens.length + 2

end

/-- A block. -/
def parseBlock (tokens : List Token) : Parse Block tokens.length := do
  let ⟨opening, r₁, h₁⟩ ← takeSign .lbrace tokens
  let ⟨⟨statements, closing⟩, r₂, h₂⟩ ← after h₁ (parseStatements r₁)
  return ⟨⟨opening, statements, closing⟩, r₂, h₂⟩

end TodLang
