import TodLang.Grammar.TypeClause
/-!
Expressions. Operators between operands bind by precedence and to the left; an operator before an
operand binds more tightly than all of them. A name decides by the tokens after it what it begins:
an assignment, an edit, a call, a cast, a field, an element of an array.
-/

namespace TodLang

/-- Whether a sign edits the variable before it by the value after it. -/
def Sign.isEdit : Sign → Bool
  | addAssign | subAssign | mulAssign | quoAssign | remAssign => true
  | _ => false

/-- Whether a sign, written twice in a row, counts the variable before it up or down. -/
def Sign.isStep : Sign → Bool
  | add | sub => true
  | _ => false

/-- What an expression begins with, as far as it concerns a whole expression and no operand. -/
inductive Opening where
  | assignment
  | edit (sign : Sign)
  | step (sign : Sign)
  | operand
  deriving DecidableEq, Repr

/-- Two signs count as a step only if nothing stands between them. -/
def opening (tokens : List Token) : Opening :=
  match tokens with
  | target :: operator :: others =>
    match target.kind, operator.kind with
    | .identifier, .sign sign =>
      if sign = .assign then .assignment
      else if sign.isEdit then .edit sign
      else if sign.isStep ∧ operator.spaceAfter = false ∧ nextKind others = some (.sign sign) then
        .step sign
      else .operand
    | _, _ => .operand
  | _ => .operand

/-- The sign before an operand that is read in front of operators of a given level. -/
def leadingOperator? (parent : Nat) (tokens : List Token) : Option Sign :=
  match nextKind tokens with
  | some (.sign sign) =>
    if sign.unaryPrecedence ≠ 0 ∧ parent ≤ sign.unaryPrecedence then some sign else none
  | _ => none

/-- The sign that binds the operand before it more tightly than a given level. -/
def joiningOperator? (parent : Nat) (tokens : List Token) : Option Sign :=
  match nextKind tokens with
  | some (.sign sign) => if parent < sign.binaryPrecedence then some sign else none
  | _ => none

/-- The word that speaks of the program's own names. It is a name itself unless another name
follows it on the same line. -/
def mainWord : String := "main"

/-- Whether the program's own names are spoken of here. -/
def atMain (tokens : List Token) : Bool :=
  match tokens with
  | word :: name :: _ =>
    word.kind = .identifier && word.literal = mainWord && name.kind = .identifier &&
      name.span.startLine = word.span.stopLine
  | _ => false

/-- A written type with a parenthesis behind it. -/
def tryCastHead? (tokens : List Token) : Option (Parsed TypeClause tokens.length) := do
  let ⟨type, _, h₁⟩ ← tryTypeClause? tokens
  let ⟨_, r₂, h₂⟩ ← acceptAfter? h₁ (.sign .lparen)
  return ⟨type, r₂, h₂⟩

mutual

/-- An expression. -/
def parseExpression (tokens : List Token) : Parse Expression tokens.length :=
  match opening tokens with
  | .assignment => parseAssignment tokens
  | .edit sign => do
    let ⟨target, r₁, h₁⟩ ← takeIdent tokens
    let ⟨operator, r₂, h₂⟩ ← after h₁ (takeOperator sign r₁)
    let ⟨value, r₃, h₃⟩ ← after h₂ (parseExpression r₂)
    return ⟨.edit target operator value, r₃, h₃⟩
  | .step sign => do
    let ⟨target, r₁, h₁⟩ ← takeIdent tokens
    let ⟨first, r₂, h₂⟩ ← after h₁ (takeSign sign r₁)
    let ⟨second, r₃, h₃⟩ ← after h₂ (takeSign sign r₂)
    return ⟨.step target ⟨sign, first.cover second⟩, r₃, h₃⟩
  | .operand => parseOperation 0 tokens
termination_by 8 * tokens.length + 5

/-- `target = value` -/
def parseAssignment (tokens : List Token) : Parse Expression tokens.length := do
  let ⟨target, r₁, h₁⟩ ← takeIdent tokens
  let ⟨_, r₂, h₂⟩ ← after h₁ (takeSign .assign r₁)
  let ⟨value, r₃, h₃⟩ ← after h₂ (parseExpression r₂)
  return ⟨.assignment target value, r₃, h₃⟩
termination_by 8 * tokens.length

/-- Operands joined by operators that bind more tightly than a given level. -/
def parseOperation (parent : Nat) (tokens : List Token) : Parse Expression tokens.length :=
  match leadingOperator? parent tokens with
  | some sign => do
    let ⟨operator, r₁, h₁⟩ ← takeOperator sign tokens
    let ⟨operand, r₂, h₂⟩ ← after h₁ (parseOperation sign.unaryPrecedence r₁)
    afterOptional h₂ (parseJoined parent (.unary operator operand) r₂)
  | none => do
    let ⟨operand, r₁, h₁⟩ ← parsePostfix tokens
    afterOptional h₁ (parseJoined parent operand r₁)
termination_by 8 * tokens.length + 4

/-- What operators that bind more tightly than a given level join to an operand. -/
def parseJoined (parent : Nat) (left : Expression) (tokens : List Token) :
    Parse Expression (tokens.length + 1) :=
  match joiningOperator? parent tokens with
  | none => return Parsed.unread left tokens
  | some sign => do
    let ⟨operator, r₁, h₁⟩ ← takeOperator sign tokens
    let ⟨right, r₂, h₂⟩ ← after h₁ (parseOperation sign.binaryPrecedence r₁)
    let whole ← afterOptional h₂ (parseJoined parent (.binary left operator right) r₂)
    return whole.optional
termination_by 8 * tokens.length

/-- An operand with the brackets behind it. -/
def parsePostfix (tokens : List Token) : Parse Expression tokens.length := do
  let ⟨operand, r₁, h₁⟩ ← parsePrimary tokens
  afterOptional h₁ (parseSuffixes operand r₁)
termination_by 8 * tokens.length + 3

/-- What brackets behind an array make of it. An assignment to an element ends them. -/
def parseSuffixes (array : Expression) (tokens : List Token) :
    Parse Expression (tokens.length + 1) :=
  if nextKind tokens = some (.sign .lbrack) then do
    let ⟨element, r₁, h₁⟩ ← parseSuffix array tokens
    if element.isArrayAssignment then return Parsed.optional ⟨element, r₁, h₁⟩
    else do
      let whole ← afterOptional h₁ (parseSuffixes element r₁)
      return whole.optional
  else return Parsed.unread array tokens
termination_by 8 * tokens.length + 1

/-- `array[index]` or `array[index] = value`, from the bracket on. -/
def parseSuffix (array : Expression) (tokens : List Token) : Parse Expression tokens.length := do
  let ⟨_, r₁, h₁⟩ ← takeSign .lbrack tokens
  let ⟨index, r₂, h₂⟩ ← after h₁ (parseExpression r₁)
  let ⟨closing, r₃, h₃⟩ ← after h₂ (takeSign .rbrack r₂)
  match acceptAfter? h₃ (.sign .assign) with
  | none => return ⟨.arrayAccess array index closing, r₃, h₃⟩
  | some ⟨_, r₄, h₄⟩ =>
    let ⟨value, r₅, h₅⟩ ← after h₄ (parseExpression r₄)
    return ⟨.arrayAssignment array index value, r₅, h₅⟩
termination_by 8 * tokens.length

/-- An operand without brackets behind it. -/
def parsePrimary (tokens : List Token) : Parse Expression tokens.length :=
  match nextKind tokens with
  | some (.sign .lparen) => do
    let ⟨opening, r₁, h₁⟩ ← takeSign .lparen tokens
    let ⟨inner, r₂, h₂⟩ ← after h₁ (parseExpression r₁)
    let ⟨closing, r₃, h₃⟩ ← after h₂ (takeSign .rparen r₂)
    return ⟨.parenthesized opening inner closing, r₃, h₃⟩
  | some (.keyword .thisWord) => do
    let ⟨keyword, r₁, h₁⟩ ← takeKeyword .thisWord tokens
    return ⟨.this keyword, r₁, h₁⟩
  | some (.keyword .makeWord) => parseMake tokens
  | some (.sign .and) => do
    let ⟨ampersand, r₁, h₁⟩ ← takeSign .and tokens
    let ⟨name, r₂, h₂⟩ ← after h₁ (takeIdent r₁)
    return ⟨.reference ampersand name, r₂, h₂⟩
  | some (.sign .mul) => do
    let ⟨star, r₁, h₁⟩ ← takeSign .mul tokens
    let ⟨operand, r₂, h₂⟩ ← after h₁ (parsePrimary r₁)
    return ⟨.dereference star operand, r₂, h₂⟩
  | some .identifier => if atMain tokens then parseMain tokens else parseNamed tokens
  | some kind =>
    if kind.isLiteral then do
      let ⟨token, r₁, h₁⟩ ← take kind tokens
      return ⟨.literal token, r₁, h₁⟩
    else .error ⟨.expression, tokens⟩
  | none => .error ⟨.expression, tokens⟩
termination_by 8 * tokens.length + 2

/-- `main name`, `main callee(arguments)` or `main target = value` -/
def parseMain (tokens : List Token) : Parse Expression tokens.length := do
  let ⟨keyword, r₁, h₁⟩ ← takeIdent tokens
  match kindAt r₁ 1 with
  | some (.sign .lparen) =>
    let ⟨inner, r₂, h₂⟩ ← after h₁ (parseCall r₁)
    return ⟨.main keyword.span inner, r₂, h₂⟩
  | some (.sign .assign) =>
    let ⟨inner, r₂, h₂⟩ ← after h₁ (parseAssignment r₁)
    return ⟨.main keyword.span inner, r₂, h₂⟩
  | _ =>
    let ⟨name, r₂, h₂⟩ ← after h₁ (takeIdent r₁)
    return ⟨.main keyword.span (.name name), r₂, h₂⟩
termination_by 8 * tokens.length

/-- What a name begins. A name with a bracket, or with a package and a bracket, is a cast if a
written type and a parenthesis can be read there. -/
def parseNamed (tokens : List Token) : Parse Expression tokens.length :=
  match kindAt tokens 1 with
  | some (.sign .lparen) => parseCall tokens
  | some (.sign .pathSep) =>
    if kindAt tokens 3 = some (.sign .lbrack) then
      match tryCastHead? tokens with
      | some ⟨type, r₁, h₁⟩ => do
        let ⟨⟨arguments, closing⟩, r₂, h₂⟩ ← after h₁ (parseArguments .rparen r₁)
        return ⟨.cast type arguments closing, r₂, h₂⟩
      | none => parsePackageCall tokens
    else parsePackageCall tokens
  | some (.sign .period) => parseMemberOf tokens
  | some (.sign .lbrack) =>
    match tryCastHead? tokens with
    | some ⟨type, r₁, h₁⟩ => do
      let ⟨⟨arguments, closing⟩, r₂, h₂⟩ ← after h₁ (parseArguments .rparen r₁)
      return ⟨.cast type arguments closing, r₂, h₂⟩
    | none => do
      let ⟨array, r₁, h₁⟩ ← takeIdent tokens
      after h₁ (parseSuffix (.name array) r₁)
  | _ => do
    let ⟨name, r₁, h₁⟩ ← takeIdent tokens
    return ⟨.name name, r₁, h₁⟩
termination_by 8 * tokens.length + 1

/-- `callee(arguments)` -/
def parseCall (tokens : List Token) : Parse Expression tokens.length := do
  let ⟨callee, r₁, h₁⟩ ← takeIdent tokens
  let ⟨_, r₂, h₂⟩ ← after h₁ (takeSign .lparen r₁)
  let ⟨⟨arguments, closing⟩, r₃, h₃⟩ ← after h₂ (parseArguments .rparen r₂)
  return ⟨.call callee arguments closing, r₃, h₃⟩
termination_by 8 * tokens.length

/-- `package::callee(arguments)` -/
def parsePackageCall (tokens : List Token) : Parse Expression tokens.length := do
  let ⟨package, r₁, h₁⟩ ← takeIdent tokens
  let ⟨_, r₂, h₂⟩ ← after h₁ (takeSign .pathSep r₁)
  let ⟨callee, r₃, h₃⟩ ← after h₂ (takeIdent r₂)
  let ⟨_, r₄, h₄⟩ ← after h₃ (takeSign .lparen r₃)
  let ⟨⟨arguments, closing⟩, r₅, h₅⟩ ← after h₄ (parseArguments .rparen r₄)
  return ⟨.packageCall package callee arguments closing, r₅, h₅⟩
termination_by 8 * tokens.length

/-- `receiver.callee(arguments)`, `object.field` or `object.field = value` -/
def parseMemberOf (tokens : List Token) : Parse Expression tokens.length := do
  let ⟨object, r₁, h₁⟩ ← takeIdent tokens
  let ⟨_, r₂, h₂⟩ ← after h₁ (takeSign .period r₁)
  let ⟨field, r₃, h₃⟩ ← after h₂ (takeIdent r₂)
  match nextKind r₃ with
  | some (.sign .lparen) =>
    let ⟨_, r₄, h₄⟩ ← after h₃ (takeSign .lparen r₃)
    let ⟨⟨arguments, closing⟩, r₅, h₅⟩ ← after h₄ (parseArguments .rparen r₄)
    return ⟨.typeCall object field arguments closing, r₅, h₅⟩
  | some (.sign .assign) =>
    let ⟨_, r₄, h₄⟩ ← after h₃ (takeSign .assign r₃)
    let ⟨value, r₅, h₅⟩ ← after h₄ (parseExpression r₄)
    return ⟨.fieldAssignment object field value, r₅, h₅⟩
  | _ => return ⟨.fieldAccess object field, r₃, h₃⟩
termination_by 8 * tokens.length

/-- `make` with a type and what the new value is made of. A type with types in brackets makes an
array, by its length or by its elements. -/
def parseMake (tokens : List Token) : Parse Expression tokens.length := do
  let ⟨keyword, r₁, h₁⟩ ← takeKeyword .makeWord tokens
  let ⟨type, r₂, h₂⟩ ← after h₁ (parseTypeClause r₁)
  match acceptAfter? h₂ (.sign .lbrace) with
  | some ⟨_, r₃, h₃⟩ =>
    let ⟨⟨parts, closing⟩, r₄, h₄⟩ ← after h₃ (parseArguments .rbrace r₃)
    if type.isGeneric then return ⟨.makeArray keyword type parts closing, r₄, h₄⟩
    else return ⟨.makeStruct keyword type parts closing, r₄, h₄⟩
  | none =>
    let ⟨_, r₃, h₃⟩ ← after h₂ (takeSign .lparen r₂)
    if type.isGeneric then
      let ⟨length, r₄, h₄⟩ ← after h₃ (parseExpression r₃)
      let ⟨closing, r₅, h₅⟩ ← after h₄ (takeSign .rparen r₄)
      return ⟨.makeSized keyword type length closing, r₅, h₅⟩
    else
      let ⟨⟨arguments, closing⟩, r₄, h₄⟩ ← after h₃ (parseArguments .rparen r₃)
      return ⟨.make keyword type arguments closing, r₄, h₄⟩
termination_by 8 * tokens.length

/-- Expressions with commas between them, perhaps one after the last, and the closing sign. -/
def parseArguments (closing : Sign) (tokens : List Token) :
    Parse (List Expression × Span) tokens.length :=
  match accept? (.sign closing) tokens with
  | some ⟨t, r₁, h₁⟩ => return ⟨([], t.span), r₁, h₁⟩
  | none =>
    if tokens.isEmpty then .error ⟨.token (.sign closing), tokens⟩
    else do
      let ⟨first, r₁, h₁⟩ ← parseExpression tokens
      match acceptAfter? h₁ (.sign .comma) with
      | some ⟨_, r₂, h₂⟩ =>
        let ⟨⟨others, stop⟩, r₃, h₃⟩ ← after h₂ (parseArguments closing r₂)
        return ⟨(first :: others, stop), r₃, h₃⟩
      | none =>
        let ⟨stop, r₂, h₂⟩ ← after h₁ (takeSign closing r₁)
        return ⟨([first], stop), r₂, h₂⟩
termination_by 8 * tokens.length + 6

end

end TodLang
