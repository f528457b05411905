import TodLang.Grammar.Cursor
/-!
The grammar read with a cursor. The readers look ahead among all tokens and do not ask whether an
end mark lies between. Each passes a limit of its own, one less, to the readers that stand in it;
how they go on does not depend on the limit. They read what the readers of lists read.
-/

namespace TodLang

namespace Steps

/-! ### Written types -/

/-- The name that a written type begins with. -/
def qualifiedName : Steps QualifiedName := do
  if (← kindAhead? 1) = some (.sign .pathSep) then
    let package ← ident
    let _ ← sign .pathSep
    let name ← ident
    return ⟨some package, name⟩
  else
    let name ← ident
    return ⟨none, name⟩

mutual

/-- A written type. -/
def typeClause : Nat → Steps TypeClause
  | 0 => beyondLimit
  | limit + 1 => do
    let ⟨package, name⟩ ← qualifiedName
    match ← eat (.sign .lbrack) with
    | none => return ⟨package, name, [], none⟩
    | some _ =>
      let inner ← typeArguments limit
      let closing ← sign .rbrack
      return ⟨package, name, inner, some closing⟩

/-- One or more written types with commas between them. -/
def typeArguments : Nat → Steps (List TypeClause)
  | 0 => beyondLimit
  | limit + 1 => do
    let first ← typeClause limit
    match ← eat (.sign .comma) with
    | none => return [first]
    | some _ =>
      let others ← typeArguments limit
      return first :: others

end

/-- A written type, which may be missing. -/
def optionalTypeClause (limit : Nat) : Steps (Option TypeClause) := do
  if ← check .identifier then
    let type ← typeClause limit
    return some type
  else return none

/-- The name of a written type, if there is one. -/
def tryQualifiedName : Steps (Option QualifiedName) := do
  if (← kindAhead? 1) = some (.sign .pathSep) then
    let some package ← eat .identifier | return none
    let some _ ← eat (.sign .pathSep) | return none
    let some name ← eat .identifier | return none
    return some ⟨some package.ident, name.ident⟩
  else
    let some name ← eat .identifier | return none
    return some ⟨none, name.ident⟩

mutual

/-- A written type, if there is one. The cursor stays where the type goes wrong. -/
def tryTypeClause : Nat → Steps (Option TypeClause)
  | 0 => beyondLimit
  | limit + 1 => do
    let some ⟨package, name⟩ ← tryQualifiedName | return none
    match ← eat (.sign .lbrack) with
    | none => return some ⟨package, name, [], none⟩
    | some _ =>
      let some inner ← tryTypeArguments limit | return none
      let some closing ← eat (.sign .rbrack) | return none
      return some ⟨package, name, inner, some closing.span⟩

/-- One or more written types with commas between them, if they are there. -/
def tryTypeArguments : Nat → Steps (Option (List TypeClause))
  | 0 => beyondLimit
  | limit + 1 => do
    if ← check .identifier then
      let some first ← tryTypeClause limit | return none
      match ← eat (.sign .comma) with
      | none => return some [first]
      | some _ =>
        let some others ← tryTypeArguments limit | return none
        return some (first :: others)
    else return none

end

/-- A written type with a parenthesis behind it, if it is there. -/
def tryCastHead (limit : Nat) : Steps (Option TypeClause) := do
  let some type ← tryTypeClause limit | return none
  let some _ ← eat (.sign .lparen) | return none
  return some type

/-! ### Expressions -/

/-- The tokens at the cursor and behind it, some of them perhaps behind an end mark. -/
def window (width : Nat) : Steps (List Token) :=
  (List.range width).mapM peek

mutual

/-- An expression. -/
def expression : Nat → Steps Expression
  | 0 => beyondLimit
  | limit + 1 => do
    match opening (← window 3) with
    | .assignment => assignment limit
    | .edit s =>
      let target ← ident
      let sign ← operator s
      let value ← expression limit
      return .edit target sign value
    | .step s =>
      let target ← ident
      let first ← place
      let second ← sign s
      return .step target ⟨s, first.cover second⟩
    | .operand => operation 0 limit

/-- `target = value` -/
def assignment : Nat → Steps Expression
  | 0 => beyondLimit
  | limit + 1 => do
    let target ← ident
    let _ ← sign .assign
    let value ← expression limit
    return .assignment target value

/-- Operands joined by operators that bind more tightly than a given level. -/
def operation (parent : Nat) : Nat → Steps Expression
  | 0 => beyondLimit
  | limit + 1 => do
    match leadingOperator? parent [← current] with
    | some s =>
      let sign ← operator s
      let operand ← operation s.unaryPrecedence limit
      joined parent (.unary sign operand) limit
    | none =>
      let operand ← postfixed limit
      joined parent operand limit

/-- What operators that bind more tightly than a given level join to an operand. -/
def joined (parent : Nat) (left : Expression) : Nat → Steps Expression
  | 0 => beyondLimit
  | limit + 1 => do
    match joiningOperator? parent [← current] with
    | none => return left
    | some s =>
      let sign ← operator s
      let right ← operation s.binaryPrecedence limit
      joined parent (.binary left sign right) limit

/-- An operand with the brackets behind it. -/
def postfixed : Nat → Steps Expression
  | 0 => beyondLimit
  | limit + 1 => do
    let operand ← primary limit
    suffixes operand limit

/-- What brackets behind an array make of it. An assignment to an element ends them. -/
def suffixes (array : Expression) : Nat → Steps Expression
  | 0 => beyondLimit
  | limit + 1 => do
    if ← check (.sign .lbrack) then
      let element ← suffix array limit
      if element.isArrayAssignment then return element else suffixes element limit
    else return array

/-- `array[index]` or `array[index] = value`, from the bracket on. -/
def suffix (array : Expression) : Nat → Steps Expression
  | 0 => beyondLimit
  | limit + 1 => do
    let _ ← sign .lbrack
    let index ← expression limit
    let closing ← sign .rbrack
    match ← eat (.sign .assign) with
    | none => return .arrayAccess array index closing
    | some _ =>
      let value ← expression limit
      return .arrayAssignment array index value

/-- An operand without brackets behind it. -/
def primary : Nat → Steps Expression
  | 0 => beyondLimit
  | limit + 1 => do
    match ← kindAhead? 0 with
    | some (.sign .lparen) =>
      let opening ← sign .lparen
      let inner ← expression limit
      let closing ← sign .rparen
      return .parenthesized opening inner closing
    | some (.keyword .thisWord) =>
      let word ← place
      return .this word
    | some (.keyword .makeWord) => made limit
    | some (.sign .and) =>
      let ampersand ← sign .and
      let name ← ident
      return .reference ampersand name
    | some (.sign .mul) =>
      let star ← sign .mul
      let operand ← primary limit
      return .dereference star operand
    | some .identifier => if atMain (← window 2) then ofMain limit else named limit
    | some kind =>
      if kind.isLiteral then
        let t ← advance
        return .literal t
      else unexpected .expression
    | none => unexpected .expression

/-- `main name`, `main callee(arguments)` or `main target = value` -/
def ofMain : Nat → Steps Expression
  | 0 => beyondLimit
  | limit + 1 => do
    let word ← ident
    match ← kindAhead? 1 with
    | some (.sign .lparen) =>
      let inner ← call limit
      return .main word.span inner
    | some (.sign .assign) =>
      let inner ← assignment limit
      return .main word.span inner
    | _ =>
      let name ← ident
      return .main word.span (.name name)

/-- What a name begins. At a bracket the cursor is saved: if no written type and parenthesis can be
read, it goes back. -/
def named : Nat → Steps Expression
  | 0 => beyondLimit
  | limit + 1 => do
    match ← kindAhead? 1 with
    | some (.sign .lparen) => call limit
    | some (.sign .pathSep) =>
      if (← kindAhead? 3) = some (.sign .lbrack) then
        let saved ← save
        match ← tryCastHead limit with
        | some type => cast type limit
        | none =>
          restore saved
          let package ← ident
          callOf package limit
      else
        let package ← ident
        callOf package limit
    | some (.sign .period) => memberOf limit
    | some (.sign .lbrack) =>
      let saved ← save
      match ← tryCastHead limit with
      | some type => cast type limit
      | none =>
        restore saved
        let array ← ident
        suffix (.name array) limit
    | _ =>
      let name ← ident
      return .name name

/-- The arguments of a cast. -/
def cast (type : TypeClause) : Nat → Steps Expression
  | 0 => beyondLimit
  | limit + 1 => do
    let (parts, closing) ← arguments .rparen limit
    return .cast type parts closing

/-- `callee(arguments)` -/
def call : Nat → Steps Expression
  | 0 => beyondLimit
  | limit + 1 => do
    let callee ← ident
    let _ ← sign .lparen
    let (parts, closing) ← arguments .rparen limit
    return .call callee parts closing

/-- `::callee(arguments)` behind a package. -/
def callOf (package : Ident) : Nat → Steps Expression
  | 0 => beyondLimit
  | limit + 1 => do
    let _ ← sign .pathSep
    let callee ← ident
    let _ ← sign .lparen
    let (parts, closing) ← arguments .rparen limit
    return .packageCall package callee parts closing

/-- `receiver.callee(arguments)`, `object.field` or `object.field = value` -/
def memberOf : Nat → Steps Expression
  | 0 => beyondLimit
  | limit + 1 => do
    let object ← ident
    let _ ← sign .period
    let field ← ident
    match ← eat (.sign .lparen) with
    | some _ =>
      let (parts, closing) ← arguments .rparen limit
      return .typeCall object field parts closing
    | none =>
      match ← eat (.sign .assign) with
      | some _ =>
        let value ← expression limit
        return .fieldAssignment object field value
      | none => return .fieldAccess object field

/-- `make` with a type and what the new value is made of. -/
def made : Nat → Steps Expression
  | 0 => beyondLimit
  | limit + 1 => do
    let word ← keyword .makeWord
    let type ← typeClause limit
    match ← eat (.sign .lbrace) with
    | some _ =>
      let (parts, closing) ← arguments .rbrace limit
      if type.isGeneric then return .makeArray word type parts closing
      else return .makeStruct word type parts closing
    | none =>
      let _ ← sign .lparen
      if type.isGeneric then
        let length ← expression limit
        let closing ← sign .rparen
        return .makeSized word type length closing
      else
        let (parts, closing) ← arguments .rparen limit
        return .make word type parts closing

/-- Expressions with commas between them, perhaps one after the last, and the closing sign. -/
def arguments (closing : Sign) : Nat → Steps (List Expression × Span)
  | 0 => beyondLimit
  | limit + 1 => do
    if ← atClosing closing then
      let stop ← sign closing
      return ([], stop)
    else
      let first ← expression limit
      match ← eat (.sign .comma) with
      | some _ =>
        let (others, stop) ← arguments closing limit
        return (first :: others, stop)
      | none =>
        let stop ← sign closing
        return ([first], stop)

end

/-! ### Statements -/

/-- The type in a declaration, which may be missing. -/
def declaredType (limit : Nat) : Steps (Option TypeClause) := do
  if atDeclaredType (← window 2) then
    let type ← typeClause limit
    return some type
  else return none

/-- `= value`, which may be missing. -/
def initialValue (limit : Nat) : Steps (Option Expression) := do
  match ← eat (.sign .assign) with
  | some _ =>
    let value ← expression limit
    return some value
  | none => return none

/-- The word that begins a declaration, and whether the variable keeps its value. -/
def variableWord : Steps (Span × Bool) := do
  match ← kindAhead? 0 with
  | some (.keyword .varWord) =>
    let word ← place
    return (word, false)
  | some (.keyword .setWord) =>
    let word ← place
    return (word, true)
  | _ => unexpected .variable

/-- A declaration of a variable. -/
def variableDeclaration (limit : Nat) : Steps VariableDeclaration := do
  let (word, readOnly) ← variableWord
  let type ← declaredType limit
  let name ← ident
  let value ← initialValue limit
  return ⟨word, readOnly, type, name, value⟩

/-- The value that a `return` gives back, which may be missing. -/
def returnValue (limit : Nat) : Steps (Option Expression) := do
  if [none, some (.sign .semicolon), some (.sign .rbrace)].contains (← kindAhead? 0) then
    return none
  else
    let value ← expression limit
    return some value

/-- A condition between parentheses. -/
def condition (limit : Nat) : Steps Expression := do
  let _ ← sign .lparen
  let inner ← expression limit
  let _ ← sign .rparen
  return inner

mutual

/-- A statement with the semicolon behind it, if there is one. -/
def statement : Nat → Steps Statement
  | 0 => beyondLimit
  | limit + 1 => do
    let inner ← bareStatement limit
    let _ ← eat (.sign .semicolon)
    return inner

/-- A statement without the semicolon behind it. -/
def bareStatement : Nat → Steps Statement
  | 0 => beyondLimit
  | limit + 1 => do
    match ← kindAhead? 0 with
    | some (.keyword .varWord) | some (.keyword .setWord) =>
      let declaration ← variableDeclaration limit
      return .declaration declaration
    | some (.sign .lbrace) =>
      let inner ← block limit
      return .block inner.opening inner.statements inner.closing
    | some (.keyword .ifWord) =>
      let word ← keyword .ifWord
      let test ← condition limit
      let body ← statement limit
      match ← eat (.keyword .elseWord) with
      | some elseToken =>
        let alternative ← statement limit
        return .ifElse word test body elseToken.span alternative
      | none => return .ifThen word test body
    | some (.keyword .returnWord) =>
      let word ← keyword .returnWord
      let value ← returnValue limit
      return .return word value
    | some (.keyword .forWord) =>
      let word ← keyword .forWord
      let _ ← sign .lparen
      let init ← variableDeclaration limit
      let _ ← sign .semicolon
      let test ← expression limit
      let _ ← sign .semicolon
      let step ← statement limit
      let _ ← sign .rparen
      let body ← statement limit
      return .for word init test step body
    | some (.keyword .whileWord) =>
      let word ← keyword .whileWord
      let test ← condition limit
      let body ← statement limit
      return .while word test body
    | some (.keyword .breakWord) =>
      let word ← place
      return .break word
    | some (.keyword .continueWord) =>
      let word ← place
      return .continue word
    | _ =>
      let inner ← expression limit
      return .expression inner

/-- A block. -/
def block : Nat → Steps Block
  | 0 => beyondLimit
  | limit + 1 => do
    let opening ← sign .lbrace
    let (inner, closing) ← statements limit
    return ⟨opening, inner, closing⟩

/-- The statements of a block and the place of the brace that closes it. -/
def statements : Nat → Steps (List Statement × Span)
  | 0 => beyondLimit
  | limit + 1 => do
    if ← atClosing .rbrace then
      let closing ← sign .rbrace
      return ([], closing)
    else
      let saved ← save
      let first ← statement limit
      leave saved
      let (others, closing) ← statements limit
      return (first :: others, closing)

end

/-! ### Members -/

/-- A name and its type. -/
def parameter (limit : Nat) : Steps Parameter := do
  let name ← ident
  let type ← typeClause limit
  return ⟨name, type⟩

/-- One or more parameters with commas between them. -/
def parameters : Nat → Steps (List Parameter)
  | 0 => beyondLimit
  | limit + 1 => do
    let first ← parameter limit
    match ← eat (.sign .comma) with
    | none => return [first]
    | some _ =>
      let others ← parameters limit
      return first :: others

/-- The parameters of a function between parentheses, and the place of the closing one. -/
def parameterList (limit : Nat) : Steps (List Parameter × Span) := do
  let _ ← sign .lparen
  if ← check (.sign .rparen) then
    let closing ← sign .rparen
    return ([], closing)
  else
    let inner ← parameters limit
    let closing ← sign .rparen
    return (inner, closing)

/-- The fields of a structure, and the place of the closing brace. -/
def fields : Nat → Steps (List Parameter × Span)
  | 0 => beyondLimit
  | limit + 1 => do
    if ← atClosing .rbrace then
      let closing ← sign .rbrace
      return ([], closing)
    else
      let first ← parameter limit
      match ← eat (.sign .comma) with
      | some _ =>
        let (others, closing) ← fields limit
        return (first :: others, closing)
      | none =>
        let closing ← sign .rbrace
        return ([first], closing)

/-- A function with its body, behind the word that makes it visible to other sources, if that word
was there. -/
def functionBehind (visibility : Option Span) (limit : Nat) : Steps Member := do
  let word ← keyword .fnWord
  let name ← ident
  let (inner, _) ← parameterList limit
  let returnType ← optionalTypeClause limit
  let body ← block limit
  return .function ⟨visibility, word, name, inner, returnType, body⟩

/-- A function with its body. -/
def function (limit : Nat) : Steps Member := do
  let visibility ← eat (.keyword .setWord)
  functionBehind (visibility.map Token.span) limit

/-- A function that is defined elsewhere. -/
def external (limit : Nat) : Steps Member := do
  let word ← keyword .externalWord
  let _ ← keyword .fnWord
  let name ← ident
  let (inner, closing) ← parameterList limit
  let returnType ← optionalTypeClause limit
  let _ ← eat (.sign .semicolon)
  return .external ⟨word, name, inner, returnType, closing⟩

/-- A structure. -/
def struct (limit : Nat) : Steps Member := do
  let word ← keyword .structWord
  let name ← ident
  let _ ← sign .lbrace
  let (inner, closing) ← fields limit
  let _ ← eat (.sign .semicolon)
  return .struct ⟨word, name, inner, closing⟩

/-- A keyword with a name, and what they make. -/
def directive (word : Keyword) (make : Span → Ident → Member) : Steps Member := do
  let place ← keyword word
  let name ← ident
  let _ ← eat (.sign .semicolon)
  return make place name

/-- A member of a program. -/
def member (limit : Nat) : Steps Member := do
  match ← kindAhead? 0 with
  | some (.keyword .fnWord) => function limit
  | some (.keyword .setWord) =>
    if (← kindAhead? 1) = some (.keyword .fnWord) then function limit
    else
      let inner ← statement limit
      return .statement inner
  | some (.keyword .externalWord) => external limit
  | some (.keyword .structWord) => struct limit
  | some (.keyword .packageWord) => directive .packageWord .packageReference
  | some (.keyword .usingWord) => directive .usingWord .packageUse
  | _ =>
    let inner ← statement limit
    return .statement inner

/-- The members up to the first end mark. -/
def members : Nat → Steps (List Member)
  | 0 => beyondLimit
  | limit + 1 => do
    if ← atEnd then return []
    else
      let saved ← save
      let first ← member limit
      leave saved
      let others ← members limit
      return first :: others

end Steps

/-- What comes of reading a program with a cursor, and where the cursor is at the end. -/
def readProgram (limit : Nat) (tokens : List Token) :
    Option (Except SyntaxError (List Member) × Cursor) :=
  Steps.outcome? tokens Cursor.start (Steps.members limit)

end TodLang
