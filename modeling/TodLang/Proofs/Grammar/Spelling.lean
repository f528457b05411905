import TodLang.Grammar.Member
/-!
The grammar of the language as relations between a piece of the tree and the tokens that spell it.
They speak of no reader: each constructor is one form of the grammar, with its fixed words and
signs, and says which tokens end up in the tree. The main result is that every token of a spelling
has a role in the grammar.
-/

namespace TodLang

/-! ### Single tokens, and pieces in a row -/

/-- A token of which the tree keeps nothing. -/
inductive Fixed (kind : TokenKind) : List Token → Prop
  | token {t : Token} (h : t.kind = kind) : Fixed kind [t]

/-- A token of which the tree keeps the place. -/
inductive Marks (kind : TokenKind) : Span → List Token → Prop
  | token {t : Token} (h : t.kind = kind) : Marks kind t.span [t]

/-- A name. -/
inductive NameSpelling : Ident → List Token → Prop
  | token {t : Token} (h : t.kind = .identifier) : NameSpelling t.ident [t]

/-- An operator. -/
inductive OperatorSpelling : Operator → List Token → Prop
  | token {t : Token} {sign : Sign} (h : t.kind = .sign sign) :
      OperatorSpelling ⟨sign, t.span⟩ [t]

/-- A token of which the tree keeps nothing, and which may be missing. -/
inductive AtMostOne (kind : TokenKind) : List Token → Prop
  | missing : AtMostOne kind []
  | present {tokens : List Token} (h : Fixed kind tokens) : AtMostOne kind tokens

/-- A piece that may be missing, and then is spelled by no token. -/
inductive Optionally {α : Type} (spells : α → List Token → Prop) : Option α → List Token → Prop
  | missing : Optionally spells none []
  | present {value : α} {tokens : List Token} (h : spells value tokens) :
      Optionally spells (some value) tokens

/-- One or more pieces with a comma between every two of them. -/
inductive Separated {α : Type} (spells : α → List Token → Prop) : List α → List Token → Prop
  | last {value : α} {tokens : List Token} (h : spells value tokens) :
      Separated spells [value] tokens
  | more {value : α} {others : List α} {front comma back : List Token} (h : spells value front)
      (hcomma : Fixed (.sign .comma) comma) (hothers : Separated spells others back) :
      Separated spells (value :: others) (front ++ comma ++ back)

/-- Pieces with a comma between every two of them, and perhaps one after the last. -/
inductive Listed {α : Type} (spells : α → List Token → Prop) : List α → List Token → Prop
  | none : Listed spells [] []
  | last {value : α} {tokens : List Token} (h : spells value tokens) :
      Listed spells [value] tokens
  | more {value : α} {others : List α} {front comma back : List Token} (h : spells value front)
      (hcomma : Fixed (.sign .comma) comma) (hothers : Listed spells others back) :
      Listed spells (value :: others) (front ++ comma ++ back)

/-- A piece, and behind it a token that closes it, of which the tree keeps the place. -/
def ClosedBy {α : Type} (kind : TokenKind) (spells : α → List Token → Prop) (piece : α × Span)
    (tokens : List Token) : Prop :=
  ∃ inside closed, tokens = inside ++ closed ∧ spells piece.1 inside ∧ Marks kind piece.2 closed

/-! ### Written types -/

/-- A name, with the package in front of it if there is one. -/
inductive QualifiedSpelling : Option Ident → Ident → List Token → Prop
  | plain {name : Ident} {tokens : List Token} (hname : NameSpelling name tokens) :
      QualifiedSpelling none name tokens
  | qualified {package name : Ident} {front separator back : List Token}
      (hpackage : NameSpelling package front) (hseparator : Fixed (.sign .pathSep) separator)
      (hname : NameSpelling name back) :
      QualifiedSpelling (some package) name (front ++ separator ++ back)

/-- What a run of tokens can spell where types are written. -/
inductive TypePart where
  | clause (clause : TypeClause)
  /-- One or more types with commas between them. -/
  | clauses (clauses : List TypeClause)

/-- The grammar of written types. -/
inductive SpellsType : TypePart → List Token → Prop
  | plain {package : Option Ident} {name : Ident} {tokens : List Token}
      (hname : QualifiedSpelling package name tokens) :
      SpellsType (.clause ⟨package, name, [], none⟩) tokens
  | generic {package : Option Ident} {name : Ident} {arguments : List TypeClause} {closing : Span}
      {front opened inside closed : List Token} (hname : QualifiedSpelling package name front)
      (hopening : Fixed (.sign .lbrack) opened)
      (harguments : SpellsType (.clauses arguments) inside)
      (hclosing : Marks (.sign .rbrack) closing closed) :
      SpellsType (.clause ⟨package, name, arguments, some closing⟩)
        (front ++ opened ++ inside ++ closed)
  | last {type : TypeClause} {tokens : List Token} (htype : SpellsType (.clause type) tokens) :
      SpellsType (.clauses [type]) tokens
  | more {type : TypeClause} {others : List TypeClause} {front comma back : List Token}
      (htype : SpellsType (.clause type) front) (hcomma : Fixed (.sign .comma) comma)
      (hothers : SpellsType (.clauses others) back) :
      SpellsType (.clauses (type :: others)) (front ++ comma ++ back)

/-- The spellings of a written type. -/
def TypeSpelling (type : TypeClause) (tokens : List Token) : Prop :=
  SpellsType (.clause type) tokens

/-! ### Expressions -/

/-- What a run of tokens can spell where expressions are written. -/
inductive ExpressionPart where
  /-- Any expression. -/
  | expression (e : Expression)
  /-- Operands joined by operators that bind more tightly than a level. -/
  | operation (level : Nat) (e : Expression)
  /-- An operand with all the brackets behind it. -/
  | operand (e : Expression)
  /-- An operand with brackets behind it, where more may follow. -/
  | accessed (e : Expression)
  /-- An operand without brackets behind it, those of a bare name apart. -/
  | primary (e : Expression)
  /-- What may stand behind `main`. -/
  | own (e : Expression)
  /-- Expressions with commas between them, and perhaps one after the last. -/
  | arguments (es : List Expression)

/-- The grammar of expressions. -/
inductive SpellsExpression : ExpressionPart → List Token → Prop
  | assignment {target : Ident} {value : Expression} {front sign back : List Token}
      (htarget : NameSpelling target front) (hsign : Fixed (.sign .assign) sign)
      (hvalue : SpellsExpression (.expression value) back) :
      SpellsExpression (.expression (.assignment target value)) (front ++ sign ++ back)
  | edit {target : Ident} {operator : Operator} {value : Expression}
      {front middle back : List Token} (htarget : NameSpelling target front)
      (hoperator : OperatorSpelling operator middle) (hedit : operator.sign.isEdit = true)
      (hvalue : SpellsExpression (.expression value) back) :
      SpellsExpression (.expression (.edit target operator value)) (front ++ middle ++ back)
  /-- The sign is written twice with nothing in between. -/
  | step {target : Ident} {first second : Token} {sign : Sign} {front : List Token}
      (htarget : NameSpelling target front) (hfirst : first.kind = .sign sign)
      (hsecond : second.kind = .sign sign) (hstep : sign.isStep = true)
      (hclose : first.spaceAfter = false) :
      SpellsExpression (.expression (.step target ⟨sign, first.span.cover second.span⟩))
        (front ++ [first, second])
  | operation {e : Expression} {tokens : List Token}
      (h : SpellsExpression (.operation 0 e) tokens) : SpellsExpression (.expression e) tokens
  | operand {level : Nat} {e : Expression} {tokens : List Token}
      (h : SpellsExpression (.operand e) tokens) : SpellsExpression (.operation level e) tokens
  | unary {level : Nat} {operator : Operator} {e : Expression} {front back : List Token}
      (hoperator : OperatorSpelling operator front) (hunary : operator.sign.unaryPrecedence ≠ 0)
      (hlevel : level ≤ operator.sign.unaryPrecedence)
      (h : SpellsExpression (.operation operator.sign.unaryPrecedence e) back) :
      SpellsExpression (.operation level (.unary operator e)) (front ++ back)
  /-- Operators of one level bind to the left, so only the left operand may be of that level. -/
  | binary {level : Nat} {left right : Expression} {operator : Operator}
      {front middle back : List Token} (hlevel : level < operator.sign.binaryPrecedence)
      (hleft : SpellsExpression (.operation (operator.sign.binaryPrecedence - 1) left) front)
      (hoperator : OperatorSpelling operator middle)
      (hright : SpellsExpression (.operation operator.sign.binaryPrecedence right) back) :
      SpellsExpression (.operation level (.binary left operator right)) (front ++ middle ++ back)
  | accessed {e : Expression} {tokens : List Token}
      (h : SpellsExpression (.accessed e) tokens) : SpellsExpression (.operand e) tokens
  | arrayAssignment {array index value : Expression}
      {front opened inside closed sign back : List Token}
      (harray : SpellsExpression (.accessed array) front)
      (hopening : Fixed (.sign .lbrack) opened)
      (hindex : SpellsExpression (.expression index) inside)
      (hclosing : Fixed (.sign .rbrack) closed) (hsign : Fixed (.sign .assign) sign)
      (hvalue : SpellsExpression (.expression value) back) :
      SpellsExpression (.operand (.arrayAssignment array index value))
        (front ++ opened ++ inside ++ closed ++ sign ++ back)
  | primary {e : Expression} {tokens : List Token}
      (h : SpellsExpression (.primary e) tokens) : SpellsExpression (.accessed e) tokens
  | arrayAccess {array index : Expression} {closing : Span}
      {front opened inside closed : List Token}
      (harray : SpellsExpression (.accessed array) front)
      (hopening : Fixed (.sign .lbrack) opened)
      (hindex : SpellsExpression (.expression index) inside)
      (hclosing : Marks (.sign .rbrack) closing closed) :
      SpellsExpression (.accessed (.arrayAccess array index closing))
        (front ++ opened ++ inside ++ closed)
  | literal {t : Token} (h : t.kind.isLiteral = true) : SpellsExpression (.primary (.literal t)) [t]
  | parenthesized {opening closing : Span} {e : Expression} {opened inside closed : List Token}
      (hopening : Marks (.sign .lparen) opening opened)
      (h : SpellsExpression (.expression e) inside)
      (hclosing : Marks (.sign .rparen) closing closed) :
      SpellsExpression (.primary (.parenthesized opening e closing)) (opened ++ inside ++ closed)
  | this {keyword : Span} {tokens : List Token} (h : Marks (.keyword .thisWord) keyword tokens) :
      SpellsExpression (.primary (.this keyword)) tokens
  | reference {ampersand : Span} {name : Ident} {front back : List Token}
      (hampersand : Marks (.sign .and) ampersand front) (hname : NameSpelling name back) :
      SpellsExpression (.primary (.reference ampersand name)) (front ++ back)
  | dereference {star : Span} {e : Expression} {front back : List Token}
      (hstar : Marks (.sign .mul) star front) (h : SpellsExpression (.primary e) back) :
      SpellsExpression (.primary (.dereference star e)) (front ++ back)
  | name {name : Ident} {tokens : List Token} (h : NameSpelling name tokens) :
      SpellsExpression (.primary (.name name)) tokens
  | call {callee : Ident} {arguments : List Expression} {closing : Span}
      {front opened inside closed : List Token} (hcallee : NameSpelling callee front)
      (hopening : Fixed (.sign .lparen) opened)
      (harguments : SpellsExpression (.arguments arguments) inside)
      (hclosing : Marks (.sign .rparen) closing closed) :
      SpellsExpression (.primary (.call callee arguments closing))
        (front ++ opened ++ inside ++ closed)
  /-- Without types in brackets it would be a call. -/
  | cast {type : TypeClause} {arguments : List Expression} {closing : Span}
      {front opened inside closed : List Token} (htype : TypeSpelling type front)
      (hgeneric : type.isGeneric = true) (hopening : Fixed (.sign .lparen) opened)
      (harguments : SpellsExpression (.arguments arguments) inside)
      (hclosing : Marks (.sign .rparen) closing closed) :
      SpellsExpression (.primary (.cast type arguments closing))
        (front ++ opened ++ inside ++ closed)
  | packageCall {package callee : Ident} {arguments : List Expression} {closing : Span}
      {front separator middle opened inside closed : List Token}
      (hpackage : NameSpelling package front) (hseparator : Fixed (.sign .pathSep) separator)
      (hcallee : NameSpelling callee middle) (hopening : Fixed (.sign .lparen) opened)
      (harguments : SpellsExpression (.arguments arguments) inside)
      (hclosing : Marks (.sign .rparen) closing closed) :
      SpellsExpression (.primary (.packageCall package callee arguments closing))
        (front ++ separator ++ middle ++ opened ++ inside ++ closed)
  | typeCall {receiver callee : Ident} {arguments : List Expression} {closing : Span}
      {front period middle opened inside closed : List Token}
      (hreceiver : NameSpelling receiver front) (hperiod : Fixed (.sign .period) period)
      (hcallee : NameSpelling callee middle) (hopening : Fixed (.sign .lparen) opened)
      (harguments : SpellsExpression (.arguments arguments) inside)
      (hclosing : Marks (.sign .rparen) closing closed) :
      SpellsExpression (.primary (.typeCall receiver callee arguments closing))
        (front ++ period ++ middle ++ opened ++ inside ++ closed)
  | fieldAccess {object field : Ident} {front period back : List Token}
      (hobject : NameSpelling object front) (hperiod : Fixed (.sign .period) period)
      (hfield : NameSpelling field back) :
      SpellsExpression (.primary (.fieldAccess object field)) (front ++ period ++ back)
  | fieldAssignment {object field : Ident} {value : Expression}
      {front period middle sign back : List Token} (hobject : NameSpelling object front)
      (hperiod : Fixed (.sign .period) period) (hfield : NameSpelling field middle)
      (hsign : Fixed (.sign .assign) sign) (hvalue : SpellsExpression (.expression value) back) :
      SpellsExpression (.primary (.fieldAssignment object field value))
        (front ++ period ++ middle ++ sign ++ back)
  | element {array : Ident} {index : Expression} {closing : Span}
      {front opened inside closed : List Token} (harray : NameSpelling array front)
      (hopening : Fixed (.sign .lbrack) opened)
      (hindex : SpellsExpression (.expression index) inside)
      (hclosing : Marks (.sign .rbrack) closing closed) :
      SpellsExpression (.primary (.arrayAccess (.name array) index closing))
        (front ++ opened ++ inside ++ closed)
  | elementAssignment {array : Ident} {index value : Expression}
      {front opened inside closed sign back : List Token} (harray : NameSpelling array front)
      (hopening : Fixed (.sign .lbrack) opened)
      (hindex : SpellsExpression (.expression index) inside)
      (hclosing : Fixed (.sign .rbrack) closed) (hsign : Fixed (.sign .assign) sign)
      (hvalue : SpellsExpression (.expression value) back) :
      SpellsExpression (.primary (.arrayAssignment (.name array) index value))
        (front ++ opened ++ inside ++ closed ++ sign ++ back)
  | make {keyword closing : Span} {type : TypeClause} {arguments : List Expression}
      {word front opened inside closed : List Token}
      (hkeyword : Marks (.keyword .makeWord) keyword word) (htype : TypeSpelling type front)
      (hgeneric : type.isGeneric = false) (hopening : Fixed (.sign .lparen) opened)
      (harguments : SpellsExpression (.arguments arguments) inside)
      (hclosing : Marks (.sign .rparen) closing closed) :
      SpellsExpression (.primary (.make keyword type arguments closing))
        (word ++ front ++ opened ++ inside ++ closed)
  | makeSized {keyword closing : Span} {type : TypeClause} {length : Expression}
      {word front opened inside closed : List Token}
      (hkeyword : Marks (.keyword .makeWord) keyword word) (htype : TypeSpelling type front)
      (hgeneric : type.isGeneric = true) (hopening : Fixed (.sign .lparen) opened)
      (hlength : SpellsExpression (.expression length) inside)
      (hclosing : Marks (.sign .rparen) closing closed) :
      SpellsExpression (.primary (.makeSized keyword type length closing))
        (word ++ front ++ opened ++ inside ++ closed)
  | makeArray {keyword closing : Span} {type : TypeClause} {elements : List Expression}
      {word front opened inside closed : List Token}
      (hkeyword : Marks (.keyword .makeWord) keyword word) (htype : TypeSpelling type front)
      (hgeneric : type.isGeneric = true) (hopening : Fixed (.sign .lbrace) opened)
      (helements : SpellsExpression (.arguments elements) inside)
      (hclosing : Marks (.sign .rbrace) closing closed) :
      SpellsExpression (.primary (.makeArray keyword type elements closing))
        (word ++ front ++ opened ++ inside ++ closed)
  | makeStruct {keyword closing : Span} {type : TypeClause} {fields : List Expression}
      {word front opened inside closed : List Token}
      (hkeyword : Marks (.keyword .makeWord) keyword word) (htype : TypeSpelling type front)
      (hgeneric : type.isGeneric = false) (hopening : Fixed (.sign .lbrace) opened)
      (hfields : SpellsExpression (.arguments fields) inside)
      (hclosing : Marks (.sign .rbrace) closing closed) :
      SpellsExpression (.primary (.makeStruct keyword type fields closing))
        (word ++ front ++ opened ++ inside ++ closed)
  /-- The word has its meaning only in front of a name on the same line. -/
  | main {keyword name : Token} {e : Expression} {back : List Token}
      (hkeyword : keyword.kind = .identifier) (hword : keyword.literal = mainWord)
      (hname : name.kind = .identifier) (hline : name.span.startLine = keyword.span.stopLine)
      (h : SpellsExpression (.own e) (name :: back)) :
      SpellsExpression (.primary (.main keyword.span e)) (keyword :: name :: back)
  | ownName {name : Ident} {tokens : List Token} (h : NameSpelling name tokens) :
      SpellsExpression (.own (.name name)) tokens
  | ownCall {callee : Ident} {arguments : List Expression} {closing : Span} {tokens : List Token}
      (h : SpellsExpression (.primary (.call callee arguments closing)) tokens) :
      SpellsExpression (.own (.call callee arguments closing)) tokens
  | ownAssignment {target : Ident} {value : Expression} {tokens : List Token}
      (h : SpellsExpression (.expression (.assignment target value)) tokens) :
      SpellsExpression (.own (.assignment target value)) tokens
  | none : SpellsExpression (.arguments []) []
  | last {e : Expression} {tokens : List Token} (h : SpellsExpression (.expression e) tokens) :
      SpellsExpression (.arguments [e]) tokens
  | more {e : Expression} {others : List Expression} {front comma back : List Token}
      (h : SpellsExpression (.expression e) front) (hcomma : Fixed (.sign .comma) comma)
      (hothers : SpellsExpression (.arguments others) back) :
      SpellsExpression (.arguments (e :: others)) (front ++ comma ++ back)

/-- The spellings of an expression. -/
def ExpressionSpelling (e : Expression) (tokens : List Token) : Prop :=
  SpellsExpression (.expression e) tokens

/-! ### Statements -/

/-- `= value` -/
inductive InitialSpelling : Expression → List Token → Prop
  | intro {value : Expression} {sign back : List Token} (hsign : Fixed (.sign .assign) sign)
      (hvalue : ExpressionSpelling value back) : InitialSpelling value (sign ++ back)

/-- `(condition)` -/
inductive ConditionSpelling : Expression → List Token → Prop
  | intro {condition : Expression} {opened inside closed : List Token}
      (hopening : Fixed (.sign .lparen) opened) (hcondition : ExpressionSpelling condition inside)
      (hclosing : Fixed (.sign .rparen) closed) :
      ConditionSpelling condition (opened ++ inside ++ closed)

/-- The word that begins a declaration, and whether the variable keeps its value. -/
inductive VariableWordSpelling : Span × Bool → List Token → Prop
  | var {keyword : Span} {tokens : List Token} (h : Marks (.keyword .varWord) keyword tokens) :
      VariableWordSpelling (keyword, false) tokens
  | set {keyword : Span} {tokens : List Token} (h : Marks (.keyword .setWord) keyword tokens) :
      VariableWordSpelling (keyword, true) tokens

/-- A declaration of a variable. -/
inductive DeclarationSpelling : VariableDeclaration → List Token → Prop
  | intro {keyword : Span} {readOnly : Bool} {type : Option TypeClause} {name : Ident}
      {value : Option Expression} {word clause front back : List Token}
      (hkeyword : VariableWordSpelling (keyword, readOnly) word)
      (htype : Optionally TypeSpelling type clause) (hname : NameSpelling name front)
      (hvalue : Optionally InitialSpelling value back) :
      DeclarationSpelling ⟨keyword, readOnly, type, name, value⟩ (word ++ clause ++ front ++ back)

/-- What a run of tokens can spell where statements are written. -/
inductive StatementPart where
  | statement (s : Statement)
  /-- A statement without the semicolon behind it. -/
  | bare (s : Statement)
  | statements (ss : List Statement)

/-- The grammar of statements. -/
inductive SpellsStatement : StatementPart → List Token → Prop
  | statement {s : Statement} {front back : List Token} (h : SpellsStatement (.bare s) front)
      (hsemicolon : AtMostOne (.sign .semicolon) back) :
      SpellsStatement (.statement s) (front ++ back)
  | declaration {d : VariableDeclaration} {tokens : List Token} (h : DeclarationSpelling d tokens) :
      SpellsStatement (.bare (.declaration d)) tokens
  | block {opening closing : Span} {ss : List Statement} {opened inside closed : List Token}
      (hopening : Marks (.sign .lbrace) opening opened)
      (h : SpellsStatement (.statements ss) inside)
      (hclosing : Marks (.sign .rbrace) closing closed) :
      SpellsStatement (.bare (.block opening ss closing)) (opened ++ inside ++ closed)
  | ifThen {keyword : Span} {condition : Expression} {body : Statement}
      {word front back : List Token} (hkeyword : Marks (.keyword .ifWord) keyword word)
      (hcondition : ConditionSpelling condition front)
      (hbody : SpellsStatement (.statement body) back) :
      SpellsStatement (.bare (.ifThen keyword condition body)) (word ++ front ++ back)
  | ifElse {keyword elseKeyword : Span} {condition : Expression} {body alternative : Statement}
      {word front middle otherwise back : List Token}
      (hkeyword : Marks (.keyword .ifWord) keyword word)
      (hcondition : ConditionSpelling condition front)
      (hbody : SpellsStatement (.statement body) middle)
      (helse : Marks (.keyword .elseWord) elseKeyword otherwise)
      (halternative : SpellsStatement (.statement alternative) back) :
      SpellsStatement (.bare (.ifElse keyword condition body elseKeyword alternative))
        (word ++ front ++ middle ++ otherwise ++ back)
  | return {keyword : Span} {value : Option Expression} {word back : List Token}
      (hkeyword : Marks (.keyword .returnWord) keyword word)
      (hvalue : Optionally ExpressionSpelling value back) :
      SpellsStatement (.bare (.return keyword value)) (word ++ back)
  | for {keyword : Span} {init : VariableDeclaration} {condition : Expression}
      {step body : Statement}
      {word opened front first middle second inside closed back : List Token}
      (hkeyword : Marks (.keyword .forWord) keyword word) (hopening : Fixed (.sign .lparen) opened)
      (hinit : DeclarationSpelling init front) (hfirst : Fixed (.sign .semicolon) first)
      (hcondition : ExpressionSpelling condition middle)
      (hsecond : Fixed (.sign .semicolon) second)
      (hstep : SpellsStatement (.statement step) inside) (hclosing : Fixed (.sign .rparen) closed)
      (hbody : SpellsStatement (.statement body) back) :
      SpellsStatement (.bare (.for keyword init condition step body))
        (word ++ opened ++ front ++ first ++ middle ++ second ++ inside ++ closed ++ back)
  | while {keyword : Span} {condition : Expression} {body : Statement}
      {word front back : List Token} (hkeyword : Marks (.keyword .whileWord) keyword word)
      (hcondition : ConditionSpelling condition front)
      (hbody : SpellsStatement (.statement body) back) :
      SpellsStatement (.bare (.while keyword condition body)) (word ++ front ++ back)
  | break {keyword : Span} {tokens : List Token} (h : Marks (.keyword .breakWord) keyword tokens) :
      SpellsStatement (.bare (.break keyword)) tokens
  | continue {keyword : Span} {tokens : List Token}
      (h : Marks (.keyword .continueWord) keyword tokens) :
      SpellsStatement (.bare (.continue keyword)) tokens
  | expression {e : Expression} {tokens : List Token} (h : ExpressionSpelling e tokens) :
      SpellsStatement (.bare (.expression e)) tokens
  | none : SpellsStatement (.statements []) []
  | cons {s : Statement} {others : List Statement} {front back : List Token}
      (h : SpellsStatement (.statement s) front)
      (hothers : SpellsStatement (.statements others) back) :
      SpellsStatement (.statements (s :: others)) (front ++ back)

/-- The spellings of a statement with the semicolon behind it, if there is one. -/
def StatementSpelling (s : Statement) (tokens : List Token) : Prop :=
  SpellsStatement (.statement s) tokens

/-- A block. -/
inductive BlockSpelling : Block → List Token → Prop
  | intro {opening closing : Span} {ss : List Statement} {opened inside closed : List Token}
      (hopening : Marks (.sign .lbrace) opening opened)
      (h : SpellsStatement (.statements ss) inside)
      (hclosing : Marks (.sign .rbrace) closing closed) :
      BlockSpelling ⟨opening, ss, closing⟩ (opened ++ inside ++ closed)

/-! ### Members -/

/-- A name and its type. -/
inductive ParameterSpelling : Parameter → List Token → Prop
  | intro {name : Ident} {type : TypeClause} {front back : List Token}
      (hname : NameSpelling name front) (htype : TypeSpelling type back) :
      ParameterSpelling ⟨name, type⟩ (front ++ back)

/-- The parameters of a function, with no comma after the last, and the parenthesis that closes
them. -/
inductive ParameterListSpelling : List Parameter × Span → List Token → Prop
  | none {closing : Span} {opened closed : List Token} (hopening : Fixed (.sign .lparen) opened)
      (hclosing : Marks (.sign .rparen) closing closed) :
      ParameterListSpelling ([], closing) (opened ++ closed)
  | some {closing : Span} {parameters : List Parameter} {opened inside closed : List Token}
      (hopening : Fixed (.sign .lparen) opened)
      (hparameters : Separated ParameterSpelling parameters inside)
      (hclosing : Marks (.sign .rparen) closing closed) :
      ParameterListSpelling (parameters, closing) (opened ++ inside ++ closed)

/-- A function with its body, behind the word that makes it visible to other sources. -/
inductive FunctionSpelling : FunctionDeclaration → List Token → Prop
  | intro {visibility : Option Span} {keyword closing : Span} {name : Ident}
      {parameters : List Parameter} {returnType : Option TypeClause} {body : Block}
      {front word middle list clause back : List Token}
      (hvisibility : Optionally (Marks (.keyword .setWord)) visibility front)
      (hkeyword : Marks (.keyword .fnWord) keyword word) (hname : NameSpelling name middle)
      (hparameters : ParameterListSpelling (parameters, closing) list)
      (hreturn : Optionally TypeSpelling returnType clause) (hbody : BlockSpelling body back) :
      FunctionSpelling ⟨visibility, keyword, name, parameters, returnType, body⟩
        (front ++ word ++ middle ++ list ++ clause ++ back)

/-- The grammar of members. -/
inductive MemberSpelling : Member → List Token → Prop
  | statement {s : Statement} {tokens : List Token} (h : StatementSpelling s tokens) :
      MemberSpelling (.statement s) tokens
  | function {f : FunctionDeclaration} {tokens : List Token} (h : FunctionSpelling f tokens) :
      MemberSpelling (.function f) tokens
  | external {keyword closing : Span} {name : Ident} {parameters : List Parameter}
      {returnType : Option TypeClause} {word second front list clause back : List Token}
      (hkeyword : Marks (.keyword .externalWord) keyword word)
      (hsecond : Fixed (.keyword .fnWord) second) (hname : NameSpelling name front)
      (hparameters : ParameterListSpelling (parameters, closing) list)
      (hreturn : Optionally TypeSpelling returnType clause)
      (hsemicolon : AtMostOne (.sign .semicolon) back) :
      MemberSpelling (.external ⟨keyword, name, parameters, returnType, closing⟩)
        (word ++ second ++ front ++ list ++ clause ++ back)
  | struct {keyword closing : Span} {name : Ident} {fields : List Parameter}
      {word front opened inside closed back : List Token}
      (hkeyword : Marks (.keyword .structWord) keyword word) (hname : NameSpelling name front)
      (hopening : Fixed (.sign .lbrace) opened) (hfields : Listed ParameterSpelling fields inside)
      (hclosing : Marks (.sign .rbrace) closing closed)
      (hsemicolon : AtMostOne (.sign .semicolon) back) :
      MemberSpelling (.struct ⟨keyword, name, fields, closing⟩)
        (word ++ front ++ opened ++ inside ++ closed ++ back)
  | packageReference {keyword : Span} {name : Ident} {word front back : List Token}
      (hkeyword : Marks (.keyword .packageWord) keyword word) (hname : NameSpelling name front)
      (hsemicolon : AtMostOne (.sign .semicolon) back) :
      MemberSpelling (.packageReference keyword name) (word ++ front ++ back)
  | packageUse {keyword : Span} {name : Ident} {word front back : List Token}
      (hkeyword : Marks (.keyword .usingWord) keyword word) (hname : NameSpelling name front)
      (hsemicolon : AtMostOne (.sign .semicolon) back) :
      MemberSpelling (.packageUse keyword name) (word ++ front ++ back)

/-- The members of a program, one behind the other. -/
inductive ProgramSpelling : List Member → List Token → Prop
  | nil : ProgramSpelling [] []
  | cons {member : Member} {others : List Member} {front back : List Token}
      (h : MemberSpelling member front) (hothers : ProgramSpelling others back) :
      ProgramSpelling (member :: others) (front ++ back)

/-! ### The tokens of a spelling -/

/-- Whether no form of the grammar has a place for a sign. -/
def Sign.isRoleless : Sign → Bool
  | logicalAnd | logicalOr | spaceship | andNot | define | andAssign | orAssign | xorAssign
  | shlAssign | shrAssign | andNotAssign => true
  | _ => false

/-- Whether a form of the grammar has a place for a token of some kind. -/
def TokenKind.hasRole : TokenKind → Bool
  | illegal | ending => false
  | sign s => !s.isRoleless
  | _ => true

/-- Every token has a role. -/
def Roled (tokens : List Token) : Prop :=
  ∀ t ∈ tokens, t.kind.hasRole = true

@[simp] theorem roled_nil : Roled [] := by
  simp [Roled]

@[simp] theorem roled_cons {t : Token} {tokens : List Token} :
    Roled (t :: tokens) ↔ t.kind.hasRole = true ∧ Roled tokens := by
  simp [Roled]

@[simp] theorem roled_append {front back : List Token} :
    Roled (front ++ back) ↔ Roled front ∧ Roled back := by
  simp [Roled, or_imp, forall_and]

theorem TokenKind.hasRole_of_isLiteral {kind : TokenKind} (h : kind.isLiteral = true) :
    kind.hasRole = true := by
  cases kind <;> simp_all [isLiteral, hasRole]

theorem Sign.isRoleless_of_isEdit {sign : Sign} (h : sign.isEdit = true) :
    sign.isRoleless = false := by
  cases sign <;> simp_all [isEdit, isRoleless]

theorem Sign.isRoleless_of_isStep {sign : Sign} (h : sign.isStep = true) :
    sign.isRoleless = false := by
  cases sign <;> simp_all [isStep, isRoleless]

theorem Sign.isRoleless_of_unaryPrecedence {sign : Sign} (h : sign.unaryPrecedence ≠ 0) :
    sign.isRoleless = false := by
  cases sign <;> simp_all [unaryPrecedence, isRoleless]

theorem Sign.isRoleless_of_binaryPrecedence {sign : Sign} {level : Nat}
    (h : level < sign.binaryPrecedence) : sign.isRoleless = false := by
  cases sign <;> simp_all [binaryPrecedence, isRoleless]

theorem Marks.fixed {kind : TokenKind} {span : Span} {tokens : List Token}
    (h : Marks kind span tokens) : Fixed kind tokens := by
  cases h with
  | token h => exact Fixed.token h

theorem Fixed.roled {kind : TokenKind} {tokens : List Token} (h : Fixed kind tokens)
    (hkind : kind.hasRole = true) : Roled tokens := by
  cases h with
  | token h => simp [h, hkind]

theorem Marks.roled {kind : TokenKind} {span : Span} {tokens : List Token}
    (h : Marks kind span tokens) (hkind : kind.hasRole = true) : Roled tokens := by
  cases h with
  | token h => simp [h, hkind]

theorem NameSpelling.roled {name : Ident} {tokens : List Token} (h : NameSpelling name tokens) :
    Roled tokens := by
  cases h with
  | token h => simp [h, TokenKind.hasRole]

theorem OperatorSpelling.roled {operator : Operator} {tokens : List Token}
    (h : OperatorSpelling operator tokens) (hsign : operator.sign.isRoleless = false) :
    Roled tokens := by
  cases h with
  | token h => simpa [h, TokenKind.hasRole] using hsign

theorem AtMostOne.roled {kind : TokenKind} {tokens : List Token} (h : AtMostOne kind tokens)
    (hkind : kind.hasRole = true) : Roled tokens := by
  cases h with
  | missing => exact roled_nil
  | present h => exact h.roled hkind

section

variable {α : Type} {spells : α → List Token → Prop}

theorem Optionally.roled {value : Option α} {tokens : List Token}
    (hspells : ∀ value front, spells value front → Roled front)
    (h : Optionally spells value tokens) : Roled tokens := by
  cases h with
  | missing => exact roled_nil
  | present h => exact hspells _ _ h

theorem Separated.roled {values : List α} {tokens : List Token}
    (hspells : ∀ value front, spells value front → Roled front)
    (h : Separated spells values tokens) : Roled tokens := by
  induction h with
  | last h => exact hspells _ _ h
  | more h hcomma _ ih => simp [hspells _ _ h, hcomma.roled rfl, ih]

theorem Listed.roled {values : List α} {tokens : List Token}
    (hspells : ∀ value front, spells value front → Roled front)
    (h : Listed spells values tokens) : Roled tokens := by
  induction h with
  | none => exact roled_nil
  | last h => exact hspells _ _ h
  | more h hcomma _ ih => simp [hspells _ _ h, hcomma.roled rfl, ih]

end

theorem QualifiedSpelling.roled {package : Option Ident} {name : Ident} {tokens : List Token}
    (h : QualifiedSpelling package name tokens) : Roled tokens := by
  cases h with
  | plain hname => exact hname.roled
  | qualified hpackage hseparator hname => simp [hpackage.roled, hseparator.roled rfl, hname.roled]

theorem SpellsType.roled {part : TypePart} {tokens : List Token} (h : SpellsType part tokens) :
    Roled tokens := by
  induction h with
  | plain hname => exact hname.roled
  | generic hname hopening _ hclosing ih =>
    simp [hname.roled, hopening.roled rfl, ih, hclosing.roled rfl]
  | last _ ih => exact ih
  | more _ hcomma _ ih ihothers => simp [ih, hcomma.roled rfl, ihothers]

theorem TypeSpelling.roled {type : TypeClause} {tokens : List Token}
    (h : TypeSpelling type tokens) : Roled tokens :=
  SpellsType.roled h

/-- Every token of an expression has a role: by its fixed kind, but for literals and operators,
whose kinds the grammar only restricts. -/
theorem SpellsExpression.roled {part : ExpressionPart} {tokens : List Token}
    (h : SpellsExpression part tokens) : Roled tokens := by
  induction h with
  | assignment htarget hsign _ ih => simp [htarget.roled, hsign.roled rfl, ih]
  | edit htarget hoperator hedit _ ih =>
    have hmiddle := hoperator.roled (Sign.isRoleless_of_isEdit hedit)
    simp [htarget.roled, hmiddle, ih]
  | step htarget hfirst hsecond hstep _ =>
    have hsign := Sign.isRoleless_of_isStep hstep
    simp [htarget.roled, hfirst, hsecond, TokenKind.hasRole, hsign]
  | operation _ ih | operand _ ih | accessed _ ih | primary _ ih => exact ih
  | unary hoperator hunary _ _ ih =>
    have hfront := hoperator.roled (Sign.isRoleless_of_unaryPrecedence hunary)
    simp [hfront, ih]
  | binary hlevel _ hoperator _ ihleft ihright =>
    have hmiddle := hoperator.roled (Sign.isRoleless_of_binaryPrecedence hlevel)
    simp [ihleft, hmiddle, ihright]
  | arrayAssignment _ hopening _ hclosing hsign _ iharray ihindex ihvalue =>
    simp [iharray, hopening.roled rfl, ihindex, hclosing.roled rfl, hsign.roled rfl, ihvalue]
  | arrayAccess _ hopening _ hclosing iharray ihindex =>
    simp [iharray, hopening.roled rfl, ihindex, hclosing.roled rfl]
  | literal h => simp [TokenKind.hasRole_of_isLiteral h]
  | parenthesized hopening _ hclosing ih => simp [hopening.roled rfl, ih, hclosing.roled rfl]
  | this h => exact h.roled rfl
  | reference hampersand hname => simp [hampersand.roled rfl, hname.roled]
  | dereference hstar _ ih => simp [hstar.roled rfl, ih]
  | name h | ownName h => exact h.roled
  | call hcallee hopening _ hclosing ih =>
    simp [hcallee.roled, hopening.roled rfl, ih, hclosing.roled rfl]
  | cast htype _ hopening _ hclosing ih =>
    simp [htype.roled, hopening.roled rfl, ih, hclosing.roled rfl]
  | packageCall hfront hsign hmiddle hopening _ hclosing ih
  | typeCall hfront hsign hmiddle hopening _ hclosing ih =>
    simp [hfront.roled, hsign.roled rfl, hmiddle.roled, hopening.roled rfl, ih, hclosing.roled rfl]
  | fieldAccess hobject hperiod hfield => simp [hobject.roled, hperiod.roled rfl, hfield.roled]
  | fieldAssignment hobject hperiod hfield hsign _ ih =>
    simp [hobject.roled, hperiod.roled rfl, hfield.roled, hsign.roled rfl, ih]
  | element harray hopening _ hclosing ih =>
    simp [harray.roled, hopening.roled rfl, ih, hclosing.roled rfl]
  | elementAssignment harray hopening _ hclosing hsign _ ihindex ihvalue =>
    simp [harray.roled, hopening.roled rfl, ihindex, hclosing.roled rfl, hsign.roled rfl, ihvalue]
  | make hkeyword htype _ hopening _ hclosing ih
  | makeSized hkeyword htype _ hopening _ hclosing ih
  | makeArray hkeyword htype _ hopening _ hclosing ih
  | makeStruct hkeyword htype _ hopening _ hclosing ih =>
    simp [hkeyword.roled rfl, htype.roled, hopening.roled rfl, ih, hclosing.roled rfl]
  | main hkeyword _ _ _ _ ih =>
    rw [roled_cons]
    exact ⟨by simp [hkeyword, TokenKind.hasRole], ih⟩
  | ownCall _ ih | ownAssignment _ ih | last _ ih => exact ih
  | none => exact roled_nil
  | more _ hcomma _ ih ihothers => simp [ih, hcomma.roled rfl, ihothers]

theorem ExpressionSpelling.roled {e : Expression} {tokens : List Token}
    (h : ExpressionSpelling e tokens) : Roled tokens :=
  SpellsExpression.roled h

theorem InitialSpelling.roled {value : Expression} {tokens : List Token}
    (h : InitialSpelling value tokens) : Roled tokens := by
  cases h with
  | intro hsign hvalue => simp [hsign.roled rfl, hvalue.roled]

theorem ConditionSpelling.roled {condition : Expression} {tokens : List Token}
    (h : ConditionSpelling condition tokens) : Roled tokens := by
  cases h with
  | intro hopening hcondition hclosing =>
    simp [hopening.roled rfl, hcondition.roled, hclosing.roled rfl]

theorem VariableWordSpelling.roled {word : Span × Bool} {tokens : List Token}
    (h : VariableWordSpelling word tokens) : Roled tokens := by
  cases h with
  | var h | set h => exact h.roled rfl

theorem DeclarationSpelling.roled {d : VariableDeclaration} {tokens : List Token}
    (h : DeclarationSpelling d tokens) : Roled tokens := by
  cases h with
  | intro hkeyword htype hname hvalue =>
    have hclause := htype.roled fun _ _ => TypeSpelling.roled
    have hback := hvalue.roled fun _ _ => InitialSpelling.roled
    simp [hkeyword.roled, hclause, hname.roled, hback]

theorem SpellsStatement.roled {part : StatementPart} {tokens : List Token}
    (h : SpellsStatement part tokens) : Roled tokens := by
  induction h with
  | statement _ hsemicolon ih => simp [ih, hsemicolon.roled rfl]
  | declaration h => exact h.roled
  | block hopening _ hclosing ih => simp [hopening.roled rfl, ih, hclosing.roled rfl]
  | ifThen hkeyword hcondition _ ih | «while» hkeyword hcondition _ ih =>
    simp [hkeyword.roled rfl, hcondition.roled, ih]
  | ifElse hkeyword hcondition _ helse _ ihbody ihalternative =>
    simp [hkeyword.roled rfl, hcondition.roled, ihbody, helse.roled rfl, ihalternative]
  | «return» hkeyword hvalue =>
    have hback := hvalue.roled fun _ _ => ExpressionSpelling.roled
    simp [hkeyword.roled rfl, hback]
  | «for» hkeyword hopening hinit hfirst hcondition hsecond _ hclosing _ ihstep ihbody =>
    simp [hkeyword.roled rfl, hopening.roled rfl, hinit.roled, hfirst.roled rfl, hcondition.roled,
      hsecond.roled rfl, ihstep, hclosing.roled rfl, ihbody]
  | «break» h | «continue» h => exact h.roled rfl
  | expression h => exact h.roled
  | none => exact roled_nil
  | cons _ _ ih ihothers => simp [ih, ihothers]

theorem BlockSpelling.roled {b : Block} {tokens : List Token} (h : BlockSpelling b tokens) :
    Roled tokens := by
  cases h with
  | intro hopening h hclosing => simp [hopening.roled rfl, h.roled, hclosing.roled rfl]

theorem ParameterSpelling.roled {p : Parameter} {tokens : List Token}
    (h : ParameterSpelling p tokens) : Roled tokens := by
  cases h with
  | intro hname htype => simp [hname.roled, htype.roled]

theorem ParameterListSpelling.roled {parameters : List Parameter × Span} {tokens : List Token}
    (h : ParameterListSpelling parameters tokens) : Roled tokens := by
  cases h with
  | none hopening hclosing => simp [hopening.roled rfl, hclosing.roled rfl]
  | some hopening hparameters hclosing =>
    have hinside := hparameters.roled fun _ _ => ParameterSpelling.roled
    simp [hopening.roled rfl, hinside, hclosing.roled rfl]

theorem FunctionSpelling.roled {f : FunctionDeclaration} {tokens : List Token}
    (h : FunctionSpelling f tokens) : Roled tokens := by
  cases h with
  | intro hvisibility hkeyword hname hparameters hreturn hbody =>
    have hfront := hvisibility.roled fun _ _ h => h.roled rfl
    have hclause := hreturn.roled fun _ _ => TypeSpelling.roled
    simp [hfront, hkeyword.roled rfl, hname.roled, hparameters.roled, hclause, hbody.roled]

theorem MemberSpelling.roled {member : Member} {tokens : List Token}
    (h : MemberSpelling member tokens) : Roled tokens := by
  cases h with
  | statement h => exact SpellsStatement.roled h
  | function h => exact h.roled
  | external hkeyword hsecond hname hparameters hreturn hsemicolon =>
    have hclause := hreturn.roled fun _ _ => TypeSpelling.roled
    simp [hkeyword.roled rfl, hsecond.roled rfl, hname.roled, hparameters.roled, hclause,
      hsemicolon.roled rfl]
  | struct hkeyword hname hopening hfields hclosing hsemicolon =>
    have hinside := hfields.roled fun _ _ => ParameterSpelling.roled
    simp [hkeyword.roled rfl, hname.roled, hopening.roled rfl, hinside, hclosing.roled rfl,
      hsemicolon.roled rfl]
  | packageReference hkeyword hname hsemicolon | packageUse hkeyword hname hsemicolon =>
    simp [hkeyword.roled rfl, hname.roled, hsemicolon.roled rfl]

/-- Every token that a program is spelled with has a role in the grammar. -/
theorem ProgramSpelling.roled {members : List Member} {tokens : List Token}
    (h : ProgramSpelling members tokens) : Roled tokens := by
  induction h with
  | nil => exact roled_nil
  | cons h _ ih => simp [h.roled, ih]

end TodLang
