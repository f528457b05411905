import TodLang.Grammar.Expression
import TodLang.Proofs.Grammar.Outcome
/-!
What reading an expression comes to. For each reader there is a relation between the tokens that
are read, the expression and the tokens that are left, with one rule for each way the reader can
take. It holds just if the reader gives the expression and leaves these tokens
(`parseExpression_iff`), so that what is proved about readers can go by induction on how something
was read, without a look at bounds. Of what a reader looks at ahead, a rule names only what the
readers that it goes on with do not say themselves.
-/

namespace TodLang

/-! ### Ways to read -/

/-- Behind a name stands a bracket, or a package separator and, behind the name after that, a
bracket. -/
def BracketAhead (ts : List Token) : Prop :=
  kindAt ts 1 = some (.sign .lbrack) ∨
    kindAt ts 1 = some (.sign .pathSep) ∧ kindAt ts 3 = some (.sign .lbrack)

/-- How `make` and its type are read. -/
inductive MakeHeadReading (keyword : Span) (type : TypeClause) (ts rest : List Token) : Prop
  | intro {r₁ : List Token} (hkeyword : ReadsAs (takeKeyword .makeWord) ts keyword r₁)
      (htype : ReadsAs parseTypeClause r₁ type rest)

mutual

/-- How an expression is read. -/
inductive ExpressionReading : List Token → Expression → List Token → Prop
  | assignment {ts rest : List Token} {e : Expression} (hopening : opening ts = .assignment)
      (h : AssignmentReading ts e rest) : ExpressionReading ts e rest
  | edit {ts r₁ r₂ rest : List Token} {sign : Sign} {target : Ident} {operator : Operator}
      {value : Expression} (hopening : opening ts = .edit sign)
      (htarget : ReadsAs takeIdent ts target r₁)
      (hoperator : ReadsAs (takeOperator sign) r₁ operator r₂)
      (hvalue : ExpressionReading r₂ value rest) :
      ExpressionReading ts (.edit target operator value) rest
  | step {ts r₁ r₂ rest : List Token} {sign : Sign} {target : Ident} {first second : Span}
      (hopening : opening ts = .step sign) (htarget : ReadsAs takeIdent ts target r₁)
      (hfirst : ReadsAs (takeSign sign) r₁ first r₂)
      (hsecond : ReadsAs (takeSign sign) r₂ second rest) :
      ExpressionReading ts (.step target ⟨sign, first.cover second⟩) rest
  | operand {ts rest : List Token} {e : Expression} (hopening : opening ts = .operand)
      (h : OperationReading 0 ts e rest) : ExpressionReading ts e rest

/-- How an assignment is read. -/
inductive AssignmentReading : List Token → Expression → List Token → Prop
  | intro {ts r₁ r₂ rest : List Token} {target : Ident} {sign : Span} {value : Expression}
      (htarget : ReadsAs takeIdent ts target r₁) (hsign : ReadsAs (takeSign .assign) r₁ sign r₂)
      (hvalue : ExpressionReading r₂ value rest) :
      AssignmentReading ts (.assignment target value) rest

/-- How operands with operators between them are read. -/
inductive OperationReading : Nat → List Token → Expression → List Token → Prop
  | leading {parent : Nat} {ts r₁ r₂ rest : List Token} {sign : Sign} {operator : Operator}
      {operand e : Expression} (hleading : leadingOperator? parent ts = some sign)
      (hoperator : ReadsAs (takeOperator sign) ts operator r₁)
      (hoperand : OperationReading sign.unaryPrecedence r₁ operand r₂)
      (hjoined : JoinedReading parent (.unary operator operand) r₂ e rest) :
      OperationReading parent ts e rest
  | plain {parent : Nat} {ts r₁ rest : List Token} {operand e : Expression}
      (hleading : leadingOperator? parent ts = none) (hoperand : PostfixReading ts operand r₁)
      (hjoined : JoinedReading parent operand r₁ e rest) : OperationReading parent ts e rest

/-- How what operators join to an operand is read. -/
inductive JoinedReading : Nat → Expression → List Token → Expression → List Token → Prop
  | done {parent : Nat} {left : Expression} {ts : List Token}
      (hjoins : joiningOperator? parent ts = none) : JoinedReading parent left ts left ts
  | joins {parent : Nat} {left right e : Expression} {ts r₁ r₂ rest : List Token} {sign : Sign}
      {operator : Operator} (hjoins : joiningOperator? parent ts = some sign)
      (hoperator : ReadsAs (takeOperator sign) ts operator r₁)
      (hright : OperationReading sign.binaryPrecedence r₁ right r₂)
      (hjoined : JoinedReading parent (.binary left operator right) r₂ e rest) :
      JoinedReading parent left ts e rest

/-- How an operand is read with the brackets behind it. -/
inductive PostfixReading : List Token → Expression → List Token → Prop
  | intro {ts r₁ rest : List Token} {operand e : Expression}
      (hoperand : PrimaryReading ts operand r₁) (hsuffixes : SuffixesReading operand r₁ e rest) :
      PostfixReading ts e rest

/-- How brackets behind an array are read. -/
inductive SuffixesReading : Expression → List Token → Expression → List Token → Prop
  | done {array : Expression} {ts : List Token} (hbracket : nextKind ts ≠ some (.sign .lbrack)) :
      SuffixesReading array ts array ts
  | last {array element : Expression} {ts rest : List Token}
      (hsuffix : SuffixReading array ts element rest) (hlast : element.isArrayAssignment = true) :
      SuffixesReading array ts element rest
  | more {array element e : Expression} {ts r₁ rest : List Token}
      (hsuffix : SuffixReading array ts element r₁) (hmore : element.isArrayAssignment = false)
      (hsuffixes : SuffixesReading element r₁ e rest) : SuffixesReading array ts e rest

/-- How one pair of brackets behind an array is read. -/
inductive SuffixReading : Expression → List Token → Expression → List Token → Prop
  | access {array index : Expression} {ts r₁ r₂ rest : List Token} {opening closing : Span}
      (hopening : ReadsAs (takeSign .lbrack) ts opening r₁)
      (hindex : ExpressionReading r₁ index r₂)
      (hclosing : ReadsAs (takeSign .rbrack) r₂ closing rest)
      (hassign : nextKind rest ≠ some (.sign .assign)) :
      SuffixReading array ts (.arrayAccess array index closing) rest
  | assignment {array index value : Expression} {ts r₁ r₂ r₃ r₄ rest : List Token}
      {opening closing sign : Span} (hopening : ReadsAs (takeSign .lbrack) ts opening r₁)
      (hindex : ExpressionReading r₁ index r₂)
      (hclosing : ReadsAs (takeSign .rbrack) r₂ closing r₃)
      (hsign : ReadsAs (takeSign .assign) r₃ sign r₄) (hvalue : ExpressionReading r₄ value rest) :
      SuffixReading array ts (.arrayAssignment array index value) rest

/-- How an operand without brackets behind it is read. -/
inductive PrimaryReading : List Token → Expression → List Token → Prop
  | parenthesized {ts r₁ r₂ rest : List Token} {opening closing : Span} {inner : Expression}
      (hopening : ReadsAs (takeSign .lparen) ts opening r₁)
      (hinner : ExpressionReading r₁ inner r₂)
      (hclosing : ReadsAs (takeSign .rparen) r₂ closing rest) :
      PrimaryReading ts (.parenthesized opening inner closing) rest
  | this {ts rest : List Token} {keyword : Span}
      (hkeyword : ReadsAs (takeKeyword .thisWord) ts keyword rest) :
      PrimaryReading ts (.this keyword) rest
  | make {ts rest : List Token} {e : Expression} (h : MakeReading ts e rest) :
      PrimaryReading ts e rest
  | reference {ts r₁ rest : List Token} {ampersand : Span} {name : Ident}
      (hampersand : ReadsAs (takeSign .and) ts ampersand r₁)
      (hname : ReadsAs takeIdent r₁ name rest) :
      PrimaryReading ts (.reference ampersand name) rest
  | dereference {ts r₁ rest : List Token} {star : Span} {operand : Expression}
      (hstar : ReadsAs (takeSign .mul) ts star r₁) (hoperand : PrimaryReading r₁ operand rest) :
      PrimaryReading ts (.dereference star operand) rest
  | main {ts rest : List Token} {e : Expression} (hmain : atMain ts = true)
      (h : MainReading ts e rest) : PrimaryReading ts e rest
  | named {ts rest : List Token} {e : Expression} (hkind : nextKind ts = some .identifier)
      (hmain : atMain ts = false) (h : NamedReading ts e rest) : PrimaryReading ts e rest
  | literal {t : Token} {rest : List Token} (hliteral : t.kind.isLiteral = true) :
      PrimaryReading (t :: rest) (.literal t) rest

/-- How what `main` speaks of is read. -/
inductive MainReading : List Token → Expression → List Token → Prop
  | call {ts r₁ rest : List Token} {keyword : Ident} {inner : Expression}
      (hkeyword : ReadsAs takeIdent ts keyword r₁) (hcall : CallReading r₁ inner rest) :
      MainReading ts (.main keyword.span inner) rest
  | assignment {ts r₁ rest : List Token} {keyword : Ident} {inner : Expression}
      (hkeyword : ReadsAs takeIdent ts keyword r₁)
      (hassignment : AssignmentReading r₁ inner rest) :
      MainReading ts (.main keyword.span inner) rest
  | name {ts r₁ rest : List Token} {keyword name : Ident}
      (hkeyword : ReadsAs takeIdent ts keyword r₁) (hname : ReadsAs takeIdent r₁ name rest)
      (hcall : nextKind rest ≠ some (.sign .lparen))
      (hassign : nextKind rest ≠ some (.sign .assign)) :
      MainReading ts (.main keyword.span (.name name)) rest

/-- How what a name begins is read. A call of another package's function has its parenthesis where
a cast would have its bracket, so no cast is tried there. -/
inductive NamedReading : List Token → Expression → List Token → Prop
  | call {ts rest : List Token} {e : Expression} (h : CallReading ts e rest) :
      NamedReading ts e rest
  | packageCall {ts rest : List Token} {e : Expression} (h : PackageCallReading ts e rest) :
      NamedReading ts e rest
  | member {ts rest : List Token} {e : Expression} (h : MemberOfReading ts e rest) :
      NamedReading ts e rest
  | cast {ts r₁ rest : List Token} {type : TypeClause} {arguments : List Expression}
      {closing : Span} {hlt : r₁.length < ts.length} (hbracket : BracketAhead ts)
      (hhead : tryCastHead? ts = some ⟨type, r₁, hlt⟩)
      (harguments : ArgumentsReading .rparen r₁ arguments closing rest) :
      NamedReading ts (.cast type arguments closing) rest
  | element {ts r₁ rest : List Token} {array : Ident} {e : Expression}
      (hhead : tryCastHead? ts = none) (harray : ReadsAs takeIdent ts array r₁)
      (hsuffix : SuffixReading (.name array) r₁ e rest) : NamedReading ts e rest
  | name {ts rest : List Token} {name : Ident} (hname : ReadsAs takeIdent ts name rest)
      (hother : ∀ sign ∈ [Sign.lparen, .pathSep, .period, .lbrack],
        nextKind rest ≠ some (.sign sign)) : NamedReading ts (.name name) rest

/-- How a call is read. -/
inductive CallReading : List Token → Expression → List Token → Prop
  | intro {ts r₁ r₂ rest : List Token} {callee : Ident} {opening closing : Span}
      {arguments : List Expression} (hcallee : ReadsAs takeIdent ts callee r₁)
      (hopening : ReadsAs (takeSign .lparen) r₁ opening r₂)
      (harguments : ArgumentsReading .rparen r₂ arguments closing rest) :
      CallReading ts (.call callee arguments closing) rest

/-- How a call of another package's function is read. -/
inductive PackageCallReading : List Token → Expression → List Token → Prop
  | intro {ts r₁ r₂ r₃ r₄ rest : List Token} {package callee : Ident}
      {separator opening closing : Span} {arguments : List Expression}
      (hpackage : ReadsAs takeIdent ts package r₁)
      (hseparator : ReadsAs (takeSign .pathSep) r₁ separator r₂)
      (hcallee : ReadsAs takeIdent r₂ callee r₃)
      (hopening : ReadsAs (takeSign .lparen) r₃ opening r₄)
      (harguments : ArgumentsReading .rparen r₄ arguments closing rest) :
      PackageCallReading ts (.packageCall package callee arguments closing) rest

/-- How what a period joins to a name is read. -/
inductive MemberOfReading : List Token → Expression → List Token → Prop
  | call {ts r₁ r₂ r₃ r₄ rest : List Token} {object callee : Ident}
      {period opening closing : Span} {arguments : List Expression}
      (hobject : ReadsAs takeIdent ts object r₁)
      (hperiod : ReadsAs (takeSign .period) r₁ period r₂)
      (hcallee : ReadsAs takeIdent r₂ callee r₃)
      (hopening : ReadsAs (takeSign .lparen) r₃ opening r₄)
      (harguments : ArgumentsReading .rparen r₄ arguments closing rest) :
      MemberOfReading ts (.typeCall object callee arguments closing) rest
  | assignment {ts r₁ r₂ r₃ r₄ rest : List Token} {object field : Ident} {period sign : Span}
      {value : Expression} (hobject : ReadsAs takeIdent ts object r₁)
      (hperiod : ReadsAs (takeSign .period) r₁ period r₂)
      (hfield : ReadsAs takeIdent r₂ field r₃) (hsign : ReadsAs (takeSign .assign) r₃ sign r₄)
      (hvalue : ExpressionReading r₄ value rest) :
      MemberOfReading ts (.fieldAssignment object field value) rest
  | access {ts r₁ r₂ rest : List Token} {object field : Ident} {period : Span}
      (hobject : ReadsAs takeIdent ts object r₁)
      (hperiod : ReadsAs (takeSign .period) r₁ period r₂)
      (hfield : ReadsAs takeIdent r₂ field rest) (hcall : nextKind rest ≠ some (.sign .lparen))
      (hassign : nextKind rest ≠ some (.sign .assign)) :
      MemberOfReading ts (.fieldAccess object field) rest

/-- How the making of a value is read. -/
inductive MakeReading : List Token → Expression → List Token → Prop
  | array {ts r₁ r₂ rest : List Token} {keyword opening closing : Span} {type : TypeClause}
      {parts : List Expression} (hhead : MakeHeadReading keyword type ts r₁)
      (hgeneric : type.isGeneric = true) (hopening : ReadsAs (takeSign .lbrace) r₁ opening r₂)
      (hparts : ArgumentsReading .rbrace r₂ parts closing rest) :
      MakeReading ts (.makeArray keyword type parts closing) rest
  | struct {ts r₁ r₂ rest : List Token} {keyword opening closing : Span} {type : TypeClause}
      {parts : List Expression} (hhead : MakeHeadReading keyword type ts r₁)
      (hgeneric : type.isGeneric = false) (hopening : ReadsAs (takeSign .lbrace) r₁ opening r₂)
      (hparts : ArgumentsReading .rbrace r₂ parts closing rest) :
      MakeReading ts (.makeStruct keyword type parts closing) rest
  | sized {ts r₁ r₂ r₃ rest : List Token} {keyword opening closing : Span} {type : TypeClause}
      {length : Expression} (hhead : MakeHeadReading keyword type ts r₁)
      (hgeneric : type.isGeneric = true) (hopening : ReadsAs (takeSign .lparen) r₁ opening r₂)
      (hlength : ExpressionReading r₂ length r₃)
      (hclosing : ReadsAs (takeSign .rparen) r₃ closing rest) :
      MakeReading ts (.makeSized keyword type length closing) rest
  | called {ts r₁ r₂ rest : List Token} {keyword opening closing : Span} {type : TypeClause}
      {arguments : List Expression} (hhead : MakeHeadReading keyword type ts r₁)
      (hgeneric : type.isGeneric = false) (hopening : ReadsAs (takeSign .lparen) r₁ opening r₂)
      (harguments : ArgumentsReading .rparen r₂ arguments closing rest) :
      MakeReading ts (.make keyword type arguments closing) rest

/-- How expressions in front of a closing sign are read, and the sign. -/
inductive ArgumentsReading : Sign → List Token → List Expression → Span → List Token → Prop
  | none {closing : Sign} {ts rest : List Token} {stop : Span}
      (hstop : ReadsAs (takeSign closing) ts stop rest) : ArgumentsReading closing ts [] stop rest
  | last {closing : Sign} {ts r₁ rest : List Token} {first : Expression} {stop : Span}
      (hkind : nextKind ts ≠ some (.sign closing)) (hfirst : ExpressionReading ts first r₁)
      (hcomma : nextKind r₁ ≠ some (.sign .comma))
      (hstop : ReadsAs (takeSign closing) r₁ stop rest) :
      ArgumentsReading closing ts [first] stop rest
  | more {closing : Sign} {ts r₁ r₂ rest : List Token} {first : Expression}
      {others : List Expression} {comma stop : Span} (hkind : nextKind ts ≠ some (.sign closing))
      (hfirst : ExpressionReading ts first r₁) (hcomma : ReadsAs (takeSign .comma) r₁ comma r₂)
      (hothers : ArgumentsReading closing r₂ others stop rest) :
      ArgumentsReading closing ts (first :: others) stop rest

end

/-! ### What is read is read in one of these ways -/

mutual

theorem parseExpression_reading {ts rest : List Token} {e : Expression}
    (h : ReadsAs parseExpression ts e rest) : ExpressionReading ts e rest := by
  rw [ReadsAs, parseExpression] at h
  split at h
  · next hopening => exact .assignment hopening (parseAssignment_reading h)
  · next sign hopening =>
    obtain ⟨target, r₁, hlt₁, htarget, h⟩ := h.of_bind
    obtain ⟨operator, r₂, _, hlt₂, hoperator, h⟩ := h.of_bind_after
    obtain ⟨value, r₃, _, _, hvalue, h⟩ := h.of_bind_after
    obtain ⟨rfl, rfl⟩ := h.of_return
    exact .edit hopening htarget hoperator (parseExpression_reading hvalue)
  · next sign hopening =>
    obtain ⟨target, r₁, _, htarget, h⟩ := h.of_bind
    obtain ⟨first, r₂, _, _, hfirst, h⟩ := h.of_bind_after
    obtain ⟨second, r₃, _, _, hsecond, h⟩ := h.of_bind_after
    obtain ⟨rfl, rfl⟩ := h.of_return
    exact .step hopening htarget hfirst hsecond
  · next hopening => exact .operand hopening (parseOperation_reading h)
termination_by 8 * ts.length + 5
decreasing_by all_goals omega

theorem parseAssignment_reading {ts rest : List Token} {e : Expression}
    (h : ReadsAs parseAssignment ts e rest) : AssignmentReading ts e rest := by
  rw [ReadsAs, parseAssignment] at h
  obtain ⟨target, r₁, hlt₁, htarget, h⟩ := h.of_bind
  obtain ⟨sign, r₂, _, hlt₂, hsign, h⟩ := h.of_bind_after
  obtain ⟨value, r₃, _, _, hvalue, h⟩ := h.of_bind_after
  obtain ⟨rfl, rfl⟩ := h.of_return
  exact .intro htarget hsign (parseExpression_reading hvalue)
termination_by 8 * ts.length
decreasing_by all_goals omega

theorem parseOperation_reading {parent : Nat} {ts rest : List Token} {e : Expression}
    (h : ReadsAs (parseOperation parent) ts e rest) : OperationReading parent ts e rest := by
  rw [ReadsAs, parseOperation] at h
  split at h
  · next sign hleading =>
    obtain ⟨operator, r₁, hlt₁, hoperator, h⟩ := h.of_bind
    obtain ⟨operand, r₂, _, hlt₂, hoperand, h⟩ := h.of_bind_after
    have hjoined := parseJoined_reading h.of_afterOptional.2
    exact .leading hleading hoperator (parseOperation_reading hoperand) hjoined
  · next hleading =>
    obtain ⟨operand, r₁, hlt₁, hoperand, h⟩ := h.of_bind
    have hjoined := parseJoined_reading h.of_afterOptional.2
    exact .plain hleading (parsePostfix_reading hoperand) hjoined
termination_by 8 * ts.length + 4
decreasing_by all_goals omega

theorem parseJoined_reading {parent : Nat} {left : Expression} {ts rest : List Token}
    {e : Expression} (h : ReadsAs (parseJoined parent left) ts e rest) :
    JoinedReading parent left ts e rest := by
  rw [ReadsAs, parseJoined] at h
  split at h
  · next hjoins =>
    obtain ⟨rfl, rfl⟩ := h.of_unread
    exact .done hjoins
  · next sign hjoins =>
    obtain ⟨operator, r₁, hlt₁, hoperator, h⟩ := h.of_bind
    obtain ⟨right, r₂, _, hlt₂, hright, h⟩ := h.of_bind_after
    obtain ⟨whole, r₃, _, _, hjoined, h⟩ := h.of_bind_afterOptional
    obtain ⟨rfl, rfl⟩ := h.of_optional
    exact .joins hjoins hoperator (parseOperation_reading hright) (parseJoined_reading hjoined)
termination_by 8 * ts.length
decreasing_by all_goals omega

theorem parsePostfix_reading {ts rest : List Token} {e : Expression}
    (h : ReadsAs parsePostfix ts e rest) : PostfixReading ts e rest := by
  rw [ReadsAs, parsePostfix] at h
  obtain ⟨operand, r₁, hlt₁, hoperand, h⟩ := h.of_bind
  exact .intro (parsePrimary_reading hoperand) (parseSuffixes_reading h.of_afterOptional.2)
termination_by 8 * ts.length + 3
decreasing_by all_goals omega

theorem parseSuffixes_reading {array : Expression} {ts rest : List Token} {e : Expression}
    (h : ReadsAs (parseSuffixes array) ts e rest) : SuffixesReading array ts e rest := by
  rw [ReadsAs, parseSuffixes] at h
  split at h
  · obtain ⟨element, r₁, hlt₁, hsuffix, h⟩ := h.of_bind
    dsimp only at h
    split at h
    · next hlast =>
      obtain ⟨rfl, rfl⟩ := h.of_optional
      exact .last (parseSuffix_reading hsuffix) hlast
    · next hmore =>
      obtain ⟨whole, r₂, _, _, hsuffixes, h⟩ := h.of_bind_afterOptional
      obtain ⟨rfl, rfl⟩ := h.of_optional
      exact .more (parseSuffix_reading hsuffix) (Bool.eq_false_iff.2 hmore)
        (parseSuffixes_reading hsuffixes)
  · next hbracket =>
    obtain ⟨rfl, rfl⟩ := h.of_unread
    exact .done hbracket
termination_by 8 * ts.length + 1
decreasing_by all_goals omega

theorem parseSuffix_reading {array : Expression} {ts rest : List Token} {e : Expression}
    (h : ReadsAs (parseSuffix array) ts e rest) : SuffixReading array ts e rest := by
  rw [ReadsAs, parseSuffix] at h
  obtain ⟨opening, r₁, hlt₁, hopening, h⟩ := h.of_bind
  obtain ⟨index, r₂, _, hlt₂, hindex, h⟩ := h.of_bind_after
  obtain ⟨closing, r₃, _, hlt₃, hclosing, h⟩ := h.of_bind_after
  have hinside := parseExpression_reading hindex
  dsimp only at h
  split at h
  · next hnone =>
    obtain ⟨rfl, rfl⟩ := h.of_return
    exact .access hopening hinside hclosing (nextKind_of_acceptAfter? hnone)
  · next hlt₄ hfound =>
    obtain ⟨value, r₅, _, _, hvalue, h⟩ := h.of_bind_after
    obtain ⟨rfl, rfl⟩ := h.of_return
    have hback := parseExpression_reading hvalue
    obtain ⟨rfl, hkind⟩ := eq_cons_of_acceptAfter? hfound
    exact .assignment hopening hinside hclosing (takeSign_of_kind hkind) hback
termination_by 8 * ts.length
decreasing_by all_goals omega

theorem parsePrimary_reading {ts rest : List Token} {e : Expression}
    (h : ReadsAs parsePrimary ts e rest) : PrimaryReading ts e rest := by
  rw [ReadsAs, parsePrimary] at h
  split at h
  · obtain ⟨opening, r₁, hlt₁, hopening, h⟩ := h.of_bind
    obtain ⟨inner, r₂, _, _, hinner, h⟩ := h.of_bind_after
    obtain ⟨closing, r₃, _, _, hclosing, h⟩ := h.of_bind_after
    obtain ⟨rfl, rfl⟩ := h.of_return
    exact .parenthesized hopening (parseExpression_reading hinner) hclosing
  · obtain ⟨keyword, r₁, _, hkeyword, h⟩ := h.of_bind
    obtain ⟨rfl, rfl⟩ := h.of_return
    exact .this hkeyword
  · exact .make (parseMake_reading h)
  · obtain ⟨ampersand, r₁, _, hampersand, h⟩ := h.of_bind
    obtain ⟨name, r₂, _, _, hname, h⟩ := h.of_bind_after
    obtain ⟨rfl, rfl⟩ := h.of_return
    exact .reference hampersand hname
  · obtain ⟨star, r₁, hlt₁, hstar, h⟩ := h.of_bind
    obtain ⟨operand, r₂, _, _, hoperand, h⟩ := h.of_bind_after
    obtain ⟨rfl, rfl⟩ := h.of_return
    exact .dereference hstar (parsePrimary_reading hoperand)
  · next hkind =>
    split at h
    · next hmain => exact .main hmain (parseMain_reading h)
    · next hmain => exact .named hkind (Bool.eq_false_iff.2 hmain) (parseNamed_reading h)
  · split at h
    · next hliteral =>
      obtain ⟨token, r₁, _, htoken, h⟩ := h.of_bind
      obtain ⟨rfl, rfl⟩ := h.of_return
      obtain ⟨heq, rfl⟩ := take_iff.1 htoken
      rw [heq]
      exact .literal hliteral
    · obtain ⟨_, h⟩ := h
      cases h
  · obtain ⟨_, h⟩ := h
    cases h
termination_by 8 * ts.length + 2
decreasing_by all_goals omega

theorem parseMain_reading {ts rest : List Token} {e : Expression}
    (h : ReadsAs parseMain ts e rest) : MainReading ts e rest := by
  rw [ReadsAs, parseMain] at h
  obtain ⟨keyword, r₁, hlt₁, hkeyword, h⟩ := h.of_bind
  dsimp only at h
  split at h
  · obtain ⟨inner, r₂, _, _, hcall, h⟩ := h.of_bind_after
    obtain ⟨rfl, rfl⟩ := h.of_return
    exact .call hkeyword (parseCall_reading hcall)
  · obtain ⟨inner, r₂, _, _, hassignment, h⟩ := h.of_bind_after
    obtain ⟨rfl, rfl⟩ := h.of_return
    exact .assignment hkeyword (parseAssignment_reading hassignment)
  · next hcall hassign =>
    obtain ⟨name, r₂, _, _, hname, h⟩ := h.of_bind_after
    obtain ⟨rfl, rfl⟩ := h.of_return
    rw [ReadsAs.kindAt_succ hname] at hcall hassign
    exact .name hkeyword hname hcall hassign
termination_by 8 * ts.length
decreasing_by all_goals omega

theorem parseNamed_reading {ts rest : List Token} {e : Expression}
    (h : ReadsAs parseNamed ts e rest) : NamedReading ts e rest := by
  rw [ReadsAs, parseNamed] at h
  split at h
  · exact .call (parseCall_reading h)
  · next hsecond =>
    split at h
    · next hfourth =>
      split at h
      · next hlt₁ hhead =>
        obtain ⟨⟨arguments, closing⟩, r₂, _, _, harguments, h⟩ := h.of_bind_after
        obtain ⟨rfl, rfl⟩ := h.of_return
        exact .cast (.inr ⟨hsecond, hfourth⟩) hhead (parseArguments_reading harguments)
      · exact .packageCall (parsePackageCall_reading h)
    · exact .packageCall (parsePackageCall_reading h)
  · exact .member (parseMemberOf_reading h)
  · next hsecond =>
    split at h
    · next hlt₁ hhead =>
      obtain ⟨⟨arguments, closing⟩, r₂, _, _, harguments, h⟩ := h.of_bind_after
      obtain ⟨rfl, rfl⟩ := h.of_return
      exact .cast (.inl hsecond) hhead (parseArguments_reading harguments)
    · next hhead =>
      obtain ⟨array, r₁, hlt₁, harray, h⟩ := h.of_bind
      exact .element hhead harray (parseSuffix_reading h.of_after.2)
  · next hcall hpackage hmember hbracket =>
    obtain ⟨name, r₁, _, hname, h⟩ := h.of_bind
    obtain ⟨rfl, rfl⟩ := h.of_return
    rw [ReadsAs.kindAt_succ hname] at hcall hpackage hmember hbracket
    exact .name hname (by simp_all)
termination_by 8 * ts.length + 1
decreasing_by all_goals omega

theorem parseCall_reading {ts rest : List Token} {e : Expression}
    (h : ReadsAs parseCall ts e rest) : CallReading ts e rest := by
  rw [ReadsAs, parseCall] at h
  obtain ⟨callee, r₁, hlt₁, hcallee, h⟩ := h.of_bind
  obtain ⟨opening, r₂, _, hlt₂, hopening, h⟩ := h.of_bind_after
  obtain ⟨⟨arguments, closing⟩, r₃, _, _, harguments, h⟩ := h.of_bind_after
  obtain ⟨rfl, rfl⟩ := h.of_return
  exact .intro hcallee hopening (parseArguments_reading harguments)
termination_by 8 * ts.length
decreasing_by all_goals omega

theorem parsePackageCall_reading {ts rest : List Token} {e : Expression}
    (h : ReadsAs parsePackageCall ts e rest) : PackageCallReading ts e rest := by
  rw [ReadsAs, parsePackageCall] at h
  obtain ⟨package, r₁, hlt₁, hpackage, h⟩ := h.of_bind
  obtain ⟨separator, r₂, _, hlt₂, hseparator, h⟩ := h.of_bind_after
  obtain ⟨callee, r₃, _, hlt₃, hcallee, h⟩ := h.of_bind_after
  obtain ⟨opening, r₄, _, hlt₄, hopening, h⟩ := h.of_bind_after
  obtain ⟨⟨arguments, closing⟩, r₅, _, _, harguments, h⟩ := h.of_bind_after
  obtain ⟨rfl, rfl⟩ := h.of_return
  exact .intro hpackage hseparator hcallee hopening (parseArguments_reading harguments)
termination_by 8 * ts.length
decreasing_by all_goals omega

theorem parseMemberOf_reading {ts rest : List Token} {e : Expression}
    (h : ReadsAs parseMemberOf ts e rest) : MemberOfReading ts e rest := by
  rw [ReadsAs, parseMemberOf] at h
  obtain ⟨object, r₁, hlt₁, hobject, h⟩ := h.of_bind
  obtain ⟨period, r₂, _, hlt₂, hperiod, h⟩ := h.of_bind_after
  obtain ⟨name, r₃, _, hlt₃, hname, h⟩ := h.of_bind_after
  dsimp only at h
  split at h
  · obtain ⟨opening, r₄, _, hlt₄, hopening, h⟩ := h.of_bind_after
    obtain ⟨⟨arguments, closing⟩, r₅, _, _, harguments, h⟩ := h.of_bind_after
    obtain ⟨rfl, rfl⟩ := h.of_return
    exact .call hobject hperiod hname hopening (parseArguments_reading harguments)
  · obtain ⟨sign, r₄, _, hlt₄, hsign, h⟩ := h.of_bind_after
    obtain ⟨value, r₅, _, _, hvalue, h⟩ := h.of_bind_after
    obtain ⟨rfl, rfl⟩ := h.of_return
    exact .assignment hobject hperiod hname hsign (parseExpression_reading hvalue)
  · next hcall hassign =>
    obtain ⟨rfl, rfl⟩ := h.of_return
    exact .access hobject hperiod hname hcall hassign
termination_by 8 * ts.length
decreasing_by all_goals omega

theorem parseMake_reading {ts rest : List Token} {e : Expression}
    (h : ReadsAs parseMake ts e rest) : MakeReading ts e rest := by
  rw [ReadsAs, parseMake] at h
  obtain ⟨keyword, r₁, hlt₁, hkeyword, h⟩ := h.of_bind
  obtain ⟨type, r₂, _, hlt₂, htype, h⟩ := h.of_bind_after
  have hhead : MakeHeadReading keyword type ts r₂ := ⟨hkeyword, htype⟩
  dsimp only at h
  split at h
  · next hlt₃ hfound =>
    obtain ⟨⟨parts, closing⟩, r₄, _, _, hparts, h⟩ := h.of_bind_after
    have hinside := parseArguments_reading hparts
    obtain ⟨rfl, hkind⟩ := eq_cons_of_acceptAfter? hfound
    dsimp only at h
    split at h
    · next hgeneric =>
      obtain ⟨rfl, rfl⟩ := h.of_return
      exact .array hhead hgeneric (takeSign_of_kind hkind) hinside
    · next hgeneric =>
      obtain ⟨rfl, rfl⟩ := h.of_return
      exact .struct hhead (Bool.eq_false_iff.2 hgeneric) (takeSign_of_kind hkind) hinside
  · obtain ⟨opening, r₃, _, hlt₃, hopening, h⟩ := h.of_bind_after
    dsimp only at h
    split at h
    · next hgeneric =>
      obtain ⟨length, r₄, _, _, hlength, h⟩ := h.of_bind_after
      obtain ⟨closing, r₅, _, _, hclosing, h⟩ := h.of_bind_after
      obtain ⟨rfl, rfl⟩ := h.of_return
      exact .sized hhead hgeneric hopening (parseExpression_reading hlength) hclosing
    · next hgeneric =>
      obtain ⟨⟨arguments, closing⟩, r₄, _, _, harguments, h⟩ := h.of_bind_after
      obtain ⟨rfl, rfl⟩ := h.of_return
      exact .called hhead (Bool.eq_false_iff.2 hgeneric) hopening
        (parseArguments_reading harguments)
termination_by 8 * ts.length
decreasing_by all_goals omega

theorem parseArguments_reading {closing : Sign} {ts rest : List Token}
    {arguments : List Expression} {stop : Span}
    (h : ReadsAs (parseArguments closing) ts (arguments, stop) rest) :
    ArgumentsReading closing ts arguments stop rest := by
  rw [ReadsAs, parseArguments] at h
  split at h
  · next hfound =>
    obtain ⟨heq, rfl⟩ := h.of_return
    cases heq
    obtain ⟨htokens, hkind⟩ := accept?_eq_some hfound
    rw [htokens]
    exact .none (takeSign_of_kind hkind)
  · next hnone =>
    have hkind := accept?_eq_none_iff.1 hnone
    split at h
    · obtain ⟨_, h⟩ := h
      cases h
    · obtain ⟨first, r₁, hlt₁, hfirst, h⟩ := h.of_bind
      have hfront := parseExpression_reading hfirst
      dsimp only at h
      split at h
      · next hlt₂ hfound =>
        obtain ⟨⟨others, stop⟩, r₃, _, _, hothers, h⟩ := h.of_bind_after
        obtain ⟨heq, rfl⟩ := h.of_return
        cases heq
        have hback := parseArguments_reading hothers
        obtain ⟨rfl, hcomma⟩ := eq_cons_of_acceptAfter? hfound
        exact .more hkind hfront (takeSign_of_kind hcomma) hback
      · next hlast =>
        obtain ⟨stop, r₂, _, _, hstop, h⟩ := h.of_bind_after
        obtain ⟨heq, rfl⟩ := h.of_return
        cases heq
        exact .last hkind hfront (nextKind_of_acceptAfter? hlast) hstop
termination_by 8 * ts.length + 6
decreasing_by all_goals omega

end

/-! ### What can be read in one of these ways is read so -/

section

variable {ts rest : List Token} {e : Expression}

theorem CallReading.kindAt_eq (h : CallReading ts e rest) : kindAt ts 1 = some (.sign .lparen) := by
  obtain ⟨hcallee, hopening, -⟩ := h
  rw [hcallee.kindAt_succ, kindAt_zero, hopening.nextKind_sign]

theorem AssignmentReading.kindAt_eq (h : AssignmentReading ts e rest) :
    kindAt ts 1 = some (.sign .assign) := by
  obtain ⟨htarget, hsign, -⟩ := h
  rw [htarget.kindAt_succ, kindAt_zero, hsign.nextKind_sign]

/-- A call of another package's function has its parenthesis fourth. -/
theorem PackageCallReading.kindAt_eq (h : PackageCallReading ts e rest) :
    kindAt ts 1 = some (.sign .pathSep) ∧ kindAt ts 3 = some (.sign .lparen) := by
  obtain ⟨hpackage, hseparator, hcallee, hopening, -⟩ := h
  rw [hpackage.kindAt_succ, hpackage.kindAt_succ, kindAt_zero, hseparator.nextKind_sign]
  obtain ⟨_, rfl, -⟩ := takeSign_iff.1 hseparator
  rw [kindAt_succ_cons, hcallee.kindAt_succ, kindAt_zero, hopening.nextKind_sign]
  exact ⟨rfl, rfl⟩

theorem MemberOfReading.kindAt_eq (h : MemberOfReading ts e rest) :
    kindAt ts 1 = some (.sign .period) := by
  cases h with
  | call hobject hperiod _ _ _ | assignment hobject hperiod _ _ _
  | access hobject hperiod _ _ _ =>
    rw [hobject.kindAt_succ, kindAt_zero, hperiod.nextKind_sign]

theorem SuffixReading.nextKind_eq {array : Expression} (h : SuffixReading array ts e rest) :
    nextKind ts = some (.sign .lbrack) := by
  cases h with
  | access hopening _ _ _ | assignment hopening _ _ _ _ => exact hopening.nextKind_sign

theorem MakeReading.nextKind_eq (h : MakeReading ts e rest) :
    nextKind ts = some (.keyword .makeWord) := by
  cases h with
  | array hhead _ _ _ | struct hhead _ _ _ | sized hhead _ _ _ _ | called hhead _ _ _ =>
    obtain ⟨hkeyword, -⟩ := hhead
    exact hkeyword.nextKind_keyword

theorem MainReading.nextKind_eq (h : MainReading ts e rest) : nextKind ts = some .identifier := by
  cases h with
  | call hkeyword _ | assignment hkeyword _ | name hkeyword _ _ _ =>
    exact hkeyword.nextKind_identifier

/-- A literal is read by itself: no other operand begins with a token of its kind. -/
theorem parsePrimary_literal {t : Token} (h : t.kind.isLiteral = true) (rest : List Token) :
    ReadsAs parsePrimary (t :: rest) (.literal t) rest := by
  rw [ReadsAs, parsePrimary, nextKind_cons]
  split
  case h_7 kind _ _ _ _ _ _ hkind =>
    cases hkind
    rw [if_pos h]
    refine (take_of_kind rfl).bind fun _ => ?_
    exact gives_return
  case h_8 hkind => cases hkind
  all_goals
    next hkind =>
      rw [Option.some.inj hkind] at h
      cases h

end

mutual

theorem ExpressionReading.reads {ts rest : List Token} {e : Expression}
    (h : ExpressionReading ts e rest) : ReadsAs parseExpression ts e rest := by
  rw [ReadsAs, parseExpression]
  match h with
  | .assignment hopening h =>
    rw [hopening]
    exact h.reads
  | .edit hopening htarget hoperator hvalue =>
    rw [hopening]
    refine htarget.bind fun _ => ?_
    refine hoperator.after.bind fun _ => ?_
    refine hvalue.reads.after.bind fun _ => ?_
    exact gives_return
  | .step hopening htarget hfirst hsecond =>
    rw [hopening]
    refine htarget.bind fun _ => ?_
    refine hfirst.after.bind fun _ => ?_
    refine hsecond.after.bind fun _ => ?_
    exact gives_return
  | .operand hopening h =>
    rw [hopening]
    exact h.reads
termination_by structural h

theorem AssignmentReading.reads {ts rest : List Token} {e : Expression}
    (h : AssignmentReading ts e rest) : ReadsAs parseAssignment ts e rest := by
  rw [ReadsAs, parseAssignment]
  match h with
  | .intro htarget hsign hvalue =>
    refine htarget.bind fun _ => ?_
    refine hsign.after.bind fun _ => ?_
    refine hvalue.reads.after.bind fun _ => ?_
    exact gives_return
termination_by structural h

theorem OperationReading.reads {parent : Nat} {ts rest : List Token} {e : Expression}
    (h : OperationReading parent ts e rest) : ReadsAs (parseOperation parent) ts e rest := by
  rw [ReadsAs, parseOperation]
  match h with
  | .leading hleading hoperator hoperand hjoined =>
    rw [hleading]
    refine hoperator.bind fun _ => ?_
    refine hoperand.reads.after.bind fun _ => ?_
    exact hjoined.reads.afterOptional
  | .plain hleading hoperand hjoined =>
    rw [hleading]
    refine hoperand.reads.bind fun _ => ?_
    exact hjoined.reads.afterOptional
termination_by structural h

theorem JoinedReading.reads {parent : Nat} {left e : Expression} {ts rest : List Token}
    (h : JoinedReading parent left ts e rest) : ReadsAs (parseJoined parent left) ts e rest := by
  rw [ReadsAs, parseJoined]
  match h with
  | .done hjoins =>
    rw [hjoins]
    exact gives_return
  | .joins hjoins hoperator hright hjoined =>
    rw [hjoins]
    refine hoperator.bind fun _ => ?_
    refine hright.reads.after.bind fun _ => ?_
    refine hjoined.reads.afterOptional.bind fun _ => ?_
    exact gives_return
termination_by structural h

theorem PostfixReading.reads {ts rest : List Token} {e : Expression}
    (h : PostfixReading ts e rest) : ReadsAs parsePostfix ts e rest := by
  rw [ReadsAs, parsePostfix]
  match h with
  | .intro hoperand hsuffixes =>
    refine hoperand.reads.bind fun _ => ?_
    exact hsuffixes.reads.afterOptional
termination_by structural h

theorem SuffixesReading.reads {array e : Expression} {ts rest : List Token}
    (h : SuffixesReading array ts e rest) : ReadsAs (parseSuffixes array) ts e rest := by
  rw [ReadsAs, parseSuffixes]
  match h with
  | .done hbracket =>
    rw [if_neg hbracket]
    exact gives_return
  | .last hsuffix hlast =>
    rw [if_pos hsuffix.nextKind_eq]
    refine hsuffix.reads.bind fun _ => ?_
    dsimp only
    rw [if_pos hlast]
    exact gives_return
  | .more hsuffix hmore hsuffixes =>
    rw [if_pos hsuffix.nextKind_eq]
    refine hsuffix.reads.bind fun _ => ?_
    dsimp only
    rw [if_neg (Bool.eq_false_iff.1 hmore)]
    refine hsuffixes.reads.afterOptional.bind fun _ => ?_
    exact gives_return
termination_by structural h

theorem SuffixReading.reads {array e : Expression} {ts rest : List Token}
    (h : SuffixReading array ts e rest) : ReadsAs (parseSuffix array) ts e rest := by
  rw [ReadsAs, parseSuffix]
  match h with
  | .access hopening hindex hclosing hassign =>
    refine hopening.bind fun _ => ?_
    refine hindex.reads.after.bind fun _ => ?_
    refine hclosing.after.bind fun _ => ?_
    dsimp only
    rw [acceptAfter?_eq_none hassign]
    exact gives_return
  | .assignment hopening hindex hclosing hsign hvalue =>
    obtain ⟨_, rfl, hkind, rfl⟩ := takeSign_iff.1 hsign
    refine hopening.bind fun _ => ?_
    refine hindex.reads.after.bind fun _ => ?_
    refine hclosing.after.bind fun hlt => ?_
    obtain ⟨_, hfound⟩ := acceptAfter?_of_kind hlt hkind
    dsimp only
    rw [hfound]
    refine hvalue.reads.after.bind fun _ => ?_
    exact gives_return
termination_by structural h

theorem PrimaryReading.reads {ts rest : List Token} {e : Expression}
    (h : PrimaryReading ts e rest) : ReadsAs parsePrimary ts e rest := by
  match h with
  | .literal hliteral => exact parsePrimary_literal hliteral _
  | .parenthesized hopening hinner hclosing =>
    rw [ReadsAs, parsePrimary, hopening.nextKind_sign]
    refine hopening.bind fun _ => ?_
    refine hinner.reads.after.bind fun _ => ?_
    refine hclosing.after.bind fun _ => ?_
    exact gives_return
  | .this hkeyword =>
    rw [ReadsAs, parsePrimary, hkeyword.nextKind_keyword]
    refine hkeyword.bind fun _ => ?_
    exact gives_return
  | .make h =>
    rw [ReadsAs, parsePrimary, h.nextKind_eq]
    exact h.reads
  | .reference hampersand hname =>
    rw [ReadsAs, parsePrimary, hampersand.nextKind_sign]
    refine hampersand.bind fun _ => ?_
    refine hname.after.bind fun _ => ?_
    exact gives_return
  | .dereference hstar hoperand =>
    rw [ReadsAs, parsePrimary, hstar.nextKind_sign]
    refine hstar.bind fun _ => ?_
    refine hoperand.reads.after.bind fun _ => ?_
    exact gives_return
  | .main hmain h =>
    rw [ReadsAs, parsePrimary, h.nextKind_eq]
    simp only [hmain, if_true]
    exact h.reads
  | .named hkind hmain h =>
    rw [ReadsAs, parsePrimary, hkind]
    simp only [hmain, Bool.false_eq_true, if_false]
    exact h.reads
termination_by structural h

theorem MainReading.reads {ts rest : List Token} {e : Expression} (h : MainReading ts e rest) :
    ReadsAs parseMain ts e rest := by
  rw [ReadsAs, parseMain]
  match h with
  | .call hkeyword hcall =>
    refine hkeyword.bind fun _ => ?_
    dsimp only
    rw [hcall.kindAt_eq]
    refine hcall.reads.after.bind fun _ => ?_
    exact gives_return
  | .assignment hkeyword hassignment =>
    refine hkeyword.bind fun _ => ?_
    dsimp only
    rw [hassignment.kindAt_eq]
    refine hassignment.reads.after.bind fun _ => ?_
    exact gives_return
  | .name hkeyword hname hcall hassign =>
    refine hkeyword.bind fun _ => ?_
    dsimp only
    rw [hname.kindAt_succ, kindAt_zero]
    split
    · next hkind => exact absurd hkind hcall
    · next hkind => exact absurd hkind hassign
    · refine hname.after.bind fun _ => ?_
      exact gives_return
termination_by structural h

theorem NamedReading.reads {ts rest : List Token} {e : Expression} (h : NamedReading ts e rest) :
    ReadsAs parseNamed ts e rest := by
  rw [ReadsAs, parseNamed]
  match h with
  | .call h =>
    rw [h.kindAt_eq]
    exact h.reads
  | .packageCall h =>
    obtain ⟨hsecond, hfourth⟩ := h.kindAt_eq
    rw [hsecond, hfourth]
    exact h.reads
  | .member h =>
    rw [h.kindAt_eq]
    exact h.reads
  | .cast (.inl hsecond) hhead harguments =>
    rw [hsecond, hhead]
    refine harguments.reads.after.bind fun _ => ?_
    exact gives_return
  | .cast (.inr ⟨hsecond, hfourth⟩) hhead harguments =>
    rw [hsecond, if_pos hfourth, hhead]
    refine harguments.reads.after.bind fun _ => ?_
    exact gives_return
  | .element hhead harray hsuffix =>
    rw [harray.kindAt_succ, kindAt_zero, hsuffix.nextKind_eq, hhead]
    refine harray.bind fun _ => ?_
    exact hsuffix.reads.after
  | .name hname hother =>
    rw [hname.kindAt_succ, kindAt_zero]
    split
    case h_5 =>
      refine hname.bind fun _ => ?_
      exact gives_return
    all_goals exact absurd ‹nextKind rest = some _› (hother _ (by simp))
termination_by structural h

theorem CallReading.reads {ts rest : List Token} {e : Expression} (h : CallReading ts e rest) :
    ReadsAs parseCall ts e rest := by
  rw [ReadsAs, parseCall]
  match h with
  | .intro hcallee hopening harguments =>
    refine hcallee.bind fun _ => ?_
    refine hopening.after.bind fun _ => ?_
    refine harguments.reads.after.bind fun _ => ?_
    exact gives_return
termination_by structural h

theorem PackageCallReading.reads {ts rest : List Token} {e : Expression}
    (h : PackageCallReading ts e rest) : ReadsAs parsePackageCall ts e rest := by
  rw [ReadsAs, parsePackageCall]
  match h with
  | .intro hpackage hseparator hcallee hopening harguments =>
    refine hpackage.bind fun _ => ?_
    refine hseparator.after.bind fun _ => ?_
    refine hcallee.after.bind fun _ => ?_
    refine hopening.after.bind fun _ => ?_
    refine harguments.reads.after.bind fun _ => ?_
    exact gives_return
termination_by structural h

theorem MemberOfReading.reads {ts rest : List Token} {e : Expression}
    (h : MemberOfReading ts e rest) : ReadsAs parseMemberOf ts e rest := by
  rw [ReadsAs, parseMemberOf]
  match h with
  | .call hobject hperiod hcallee hopening harguments =>
    refine hobject.bind fun _ => ?_
    refine hperiod.after.bind fun _ => ?_
    refine hcallee.after.bind fun _ => ?_
    dsimp only
    rw [hopening.nextKind_sign]
    refine hopening.after.bind fun _ => ?_
    refine harguments.reads.after.bind fun _ => ?_
    exact gives_return
  | .assignment hobject hperiod hfield hsign hvalue =>
    refine hobject.bind fun _ => ?_
    refine hperiod.after.bind fun _ => ?_
    refine hfield.after.bind fun _ => ?_
    dsimp only
    rw [hsign.nextKind_sign]
    refine hsign.after.bind fun _ => ?_
    refine hvalue.reads.after.bind fun _ => ?_
    exact gives_return
  | .access hobject hperiod hfield hcall hassign =>
    refine hobject.bind fun _ => ?_
    refine hperiod.after.bind fun _ => ?_
    refine hfield.after.bind fun _ => ?_
    dsimp only
    split
    · next hkind => exact absurd hkind hcall
    · next hkind => exact absurd hkind hassign
    · exact gives_return
termination_by structural h

theorem MakeReading.reads {ts rest : List Token} {e : Expression} (h : MakeReading ts e rest) :
    ReadsAs parseMake ts e rest := by
  rw [ReadsAs, parseMake]
  match h with
  | .array ⟨hkeyword, htype⟩ hgeneric hopening hparts =>
    obtain ⟨_, rfl, hkind, -⟩ := takeSign_iff.1 hopening
    refine hkeyword.bind fun _ => ?_
    refine htype.after.bind fun hlt => ?_
    obtain ⟨_, hfound⟩ := acceptAfter?_of_kind hlt hkind
    dsimp only
    rw [hfound]
    refine hparts.reads.after.bind fun _ => ?_
    rw [if_pos hgeneric]
    exact gives_return
  | .struct ⟨hkeyword, htype⟩ hgeneric hopening hparts =>
    obtain ⟨_, rfl, hkind, -⟩ := takeSign_iff.1 hopening
    refine hkeyword.bind fun _ => ?_
    refine htype.after.bind fun hlt => ?_
    obtain ⟨_, hfound⟩ := acceptAfter?_of_kind hlt hkind
    dsimp only
    rw [hfound]
    refine hparts.reads.after.bind fun _ => ?_
    rw [if_neg (Bool.eq_false_iff.1 hgeneric)]
    exact gives_return
  | .sized ⟨hkeyword, htype⟩ hgeneric hopening hlength hclosing =>
    refine hkeyword.bind fun _ => ?_
    refine htype.after.bind fun _ => ?_
    dsimp only
    rw [acceptAfter?_eq_none (by simp [hopening.nextKind_sign])]
    refine hopening.after.bind fun _ => ?_
    dsimp only
    rw [if_pos hgeneric]
    refine hlength.reads.after.bind fun _ => ?_
    refine hclosing.after.bind fun _ => ?_
    exact gives_return
  | .called ⟨hkeyword, htype⟩ hgeneric hopening harguments =>
    refine hkeyword.bind fun _ => ?_
    refine htype.after.bind fun _ => ?_
    dsimp only
    rw [acceptAfter?_eq_none (by simp [hopening.nextKind_sign])]
    refine hopening.after.bind fun _ => ?_
    dsimp only
    rw [if_neg (Bool.eq_false_iff.1 hgeneric)]
    refine harguments.reads.after.bind fun _ => ?_
    exact gives_return
termination_by structural h

theorem ArgumentsReading.reads {closing : Sign} {ts rest : List Token}
    {arguments : List Expression} {stop : Span}
    (h : ArgumentsReading closing ts arguments stop rest) :
    ReadsAs (parseArguments closing) ts (arguments, stop) rest := by
  rw [ReadsAs, parseArguments]
  match h with
  | .none hstop =>
    obtain ⟨_, rfl, hkind, rfl⟩ := takeSign_iff.1 hstop
    rw [accept?_of_kind hkind]
    exact gives_return
  | .last hkind hfirst hcomma hstop =>
    have hfront := hfirst.reads
    rw [accept?_eq_none_iff.2 hkind, if_neg hfront.isEmpty_eq_false]
    refine hfront.bind fun _ => ?_
    dsimp only
    rw [acceptAfter?_eq_none hcomma]
    refine hstop.after.bind fun _ => ?_
    exact gives_return
  | .more hkind hfirst hcomma hothers =>
    have hfront := hfirst.reads
    obtain ⟨_, rfl, hsign, -⟩ := takeSign_iff.1 hcomma
    rw [accept?_eq_none_iff.2 hkind, if_neg hfront.isEmpty_eq_false]
    refine hfront.bind fun hlt => ?_
    obtain ⟨_, hfound⟩ := acceptAfter?_of_kind hlt hsign
    dsimp only
    rw [hfound]
    refine hothers.reads.after.bind fun _ => ?_
    exact gives_return
termination_by structural h

end

section

variable {ts rest : List Token} {e : Expression}

/-- An expression is read just in one of the ways. -/
theorem parseExpression_iff : ReadsAs parseExpression ts e rest ↔ ExpressionReading ts e rest :=
  ⟨parseExpression_reading, ExpressionReading.reads⟩

end

/-! ### Where reading stops -/

/-- No operator that binds more tightly than the level is left. -/
theorem JoinedReading.stops {parent : Nat} {left : Expression} {ts rest : List Token}
    {e : Expression} (h : JoinedReading parent left ts e rest) :
    joiningOperator? parent rest = none := by
  match h with
  | .done hjoins => exact hjoins
  | .joins _ _ _ hjoined => exact hjoined.stops
termination_by structural h

theorem OperationReading.stops {parent : Nat} {ts rest : List Token} {e : Expression}
    (h : OperationReading parent ts e rest) : joiningOperator? parent rest = none := by
  cases h with
  | leading _ _ _ hjoined | plain _ _ hjoined => exact hjoined.stops

/-! ### How much is read -/

section

variable {ts rest : List Token} {e : Expression}

@[grind →]
theorem ExpressionReading.length_lt (h : ExpressionReading ts e rest) : rest.length < ts.length :=
  h.reads.length_lt

@[grind →]
theorem OperationReading.length_lt {parent : Nat} (h : OperationReading parent ts e rest) :
    rest.length < ts.length :=
  h.reads.length_lt

@[grind →]
theorem JoinedReading.length_le {parent : Nat} {left : Expression}
    (h : JoinedReading parent left ts e rest) : rest.length ≤ ts.length :=
  h.reads.length_le

@[grind →]
theorem PostfixReading.length_lt (h : PostfixReading ts e rest) : rest.length < ts.length :=
  h.reads.length_lt

@[grind →]
theorem SuffixesReading.length_le {array : Expression} (h : SuffixesReading array ts e rest) :
    rest.length ≤ ts.length :=
  h.reads.length_le

@[grind →]
theorem SuffixReading.length_lt {array : Expression} (h : SuffixReading array ts e rest) :
    rest.length < ts.length :=
  h.reads.length_lt

@[grind →]
theorem PrimaryReading.length_lt (h : PrimaryReading ts e rest) : rest.length < ts.length :=
  h.reads.length_lt

@[grind →]
theorem NamedReading.length_lt (h : NamedReading ts e rest) : rest.length < ts.length :=
  h.reads.length_lt

@[grind →]
theorem ArgumentsReading.length_lt {closing : Sign} {arguments : List Expression} {stop : Span}
    (h : ArgumentsReading closing ts arguments stop rest) : rest.length < ts.length :=
  h.reads.length_lt

@[grind →]
theorem MakeHeadReading.length_lt {keyword : Span} {type : TypeClause}
    (h : MakeHeadReading keyword type ts rest) : rest.length < ts.length := by
  obtain ⟨hkeyword, htype⟩ := h
  exact Nat.lt_trans htype.length_lt hkeyword.length_lt

@[grind →]
theorem AssignmentReading.length_add_three_le (h : AssignmentReading ts e rest) :
    rest.length + 3 ≤ ts.length := by
  obtain ⟨htarget, hsign, hvalue⟩ := h
  grind

@[grind →]
theorem CallReading.length_add_three_le (h : CallReading ts e rest) :
    rest.length + 3 ≤ ts.length := by
  obtain ⟨hcallee, hopening, harguments⟩ := h
  grind

@[grind →]
theorem MainReading.length_add_two_le (h : MainReading ts e rest) :
    rest.length + 2 ≤ ts.length := by
  cases h <;> grind

end

end TodLang
