import TodLang.Tree.Written
import TodLang.Proofs.Grammar.Outcome
import TodLang.Proofs.Grammar.Spelling
/-!
How a tree is written, seen from its spellings. A tree that some tokens spell is written with a
first token of the same kind, the look-ahead of the grammar takes what is written for the same
kind of expression, and brackets are closed inside of what is written.
-/

namespace TodLang

theorem nextKind_append_of_eq_some {kind : TokenKind} {front : List Token}
    (h : nextKind front = some kind) (back : List Token) :
    nextKind (front ++ back) = some kind := by
  cases front with
  | nil => cases h
  | cons t front => exact h

/-- How what a run of tokens can spell is written. -/
def ExpressionPart.written : ExpressionPart → List Token
  | expression e | operation _ e | operand e | accessed e | primary e | own e => e.written
  | arguments es => Expression.writtenAll es

/-! ### First tokens -/

theorem NameSpelling.nextKind_eq {name : Ident} {tokens : List Token}
    (h : NameSpelling name tokens) : nextKind tokens = some .identifier := by
  cases h with
  | token h => simp [h]

theorem Marks.nextKind_eq {kind : TokenKind} {span : Span} {tokens : List Token}
    (h : Marks kind span tokens) : nextKind tokens = some kind := by
  cases h with
  | token h => simp [h]

theorem OperatorSpelling.nextKind_eq {operator : Operator} {tokens : List Token}
    (h : OperatorSpelling operator tokens) : nextKind tokens = some (.sign operator.sign) := by
  cases h with
  | token h => simp [h]

theorem QualifiedSpelling.nextKind_eq {package : Option Ident} {name : Ident} {tokens : List Token}
    (h : QualifiedSpelling package name tokens) : nextKind tokens = some .identifier := by
  cases h with
  | plain hname => exact hname.nextKind_eq
  | qualified hpackage _ _ =>
    rw [List.append_assoc]
    exact nextKind_append_of_eq_some hpackage.nextKind_eq _

theorem TypeSpelling.nextKind_eq {type : TypeClause} {tokens : List Token}
    (h : TypeSpelling type tokens) : nextKind tokens = some .identifier := by
  cases h with
  | plain hname => exact hname.nextKind_eq
  | generic hname _ _ _ =>
    simp only [List.append_assoc]
    exact nextKind_append_of_eq_some hname.nextKind_eq _

/-- A written type begins with a name. -/
theorem TypeClause.nextKind_written (c : TypeClause) :
    nextKind c.written = some .identifier := by
  obtain ⟨package, name, arguments, closing⟩ := c
  cases package <;> cases arguments <;> rfl

/-- An expression is written with a first token of the kind that it is spelled with. -/
theorem SpellsExpression.exists_nextKind {part : ExpressionPart} {tokens : List Token}
    (h : SpellsExpression part tokens) (hpart : ∀ es, part ≠ .arguments es) :
    ∃ kind, nextKind tokens = some kind ∧ nextKind part.written = some kind := by
  have begins {kind : TokenKind} {front : List Token} (hfront : nextKind front = some kind)
      {back written : List Token} (hwritten : nextKind written = some kind) :
      ∃ kind, nextKind (front ++ back) = some kind ∧ nextKind written = some kind :=
    ⟨kind, nextKind_append_of_eq_some hfront back, hwritten⟩
  induction h with
  | assignment h _ _ | edit h _ _ _ | call h _ _ _ | packageCall h _ _ _ _ _
  | typeCall h _ _ _ _ _ | fieldAccess h _ _ | fieldAssignment h _ _ _ _ | element h _ _ _
  | elementAssignment h _ _ _ _ _ | parenthesized h _ _ | make h _ _ _ _ _
  | makeSized h _ _ _ _ _ | makeArray h _ _ _ _ _ | makeStruct h _ _ _ _ _ =>
    simp only [List.append_assoc]
    exact begins h.nextKind_eq rfl
  | step h _ _ _ _ | unary h _ _ _ | reference h _ | dereference h _ =>
    exact begins h.nextKind_eq rfl
  | name h | ownName h => exact ⟨_, h.nextKind_eq, rfl⟩
  | operation _ ih | operand _ ih | accessed _ ih | primary _ ih | ownCall _ ih
  | ownAssignment _ ih =>
    exact ih (by simp)
  | binary _ _ _ _ ih _ | arrayAssignment _ _ _ _ _ _ ih _ _ | arrayAccess _ _ _ _ ih _ =>
    obtain ⟨kind, htokens, hwritten⟩ := ih (by simp)
    simp only [List.append_assoc]
    refine begins htokens ?_
    simp only [ExpressionPart.written, Expression.written, List.append_assoc]
    exact nextKind_append_of_eq_some hwritten _
  | literal _ => exact ⟨_, rfl, rfl⟩
  | this h => exact ⟨_, h.nextKind_eq, rfl⟩
  | cast h _ _ _ _ =>
    simp only [List.append_assoc]
    refine begins h.nextKind_eq ?_
    simp only [ExpressionPart.written, Expression.written, List.append_assoc]
    exact nextKind_append_of_eq_some (TypeClause.nextKind_written _) _
  | main hkeyword _ _ _ _ => exact ⟨_, rfl, by rw [hkeyword]; rfl⟩
  | none | last _ | more _ _ _ => exact absurd rfl (hpart _)

/-! ### What is taken for an operand -/

/-- What behind a name does not make an assignment, an edit or a step of it. -/
def Quiet (tokens : List Token) : Prop :=
  ∀ t ∈ tokens.head?, ∀ sign, t.kind = .sign sign →
    sign ≠ .assign ∧ sign.isEdit = false ∧ (sign.isStep = true → t.spaceAfter = true)

theorem quiet_cons {t : Token} {tokens : List Token} :
    Quiet (t :: tokens) ↔ ∀ sign, t.kind = .sign sign →
      sign ≠ .assign ∧ sign.isEdit = false ∧ (sign.isStep = true → t.spaceAfter = true) := by
  simp [Quiet]

theorem Sign.quiet_written {sign : Sign} (hassign : sign ≠ .assign) (hedit : sign.isEdit = false)
    (tokens : List Token) : Quiet (sign.written :: tokens) := by
  rw [quiet_cons]
  rintro s hs
  cases hs
  exact ⟨hassign, hedit, fun _ => rfl⟩

/-- A row that begins with something other than a sign leaves a name before it alone. -/
theorem quiet_of_nextKind (kind : TokenKind) {tokens : List Token}
    (h : nextKind tokens = some kind) (hkind : ∀ sign, kind ≠ .sign sign) : Quiet tokens := by
  cases tokens with
  | nil => simp [Quiet]
  | cons t tokens =>
    rw [nextKind_cons, Option.some.injEq] at h
    rw [quiet_cons, h]
    exact fun sign hsign => absurd hsign (hkind sign)

theorem opening_eq_operand {t : Token} {tokens : List Token}
    (h : t.kind = .identifier → Quiet tokens) : opening (t :: tokens) = .operand := by
  unfold opening
  split
  · next target operator others heq =>
    obtain ⟨rfl, rfl⟩ := List.cons.inj heq
    split
    · next sign htarget hoperator =>
      obtain ⟨hassign, hedit, hstep⟩ := quiet_cons.1 (h htarget) sign hoperator
      rw [if_neg hassign, if_neg (by simp [hedit]), if_neg]
      rintro ⟨hsign, hspace, -⟩
      rw [hstep hsign] at hspace
      cases hspace
    · rfl
  · rfl

theorem Sign.quiet_of_binaryPrecedence {sign : Sign} {level : Nat}
    (h : level < sign.binaryPrecedence) (tokens : List Token) : Quiet (sign.written :: tokens) := by
  apply Sign.quiet_written
  · rintro rfl
    cases h
  · cases sign <;> first | rfl | cases h

/-- A part of an operation. -/
def ExpressionPart.isOperation : ExpressionPart → Bool
  | operation _ _ | operand _ | accessed _ | primary _ => true
  | expression _ | own _ | arguments _ => false

/-- What is written for a part of an operation is taken for one, unless what follows makes
something else of a name. -/
theorem SpellsExpression.opening_written {part : ExpressionPart} {tokens : List Token}
    (h : SpellsExpression part tokens) (hpart : part.isOperation = true) {rest : List Token}
    (hrest : Quiet rest) : opening (part.written ++ rest) = .operand := by
  induction h generalizing rest with
  | operand _ ih | accessed _ ih | primary _ ih => exact ih rfl hrest
  | binary hlevel _ _ _ ih _ =>
    simp only [ExpressionPart.written, Expression.written, List.append_assoc] at ih ⊢
    exact ih rfl (Sign.quiet_of_binaryPrecedence hlevel _)
  | arrayAssignment _ _ _ _ _ _ ih _ _ | arrayAccess _ _ _ _ ih _ =>
    simp only [ExpressionPart.written, Expression.written, List.append_assoc] at ih ⊢
    exact ih rfl (Sign.quiet_written (by decide) rfl _)
  | unary _ _ _ _ | parenthesized _ _ _ | this _ | reference _ _ | dereference _ _
  | make _ _ _ _ _ _ | makeSized _ _ _ _ _ _ | makeArray _ _ _ _ _ _ | makeStruct _ _ _ _ _ _ =>
    exact opening_eq_operand fun hkind => by cases hkind
  | @literal t h =>
    refine opening_eq_operand fun hkind => ?_
    rw [show t.bare.kind = t.kind from rfl] at hkind
    rw [hkind] at h
    cases h
  | name _ => exact opening_eq_operand fun _ => hrest
  | call _ _ _ _ | packageCall _ _ _ _ _ _ | typeCall _ _ _ _ _ _ | fieldAccess _ _ _
  | fieldAssignment _ _ _ _ _ | element _ _ _ _ | elementAssignment _ _ _ _ _ _ =>
    exact opening_eq_operand fun _ => Sign.quiet_written (by decide) rfl _
  | @cast type _ _ _ _ _ _ _ hgeneric _ _ _ _ =>
    obtain ⟨package, name, arguments, closing⟩ := type
    cases arguments with
    | nil => cases hgeneric
    | cons first others =>
      cases package <;> exact opening_eq_operand fun _ => Sign.quiet_written (by decide) rfl _
  | main _ _ hname _ h _ =>
    obtain ⟨kind, htokens, hwritten⟩ := h.exists_nextKind (by simp)
    rw [nextKind_cons, hname, Option.some.injEq] at htokens
    refine opening_eq_operand fun _ => quiet_of_nextKind .identifier ?_ (by simp)
    rw [htokens]
    exact nextKind_append_of_eq_some hwritten rest
  | assignment _ _ _ _ | edit _ _ _ _ _ | step _ _ _ _ _ | operation _ _ | ownName _
  | ownCall _ _ | ownAssignment _ _ | none | last _ _ | more _ _ _ _ _ => cases hpart

/-! ### Brackets -/

/-- What is left behind the bracket that closes the one in front, with some more to close before
it. -/
def behindBracket (depth : Nat) (tokens : List Token) : List Token :=
  match tokens with
  | [] => []
  | t :: rest =>
    if t.kind = .sign .lbrack then behindBracket (depth + 1) rest
    else if t.kind = .sign .rbrack then
      match depth with
      | 0 => rest
      | depth + 1 => behindBracket depth rest
    else behindBracket depth rest

/-- A kind of token that is no bracket. -/
def TokenKind.isPlain (kind : TokenKind) : Bool :=
  kind ≠ .sign .lbrack && kind ≠ .sign .rbrack

/-- All brackets are closed inside. -/
def Balanced (tokens : List Token) : Prop :=
  ∀ depth rest, behindBracket depth (tokens ++ rest) = behindBracket depth rest

section

variable {t : Token} {depth : Nat} {tokens : List Token}

@[simp] theorem behindBracket_plain (ht : t.kind.isPlain = true) :
    behindBracket depth (t :: tokens) = behindBracket depth tokens := by
  simp only [TokenKind.isPlain, ne_eq, Bool.and_eq_true, decide_eq_true_eq] at ht
  simp [behindBracket, ht]

@[simp] theorem behindBracket_lbrack (ht : t.kind = .sign .lbrack) :
    behindBracket depth (t :: tokens) = behindBracket (depth + 1) tokens := by
  simp [behindBracket, ht]

@[simp] theorem behindBracket_rbrack (ht : t.kind = .sign .rbrack) :
    behindBracket (depth + 1) (t :: tokens) = behindBracket depth tokens := by
  simp [behindBracket, ht]

theorem behindBracket_zero (ht : t.kind = .sign .rbrack) :
    behindBracket 0 (t :: tokens) = tokens := by
  simp [behindBracket, ht]

end

@[simp] theorem Sign.written_kind (s : Sign) : s.written.kind = .sign s := by
  simp only [Sign.written]

@[simp] theorem Sign.writtenTight_kind (s : Sign) : s.writtenTight.kind = .sign s := by
  simp only [Sign.writtenTight]

@[simp] theorem Keyword.written_kind (k : Keyword) : k.written.kind = .keyword k := by
  simp only [Keyword.written]

@[simp] theorem Ident.written_kind (name : Ident) : name.written.kind = .identifier := by
  simp only [Ident.written]

@[simp] theorem mainWritten_kind : mainWritten.kind = .identifier := by
  simp only [mainWritten, Ident.written_kind]

@[simp] theorem Token.bare_kind (t : Token) : t.bare.kind = t.kind := by
  simp only [Token.bare]

@[simp] theorem TokenKind.isPlain_identifier : TokenKind.identifier.isPlain = true := rfl

@[simp] theorem TokenKind.isPlain_keyword (k : Keyword) : (TokenKind.keyword k).isPlain = true :=
  rfl

@[simp] theorem TokenKind.isPlain_sign (s : Sign) :
    (TokenKind.sign s).isPlain = true ↔ s ≠ .lbrack ∧ s ≠ .rbrack := by
  simp [isPlain]

theorem TokenKind.isPlain_of_isLiteral {kind : TokenKind} (h : kind.isLiteral = true) :
    kind.isPlain = true := by
  cases kind <;> first | rfl | cases h

theorem TokenKind.isPlain_of_isEdit {sign : Sign} (h : sign.isEdit = true) :
    (TokenKind.sign sign).isPlain = true := by
  cases sign <;> first | rfl | cases h

theorem TokenKind.isPlain_of_isStep {sign : Sign} (h : sign.isStep = true) :
    (TokenKind.sign sign).isPlain = true := by
  cases sign <;> first | rfl | cases h

theorem TokenKind.isPlain_of_unaryPrecedence {sign : Sign} (h : sign.unaryPrecedence ≠ 0) :
    (TokenKind.sign sign).isPlain = true := by
  cases sign <;> first | rfl | exact absurd rfl h

theorem TokenKind.isPlain_of_binaryPrecedence {sign : Sign} {level : Nat}
    (h : level < sign.binaryPrecedence) : (TokenKind.sign sign).isPlain = true := by
  cases sign <;> first | rfl | cases h

namespace TypeClause

mutual

theorem balanced_written : ∀ c : TypeClause, Balanced c.written
  | ⟨package, name, [], _⟩ => by
    intro depth rest
    cases package <;> simp [written, packageWritten]
  | ⟨package, name, first :: others, _⟩ => by
    intro depth rest
    have hfirst := balanced_written first
    have hothers := balanced_writtenTail others
    cases package <;> simp [written, packageWritten, hfirst _ _, hothers _ _]

theorem balanced_writtenTail : ∀ cs : List TypeClause, Balanced (writtenTail cs)
  | [] => fun _ _ => rfl
  | c :: others => by
    intro depth rest
    have hfirst := balanced_written c
    have hothers := balanced_writtenTail others
    simp [writtenTail, hfirst _ _, hothers _ _]

end

end TypeClause

theorem Fixed.exists_token {kind : TokenKind} {tokens : List Token} (h : Fixed kind tokens) :
    ∃ t, tokens = [t] ∧ t.kind = kind := by
  cases h with
  | token h => exact ⟨_, rfl, h⟩

theorem NameSpelling.balanced {name : Ident} {tokens : List Token}
    (h : NameSpelling name tokens) : Balanced tokens := by
  cases h with
  | token h =>
    intro depth rest
    simp [h]

theorem QualifiedSpelling.balanced {package : Option Ident} {name : Ident} {tokens : List Token}
    (h : QualifiedSpelling package name tokens) : Balanced tokens := by
  cases h with
  | plain hname => exact hname.balanced
  | qualified hpackage hseparator hname =>
    intro depth rest
    obtain ⟨t, rfl, ht⟩ := hseparator.exists_token
    simp [ht, hpackage.balanced _ _, hname.balanced _ _]

/-- What spells a type is balanced. -/
theorem SpellsType.balanced {part : TypePart} {tokens : List Token} (h : SpellsType part tokens) :
    Balanced tokens := by
  induction h with
  | plain hname => exact hname.balanced
  | generic hname hopening _ hclosing ih =>
    intro depth rest
    obtain ⟨t, rfl, ht⟩ := hopening.exists_token
    cases hclosing with
    | token hclosing => simp [ht, hclosing, hname.balanced _ _, ih _ _]
  | last _ ih => exact ih
  | more _ hcomma _ ih ihothers =>
    intro depth rest
    obtain ⟨t, rfl, ht⟩ := hcomma.exists_token
    simp [ht, ih _ _, ihothers _ _]

theorem Expression.balanced_writtenTail {es : List Expression} (h : Balanced (writtenAll es)) :
    Balanced (writtenTail es) := by
  cases es with
  | nil => exact h
  | cons e es =>
    intro depth rest
    have hrest := h depth rest
    simpa [writtenTail, writtenAll] using hrest

/-- What is written for an expression is balanced: its own brackets come in pairs, and no literal
and no operator is a bracket. -/
theorem SpellsExpression.balanced_written {part : ExpressionPart} {tokens : List Token}
    (h : SpellsExpression part tokens) : Balanced part.written := by
  induction h with
  | operation _ ih | operand _ ih | accessed _ ih | primary _ ih | ownCall _ ih
  | ownAssignment _ ih => exact ih
  | assignment _ _ _ ih | fieldAssignment _ _ _ _ _ ih | parenthesized _ _ _ ih
  | dereference _ _ ih | call _ _ _ _ ih | packageCall _ _ _ _ _ _ ih
  | typeCall _ _ _ _ _ _ ih | main _ _ _ _ _ ih | last _ ih | element _ _ _ _ ih =>
    intro depth rest
    simp only [ExpressionPart.written] at ih
    simp [ExpressionPart.written, Expression.written, Expression.writtenAll,
      Expression.writtenTail, ih _ _]
  | edit _ _ hedit _ ih =>
    intro depth rest
    simp only [ExpressionPart.written] at ih
    have hplain := TokenKind.isPlain_of_isEdit hedit
    simp [ExpressionPart.written, Expression.written, hplain, ih _ _]
  | step _ _ _ hstep _ =>
    intro depth rest
    have hplain := TokenKind.isPlain_of_isStep hstep
    simp [ExpressionPart.written, Expression.written, hplain]
  | unary _ hunary _ _ ih =>
    intro depth rest
    simp only [ExpressionPart.written] at ih
    have hplain := TokenKind.isPlain_of_unaryPrecedence hunary
    simp [ExpressionPart.written, Expression.written, hplain, ih _ _]
  | binary hlevel _ _ _ ihleft ihright =>
    intro depth rest
    simp only [ExpressionPart.written] at ihleft ihright
    have hplain := TokenKind.isPlain_of_binaryPrecedence hlevel
    simp [ExpressionPart.written, Expression.written, hplain, ihleft _ _, ihright _ _]
  | literal h =>
    intro depth rest
    simp [ExpressionPart.written, Expression.written, TokenKind.isPlain_of_isLiteral h]
  | this _ | reference _ _ | name _ | ownName _ | fieldAccess _ _ _ | none =>
    intro depth rest
    simp [ExpressionPart.written, Expression.written, Expression.writtenAll]
  | arrayAssignment _ _ _ _ _ _ iharray ihindex ihvalue =>
    intro depth rest
    simp only [ExpressionPart.written] at iharray ihindex ihvalue
    simp [ExpressionPart.written, Expression.written, iharray _ _, ihindex _ _, ihvalue _ _]
  | arrayAccess _ _ _ _ iharray ihindex =>
    intro depth rest
    simp only [ExpressionPart.written] at iharray ihindex
    simp [ExpressionPart.written, Expression.written, iharray _ _, ihindex _ _]
  | elementAssignment _ _ _ _ _ _ ihindex ihvalue =>
    intro depth rest
    simp only [ExpressionPart.written] at ihindex ihvalue
    simp [ExpressionPart.written, Expression.written, ihindex _ _, ihvalue _ _]
  | cast _ _ _ _ _ ih | make _ _ _ _ _ _ ih | makeSized _ _ _ _ _ _ ih
  | makeArray _ _ _ _ _ _ ih | makeStruct _ _ _ _ _ _ ih =>
    intro depth rest
    simp only [ExpressionPart.written] at ih
    simp [ExpressionPart.written, Expression.written, TypeClause.balanced_written _ _ _, ih _ _]
  | more _ _ _ ih ihothers =>
    intro depth rest
    simp only [ExpressionPart.written] at ih ihothers
    have htail := Expression.balanced_writtenTail ihothers
    simp [ExpressionPart.written, Expression.writtenAll, ih _ _, htail _ _]

end TodLang
