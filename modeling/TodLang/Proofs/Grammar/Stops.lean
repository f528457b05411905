import TodLang.Proofs.Grammar.Extent
import TodLang.Proofs.Grammar.Readings
import TodLang.Proofs.Grammar.Soundness
import TodLang.Proofs.Tree.Written
/-!
Where the readers stop. A reader that has the tokens that spell a piece of the tree, and gives that
piece, stops where these tokens end. Only semicolons are an exception: a spelling may leave one to a
statement that the reader takes in with another statement inside it. So behind a statement the
reader leaves what the spelling leaves, or less if that begins with semicolons. In front of any
other token the two agree.
-/

namespace TodLang

/-! ### Pieces without semicolons -/

section

variable {front x y : List Token}

/-- Where the tokens behind a spelling are known from it, the reader leaves those. -/
theorem rest_eq {α : Type} {spells : α → List Token → Prop} {value : α}
    (past : List Token → List Token)
    (hpast : ∀ front, spells value front → ∀ rest, past (front ++ rest) = rest)
    (hfront : spells value front) (hread : ∃ other, front ++ x = other ++ y ∧ spells value other) :
    y = x := by
  obtain ⟨other, heq, hother⟩ := hread
  rw [← hpast other hother y, ← heq, hpast front hfront x]

theorem parseExpression_rest {e : Expression} (h : ExpressionSpelling e front)
    (hp : ReadsAs parseExpression (front ++ x) e y) : y = x :=
  rest_eq e.behind (fun _ h => h.behind) h (parseExpression_spells hp)

theorem parseCondition_rest {condition : Expression} (h : ConditionSpelling condition front)
    (hp : ReadsAs parseCondition (front ++ x) condition y) : y = x :=
  rest_eq (fun tokens => (condition.behind (tokens.drop 1)).drop 1) (fun _ h => h.behind) h
    (parseCondition_spells hp)

theorem parseVariableDeclaration_rest {d : VariableDeclaration} (h : DeclarationSpelling d front)
    (hp : ReadsAs parseVariableDeclaration (front ++ x) d y) : y = x :=
  rest_eq d.behind (fun _ h => h.behind) h (parseVariableDeclaration_spells hp)

theorem parseReturnValue_rest {value : Option Expression}
    (h : Optionally ExpressionSpelling value front)
    (hp : ReadsAs parseReturnValue (front ++ x) value y) : y = x :=
  rest_eq (behindOptional Expression.behind value)
    (fun _ h => h.behind fun _ _ h => ExpressionSpelling.behind h) h (parseReturnValue_spells hp)

theorem takeIdent_rest {name : Ident} (h : NameSpelling name front)
    (hp : ReadsAs takeIdent (front ++ x) name y) : y = x := by
  obtain ⟨_⟩ := h
  obtain ⟨_, ⟨⟩, -⟩ := takeIdent_iff.1 hp
  rfl

theorem takeSign_rest {sign : Sign} {span : Span} (h : Fixed (.sign sign) front)
    (hp : ReadsAs (takeSign sign) (front ++ x) span y) : y = x := by
  obtain ⟨_⟩ := h
  obtain ⟨_, ⟨⟩, -⟩ := takeSign_iff.1 hp
  rfl

theorem takeKeyword_rest {word : Keyword} {span : Span} (h : Fixed (.keyword word) front)
    (hp : ReadsAs (takeKeyword word) (front ++ x) span y) : y = x := by
  obtain ⟨_⟩ := h
  obtain ⟨_, ⟨⟩, -⟩ := takeKeyword_iff.1 hp
  rfl

theorem parseOptionalTypeClause_rest {type : Option TypeClause}
    (h : Optionally TypeSpelling type front)
    (hp : ReadsAs parseOptionalTypeClause (front ++ x) type y) : y = x :=
  rest_eq (behindOptional TypeClause.behind type)
    (fun _ h => h.behind fun _ _ h => TypeSpelling.behind h) h (parseOptionalTypeClause_spells hp)

theorem parseParameterList_rest {parameters : List Parameter} {closing span : Span}
    (h : ParameterListSpelling (parameters, closing) front)
    (hp : ReadsAs parseParameterList (front ++ x) (parameters, span) y) : y = x := by
  obtain ⟨other, heq, hother⟩ := parseParameterList_spells hp
  have hx := h.behind x
  rwa [heq, hother.behind] at hx

theorem parseFields_rest {fields : List Parameter} {closing span : Span}
    (h : ClosedBy (.sign .rbrace) (Listed ParameterSpelling) (fields, closing) front)
    (hp : ReadsAs parseFields (front ++ x) (fields, span) y) : y = x := by
  have hpast {front : List Token} {closing : Span}
      (h : ClosedBy (.sign .rbrace) (Listed ParameterSpelling) (fields, closing) front)
      (rest : List Token) :
      (behindEach Parameter.behind fields (front ++ rest)).drop 1 = rest := by
    obtain ⟨inside, _, rfl, hfields, ⟨hclosing⟩⟩ := h
    rw [List.append_assoc, hfields.behind (fun _ _ h => h.behind)]
    · rfl
    · exact nextKind_ne_comma hclosing (by decide) rest
  obtain ⟨other, heq, hother⟩ := parseFields_spells hp
  have hx := hpast h x
  rwa [heq, hpast hother] at hx

end

/-! ### What a statement begins with -/

/-- Some tokens begin with one that is no semicolon. -/
def Opens (tokens : List Token) : Prop :=
  ∃ kind, nextKind tokens = some kind ∧ kind ≠ .sign .semicolon

section

variable {front tokens : List Token}

theorem Opens.nextKind_ne (h : Opens tokens) : nextKind tokens ≠ some (.sign .semicolon) := by
  obtain ⟨kind, hkind, hother⟩ := h
  simpa [hkind] using hother

theorem Opens.append (h : Opens front) (back : List Token) : Opens (front ++ back) := by
  obtain ⟨kind, hkind, hother⟩ := h
  exact ⟨kind, nextKind_append_of_eq_some hkind back, hother⟩

theorem Fixed.opens {kind : TokenKind} (h : Fixed kind tokens) (hkind : kind ≠ .sign .semicolon) :
    Opens tokens := by
  obtain ⟨ht⟩ := h
  exact ⟨kind, by rw [nextKind_cons, ht], hkind⟩

theorem NameSpelling.opens {name : Ident} (h : NameSpelling name tokens) : Opens tokens :=
  ⟨.identifier, h.nextKind_eq, by simp⟩

theorem OperatorSpelling.opens {operator : Operator} (h : OperatorSpelling operator tokens)
    (hunary : operator.sign.unaryPrecedence ≠ 0) : Opens tokens := by
  refine ⟨.sign operator.sign, h.nextKind_eq, fun hkind => hunary ?_⟩
  rw [TokenKind.sign.inj hkind]
  rfl

theorem SpellsExpression.opens {part : ExpressionPart} (h : SpellsExpression part tokens)
    (hpart : ∀ es, part ≠ .arguments es) : Opens tokens := by
  induction h with
  | assignment h _ _ | edit h _ _ _ | call h _ _ _ | packageCall h _ _ _ _ _
  | typeCall h _ _ _ _ _ | fieldAccess h _ _ | fieldAssignment h _ _ _ _ | element h _ _ _
  | elementAssignment h _ _ _ _ _ =>
    simp only [List.append_assoc]
    exact h.opens.append _
  | parenthesized h _ _ | make h _ _ _ _ _ | makeSized h _ _ _ _ _ | makeArray h _ _ _ _ _
  | makeStruct h _ _ _ _ _ =>
    simp only [List.append_assoc]
    exact (h.fixed.opens (by simp)).append _
  | reference h _ | dereference h _ => exact (h.fixed.opens (by simp)).append _
  | this h => exact h.fixed.opens (by simp)
  | step h _ _ _ _ => exact h.opens.append _
  | unary h hunary _ _ => exact (h.opens hunary).append _
  | name h | ownName h => exact h.opens
  | operation _ ih | operand _ ih | accessed _ ih | primary _ ih | ownCall _ ih
  | ownAssignment _ ih =>
    exact ih (by simp)
  | binary _ _ _ _ ih _ | arrayAssignment _ _ _ _ _ _ ih _ _ | arrayAccess _ _ _ _ ih _ =>
    simp only [List.append_assoc]
    exact (ih (by simp)).append _
  | literal h =>
    refine ⟨_, rfl, fun hkind => ?_⟩
    rw [hkind] at h
    cases h
  | cast h _ _ _ _ =>
    have hopens : Opens _ := ⟨.identifier, h.nextKind_eq, by simp⟩
    simp only [List.append_assoc]
    exact hopens.append _
  | main hkeyword _ _ _ _ => exact ⟨_, rfl, by simp [hkeyword]⟩
  | none | last _ | more _ _ _ => exact absurd rfl (hpart _)

/-- No statement begins with a semicolon. -/
theorem SpellsStatement.opens {part : StatementPart} (h : SpellsStatement part tokens)
    (hpart : ∀ ss, part ≠ .statements ss) : Opens tokens := by
  induction h with
  | statement _ _ ih => exact (ih (by simp)).append _
  | declaration h =>
    obtain ⟨hword, -, -, -⟩ := h
    simp only [List.append_assoc]
    refine Opens.append ?_ _
    rcases hword with hword | hword <;> exact hword.fixed.opens (by simp)
  | block h _ _ _ | ifThen h _ _ _ | ifElse h _ _ _ _ _ _ | «for» h _ _ _ _ _ _ _ _ _ _
  | «while» h _ _ _ =>
    simp only [List.append_assoc]
    exact (h.fixed.opens (by simp)).append _
  | «return» h _ => exact (h.fixed.opens (by simp)).append _
  | «break» h | «continue» h => exact h.fixed.opens (by simp)
  | expression h => exact SpellsExpression.opens h (by simp)
  | none | cons _ _ _ _ => exact absurd rfl (hpart _)

/-- In front of a closing brace no statement begins with a semicolon. -/
theorem SpellsStatement.nextKind_ne {ss : List Statement} {c : Token}
    (h : SpellsStatement (.statements ss) tokens) (hc : c.kind = .sign .rbrace)
    (rest : List Token) : nextKind (tokens ++ c :: rest) ≠ some (.sign .semicolon) := by
  cases h with
  | none => simp [hc]
  | cons h _ => exact (((h.opens (by simp)).append _).append _).nextKind_ne

end

/-! ### Statements -/

/-- A reader that is given what spells a value in front of some tokens, and gives the value, leaves
these tokens, or less if they begin with semicolons. -/
def StopsBehind {α : Type} (reader : (tokens : List Token) → Parse α tokens.length) (value : α)
    (tokens : List Token) : Prop :=
  ∀ r x y, nextKind r ≠ some (.sign .semicolon) → r <:+ x →
    ReadsAs reader (tokens ++ x) value y → r <:+ y ∧ y <:+ x

/-- Where the readers of statements stop when they read what spells a part. -/
def StatementPart.Stops (tokens : List Token) : StatementPart → Prop
  | statement s => StopsBehind parseStatement s tokens
  | bare s => StopsBehind parseBareStatement s tokens
  | statements ss => ∀ closing c r y, c.kind = .sign .rbrace →
      ReadsAs parseStatements (tokens ++ c :: r) (ss, closing) y → y = r

section

variable {α : Type} {reader : (tokens : List Token) → Parse α tokens.length} {value : α}
  {r x y ts tokens : List Token}

theorem StopsBehind.of_rest (h : ∀ x y, ReadsAs reader (tokens ++ x) value y → y = x) :
    StopsBehind reader value tokens := by
  intro r x y _ hx hp
  obtain rfl := h x y hp
  exact ⟨hx, List.suffix_rfl⟩

/-- In front of a token that is no semicolon a reader stops just behind what it was to read. -/
theorem StopsBehind.rest (h : StopsBehind reader value tokens)
    (hx : nextKind x ≠ some (.sign .semicolon)) (hp : ReadsAs reader (tokens ++ x) value y) :
    y = x := by
  obtain ⟨hxy, hyx⟩ := h x x y hx List.suffix_rfl hp
  exact hyx.eq_of_length_le hxy.length_le

theorem takeSemicolon_suffix {found : Option Token} (hr : nextKind r ≠ some (.sign .semicolon))
    (hts : r <:+ ts) (hp : ReadsAs (takeOptional (.sign .semicolon)) ts found y) :
    r <:+ y ∧ y <:+ ts := by
  obtain ⟨front, rfl, hfront⟩ := takeOptional_spells hp
  rcases hfront with ⟨⟩ | ⟨⟨ht⟩⟩
  · exact ⟨hts, List.suffix_rfl⟩
  · refine ⟨?_, List.suffix_append _ _⟩
    rcases List.suffix_cons_iff.1 hts with rfl | hts
    · exact absurd (congrArg some ht) hr
    · exact hts

theorem takeOptional_rest {kind : TokenKind} {t : Token} {found : Option Token}
    (ht : t.kind = kind) (hp : ReadsAs (takeOptional kind) (t :: x) found y) : y = x := by
  rw [takeOptional_iff] at hp
  cases found with
  | none => exact absurd (congrArg some ht) hp.1
  | some _ =>
    obtain ⟨⟨⟩, -⟩ := hp
    rfl

/-- A semicolon that stands behind a statement is taken by it or by one that ends with it. -/
theorem StopsBehind.statement {s : Statement} {front back : List Token}
    (h : StopsBehind parseBareStatement s front) (hback : AtMostOne (.sign .semicolon) back) :
    StopsBehind parseStatement s (front ++ back) := by
  intro r x y hr hx hp
  obtain ⟨y₁, found, hbare, hsemicolon⟩ := parseStatement_iff.1 hp
  rw [List.append_assoc] at hbare
  obtain ⟨hr₁, h₁⟩ := h r (back ++ x) y₁ hr (hx.trans (List.suffix_append back x)) hbare
  obtain ⟨hr₂, h₂⟩ := takeSemicolon_suffix hr hr₁ hsemicolon
  refine ⟨hr₂, ?_⟩
  rcases hback with ⟨⟩ | ⟨⟨ht⟩⟩
  · exact h₂.trans h₁
  rw [List.singleton_append] at h₁
  rcases List.suffix_cons_iff.1 h₁ with rfl | h₁
  · obtain rfl := takeOptional_rest ht hsemicolon
    exact List.suffix_rfl
  · exact h₂.trans h₁

theorem ConditionalReading.rest_eq {word : Keyword} {keyword : Span} {condition : Expression}
    {front back : List Token} (hkeyword : Marks (.keyword word) keyword front)
    (hcondition : ConditionSpelling condition back)
    (h : ConditionalReading word keyword condition (front ++ (back ++ x)) y) : y = x := by
  obtain ⟨r₁, hword, h⟩ := h
  obtain rfl := takeKeyword_rest hkeyword.fixed hword
  exact parseCondition_rest hcondition h

theorem LoopReading.rest_eq {keyword : Span} {init : VariableDeclaration} {condition : Expression}
    {word opened front first middle second : List Token}
    (hkeyword : Marks (.keyword .forWord) keyword word) (hopening : Fixed (.sign .lparen) opened)
    (hinit : DeclarationSpelling init front) (hfirst : Fixed (.sign .semicolon) first)
    (hcondition : ExpressionSpelling condition middle) (hsecond : Fixed (.sign .semicolon) second)
    (h : LoopReading keyword init condition
      (word ++ (opened ++ (front ++ (first ++ (middle ++ (second ++ x)))))) y) : y = x := by
  obtain ⟨r₁, r₂, r₃, r₄, r₅, _, _, _, h₁, h₂, h₃, h₄, h₅, h₆⟩ := h
  obtain rfl := takeKeyword_rest hkeyword.fixed h₁
  obtain rfl := takeSign_rest hopening h₂
  obtain rfl := parseVariableDeclaration_rest hinit h₃
  obtain rfl := takeSign_rest hfirst h₄
  obtain rfl := parseExpression_rest hcondition h₅
  exact takeSign_rest hsecond h₆

/-- The readers of statements stop where the tokens end that spell what they give, but for
semicolons. The induction is on the spelling; a statement inside another one may take a semicolon
that the spelling leaves to the other, so what the two leave is compared from the inside out. -/
theorem SpellsStatement.stops {part : StatementPart} (h : SpellsStatement part tokens) :
    part.Stops tokens := by
  induction h with
  | statement _ hsemicolon ih => exact StopsBehind.statement ih hsemicolon
  | declaration h =>
    refine StopsBehind.of_rest fun x y hp => ?_
    exact parseVariableDeclaration_rest h (parseBareStatement_iff.1 hp)
  | block hopening _ hclosing ih =>
    obtain ⟨hclosing⟩ := hclosing
    refine StopsBehind.of_rest fun x y hp => ?_
    simp only [List.append_assoc] at hp
    obtain ⟨r₁, hbrace, hstatements⟩ := parseBareStatement_iff.1 hp
    obtain rfl := takeSign_rest hopening.fixed hbrace
    exact ih _ _ x y hclosing hstatements
  | ifThen hkeyword hcondition _ ih =>
    intro r x y hr hx hp
    simp only [List.append_assoc] at hp
    obtain ⟨r₁, hhead, hbody, -⟩ := parseBareStatement_iff.1 hp
    obtain rfl := hhead.rest_eq hkeyword hcondition
    exact ih r x y hr hx hbody
  | ifElse hkeyword hcondition _ helse _ ih ihalternative =>
    intro r x y hr hx hp
    simp only [List.append_assoc] at hp
    obtain ⟨r₁, r₂, r₃, hhead, hbody, hword, halternative⟩ := parseBareStatement_iff.1 hp
    obtain rfl := hhead.rest_eq hkeyword hcondition
    -- `else` is no semicolon, so the body has stopped right in front of it.
    obtain rfl := ih.rest ((helse.fixed.opens (by simp)).append _).nextKind_ne hbody
    obtain rfl := takeKeyword_rest helse.fixed hword
    exact ihalternative r x y hr hx halternative
  | «return» hkeyword hvalue =>
    refine StopsBehind.of_rest fun x y hp => ?_
    rw [List.append_assoc] at hp
    obtain ⟨r₁, hword, hreturned⟩ := parseBareStatement_iff.1 hp
    obtain rfl := takeKeyword_rest hkeyword.fixed hword
    exact parseReturnValue_rest hvalue hreturned
  | «for» hkeyword hopening hinit hfirst hcondition hsecond _ hclosing _ ihstep ihbody =>
    intro r x y hr hx hp
    simp only [List.append_assoc] at hp
    obtain ⟨r₁, r₂, r₃, _, hhead, hstep, hparen, hbody⟩ := parseBareStatement_iff.1 hp
    obtain rfl := hhead.rest_eq hkeyword hopening hinit hfirst hcondition hsecond
    obtain rfl := ihstep.rest ((hclosing.opens (by simp)).append _).nextKind_ne hstep
    obtain rfl := takeSign_rest hclosing hparen
    exact ihbody r x y hr hx hbody
  | «while» hkeyword hcondition _ ih =>
    intro r x y hr hx hp
    simp only [List.append_assoc] at hp
    obtain ⟨r₁, hhead, hbody⟩ := parseBareStatement_iff.1 hp
    obtain rfl := hhead.rest_eq hkeyword hcondition
    exact ih r x y hr hx hbody
  | «break» h | «continue» h =>
    refine StopsBehind.of_rest fun x y hp => ?_
    exact takeKeyword_rest h.fixed (parseBareStatement_iff.1 hp)
  | expression h =>
    refine StopsBehind.of_rest fun x y hp => ?_
    exact parseExpression_rest h (parseBareStatement_iff.1 hp).2
  | none =>
    intro closing c r y hc hp
    exact takeSign_rest (.token hc) (parseStatements_iff.1 hp)
  | cons _ hothers ih ihothers =>
    intro closing c r y hc hp
    rw [List.append_assoc] at hp
    obtain ⟨-, r₁, hfirst, hback⟩ := parseStatements_iff.1 hp
    obtain rfl := ih.rest (hothers.nextKind_ne hc r) hfirst
    exact ihothers closing c r y hc hback

/-- In front of a token that is no semicolon, the reader of statements stops just behind one. -/
theorem SpellsStatement.rest_eq {s : Statement} (h : SpellsStatement (.statement s) tokens)
    (hx : nextKind x ≠ some (.sign .semicolon)) (hp : ReadsAs parseStatement (tokens ++ x) s y) :
    y = x :=
  StopsBehind.rest (SpellsStatement.stops h) hx hp

end

/-! ### Members -/

section

variable {x y tokens : List Token}

theorem takeSemicolon_rest {found : Option Token} {back : List Token}
    (hback : AtMostOne (.sign .semicolon) back) (hx : nextKind x ≠ some (.sign .semicolon))
    (hp : ReadsAs (takeOptional (.sign .semicolon)) (back ++ x) found y) : y = x := by
  rcases hback with ⟨⟩ | ⟨⟨ht⟩⟩
  · obtain ⟨hxy, hyx⟩ := takeSemicolon_suffix hx List.suffix_rfl hp
    exact hyx.eq_of_length_le hxy.length_le
  · exact takeOptional_rest ht hp

theorem VisibilityReading.rest_eq {visibility : Option Span} {front : List Token}
    (hspells : Optionally (Marks (.keyword .setWord)) visibility front)
    (h : VisibilityReading visibility (front ++ x) y) : y = x := by
  cases hspells with
  | missing => exact h
  | present hword => exact takeKeyword_rest hword.fixed h

theorem SignatureReading.rest_eq {keyword closing span : Span} {name : Ident}
    {parameters : List Parameter} {returnType : Option TypeClause}
    {word front list clause : List Token} (hkeyword : Fixed (.keyword .fnWord) word)
    (hname : NameSpelling name front)
    (hparameters : ParameterListSpelling (parameters, closing) list)
    (hreturn : Optionally TypeSpelling returnType clause)
    (h : SignatureReading keyword name (parameters, span) returnType
      (word ++ (front ++ (list ++ (clause ++ x)))) y) : y = x := by
  obtain ⟨r₁, r₂, r₃, h₁, h₂, h₃, h₄⟩ := h
  obtain rfl := takeKeyword_rest hkeyword h₁
  obtain rfl := takeIdent_rest hname h₂
  obtain rfl := parseParameterList_rest hparameters h₃
  exact parseOptionalTypeClause_rest hreturn h₄

theorem DirectiveReading.rest_eq {word : Keyword} {keyword : Span} {name : Ident}
    {front middle back : List Token} (hkeyword : Marks (.keyword word) keyword front)
    (hname : NameSpelling name middle) (hback : AtMostOne (.sign .semicolon) back)
    (hx : nextKind x ≠ some (.sign .semicolon))
    (h : DirectiveReading word keyword name (front ++ middle ++ back ++ x) y) : y = x := by
  simp only [List.append_assoc] at h
  obtain ⟨r₁, r₂, _, h₁, h₂, h₃⟩ := h
  obtain rfl := takeKeyword_rest hkeyword.fixed h₁
  obtain rfl := takeIdent_rest hname h₂
  exact takeSemicolon_rest hback hx h₃

/-- In front of a token that is no semicolon, the reader of members stops where the tokens end
that spell the member it gives. -/
theorem MemberSpelling.rest_eq {member : Member} (h : MemberSpelling member tokens)
    (hx : nextKind x ≠ some (.sign .semicolon)) (hp : ReadsAs parseMember (tokens ++ x) member y) :
    y = x := by
  have hreading := parseMember_iff.1 hp
  cases h with
  | statement h => exact SpellsStatement.rest_eq h hx hreading.2
  | function h =>
    obtain ⟨hvisibility, hkeyword, hname, hparameters, hreturn, hopening, hbody, ⟨hclosing⟩⟩ := h
    simp only [List.append_assoc] at hreading
    obtain ⟨r₁, r₂, _, hvisible, hsignature, hblock⟩ := hreading
    obtain rfl := hvisible.rest_eq hvisibility
    obtain rfl := hsignature.rest_eq hkeyword.fixed hname hparameters hreturn
    obtain ⟨r₃, hbrace, hstatements⟩ := parseBlock_iff.1 hblock
    obtain rfl := takeSign_rest hopening.fixed hbrace
    exact hbody.stops _ _ x y hclosing hstatements
  | external hkeyword hsecond hname hparameters hreturn hsemicolon =>
    simp only [List.append_assoc] at hreading
    obtain ⟨r₁, r₂, _, _, hword, hsignature, hback⟩ := hreading
    obtain rfl := takeKeyword_rest hkeyword.fixed hword
    obtain rfl := hsignature.rest_eq hsecond hname hparameters hreturn
    exact takeSemicolon_rest hsemicolon hx hback
  | struct hkeyword hname hopening hfields hclosing hsemicolon =>
    simp only [List.append_assoc] at hreading
    obtain ⟨r₁, r₂, r₃, r₄, _, _, h₁, h₂, h₃, h₄, h₅⟩ := hreading
    obtain rfl := takeKeyword_rest hkeyword.fixed h₁
    obtain rfl := takeIdent_rest hname h₂
    obtain rfl := takeSign_rest hopening h₃
    rw [← List.append_assoc] at h₄
    obtain rfl := parseFields_rest ⟨_, _, rfl, hfields, hclosing⟩ h₄
    exact takeSemicolon_rest hsemicolon hx h₅
  | packageReference hkeyword hname hsemicolon =>
    exact hreading.rest_eq hkeyword hname hsemicolon hx
  | packageUse hkeyword hname hsemicolon =>
    exact hreading.rest_eq hkeyword hname hsemicolon hx

end

end TodLang
