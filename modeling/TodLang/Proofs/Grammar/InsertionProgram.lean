import TodLang.Proofs.Grammar.InsertionExpression
import TodLang.Proofs.Grammar.Readings
/-!
Statements and members are read the same with a semicolon put in behind them, or farther back. A
statement takes the semicolon in if it is put where one may stand, so what is left behind a
statement can be the same tokens as before.
-/

namespace TodLang

variable {t : Token} {r : List Token}

/-! ### Declarations, conditions and values -/

section

variable {ts us rest : List Token}

theorem Inserted.atDeclaredType_false (ht : t.kind = .sign .semicolon) (h : Inserted t r ts us)
    (hlen : r.length < ts.length) (hat : ¬atDeclaredType ts = true) :
    ¬atDeclaredType us = true := by
  rw [atDeclaredType, h.nextKind_eq hlen]
  rcases h.kindAt_or 1 hlen with heq | heq
  · rwa [heq]
  · rw [heq, ht]
    simp

theorem parseOptionalTypeClause_inserted (ht : t.kind = .sign .semicolon) (h : Inserted t r ts us)
    {type : Option TypeClause} (hp : ReadsAs parseOptionalTypeClause ts type rest)
    (hlen : r.length ≤ rest.length) :
    ReadsOn t r (ReadsAs parseOptionalTypeClause us type) rest := by
  have hreading := parseOptionalTypeClause_iff.1 hp
  cases type with
  | none =>
    obtain ⟨hname, rfl⟩ := hreading
    have hname' := h.nextKind_ne hlen (by simp [ht]) hname
    exact ⟨us, parseOptionalTypeClause_iff.2 ⟨hname', rfl⟩, h⟩
  | some type =>
    obtain ⟨hname, htype⟩ := hreading
    obtain ⟨u₁, htype', h₁⟩ := parseTypeClause_inserted ht h htype hlen
    rw [← h.nextKind_eq (by grind)] at hname
    exact ⟨u₁, parseOptionalTypeClause_iff.2 ⟨hname, htype'⟩, h₁⟩

/-- A declared type is told from a name by the token behind it, which has to be there still. -/
theorem declaredType_inserted (ht : t.kind = .sign .semicolon) (h : Inserted t r ts us)
    {type : Option TypeClause}
    (hp : OptionalReading (atDeclaredType ts = true) parseTypeClause type ts rest)
    (hlen : r.length < rest.length) :
    ReadsOn t r (OptionalReading (atDeclaredType us = true) parseTypeClause type us) rest := by
  cases type with
  | none =>
    obtain ⟨hat, rfl⟩ := hp
    exact ⟨us, ⟨h.atDeclaredType_false ht hlen hat, rfl⟩, h⟩
  | some type =>
    obtain ⟨hat, htype⟩ := hp
    obtain ⟨u₁, htype', h₁⟩ := parseTypeClause_inserted ht h htype (by omega)
    have hlt := htype.length_lt
    rw [atDeclaredType, ← h.nextKind_eq (by omega), ← h.kindAt_eq (by omega)] at hat
    exact ⟨u₁, ⟨hat, htype'⟩, h₁⟩

theorem InitialValueReading.inserted (ht : t.kind = .sign .semicolon) {value : Option Expression}
    (h : InitialValueReading value ts rest) (hus : Inserted t r ts us)
    (hlen : r.length ≤ rest.length) : ReadsOn t r (InitialValueReading value us) rest := by
  cases value with
  | none =>
    obtain ⟨hsign, rfl⟩ := h
    exact ⟨us, ⟨hus.nextKind_ne hlen (by simp [ht]) hsign, rfl⟩, hus⟩
  | some value =>
    obtain ⟨r₁, sign, hsign, hvalue⟩ := h
    obtain ⟨u₁, hsign', h₁⟩ := takeSign_inserted hus hsign (by grind)
    obtain ⟨u₂, hvalue', h₂⟩ := parseExpression_inserted ht h₁ hvalue hlen
    exact ⟨u₂, ⟨u₁, sign, hsign', hvalue'⟩, h₂⟩

theorem InitialValueReading.length_le {value : Option Expression}
    (h : InitialValueReading value ts rest) : rest.length ≤ ts.length :=
  (parseInitialValue_iff.2 h).length_le

theorem parseVariableDeclaration_inserted (ht : t.kind = .sign .semicolon) (h : Inserted t r ts us)
    {d : VariableDeclaration} (hp : ReadsAs parseVariableDeclaration ts d rest)
    (hlen : r.length ≤ rest.length) : ReadsOn t r (ReadsAs parseVariableDeclaration us d) rest := by
  obtain ⟨r₁, r₂, r₃, hword, htype, hname, hvalue⟩ := parseVariableDeclaration_iff.1 hp
  have hlt₂ := (parseDeclaredType_iff.2 htype).length_le
  have hlt₃ := hname.length_lt
  have hlt₄ := hvalue.length_le
  obtain ⟨u₁, hword', h₁⟩ := takeKeyword_inserted h hword (by omega)
  obtain ⟨u₂, htype', h₂⟩ := declaredType_inserted ht h₁ htype (by omega)
  obtain ⟨u₃, hname', h₃⟩ := takeIdent_inserted h₂ hname (by omega)
  obtain ⟨u₄, hvalue', h₄⟩ := hvalue.inserted ht h₃ hlen
  exact ⟨u₄, parseVariableDeclaration_iff.2 ⟨u₁, u₂, u₃, hword', htype', hname', hvalue'⟩, h₄⟩

theorem parseReturnValue_inserted (ht : t.kind = .sign .semicolon) (h : Inserted t r ts us)
    {value : Option Expression} (hp : ReadsAs parseReturnValue ts value rest)
    (hlen : r.length ≤ rest.length) : ReadsOn t r (ReadsAs parseReturnValue us value) rest := by
  have hreading := parseReturnValue_iff.1 hp
  cases value with
  | none =>
    obtain ⟨hends, rfl⟩ := hreading
    refine ⟨us, parseReturnValue_iff.2 ⟨fun hnot => hends fun hends => hnot ?_, rfl⟩, h⟩
    rcases h.kindAt_or 0 hlen with heq | heq
    · rwa [endsReturn, nextKind, heq]
    · rw [endsReturn, nextKind, heq, ht]
      rfl
  | some value =>
    obtain ⟨hends, hvalue⟩ := hreading
    obtain ⟨u₁, hvalue', h₁⟩ := parseExpression_inserted ht h hvalue hlen
    rw [endsReturn, ← h.nextKind_eq (by grind), ← endsReturn] at hends
    exact ⟨u₁, parseReturnValue_iff.2 ⟨hends, hvalue'⟩, h₁⟩

theorem parseCondition_inserted (ht : t.kind = .sign .semicolon) (h : Inserted t r ts us)
    {condition : Expression} (hp : ReadsAs parseCondition ts condition rest)
    (hlen : r.length ≤ rest.length) : ReadsOn t r (ReadsAs parseCondition us condition) rest := by
  obtain ⟨r₁, r₂, opening, closing, hopening, hcondition, hclosing⟩ := parseCondition_iff.1 hp
  obtain ⟨u₁, hopening', h₁⟩ := takeSign_inserted h hopening (by grind)
  obtain ⟨u₂, hcondition', h₂⟩ := parseExpression_inserted ht h₁ hcondition (by grind)
  obtain ⟨u₃, hclosing', h₃⟩ := takeSign_inserted h₂ hclosing hlen
  exact ⟨u₃, parseCondition_iff.2 ⟨u₁, u₂, opening, closing, hopening', hcondition', hclosing'⟩,
    h₃⟩

/-- Where a semicolon may stand or be missing, the one that was put in is taken or left. -/
theorem takeSemicolon_inserted (ht : t.kind = .sign .semicolon) (h : Inserted t r ts us)
    {found : Option Token} (hp : ReadsAs (takeOptional (.sign .semicolon)) ts found rest)
    (hlen : r.length ≤ rest.length) :
    ∃ found, ReadsOn t r (ReadsAs (takeOptional (.sign .semicolon)) us found) rest := by
  rw [takeOptional_iff] at hp
  cases found with
  | some c =>
    have htaken : ∃ c, ts = c :: rest ∧ c.kind = .sign .semicolon := ⟨c, hp⟩
    obtain ⟨u₁, ⟨d, hread⟩, h₁⟩ := h.token htaken hlen
    exact ⟨some d, u₁, takeOptional_iff.2 hread, h₁⟩
  | none =>
    obtain ⟨hnext, rfl⟩ := hp
    rcases h with rfl | ⟨_ | ⟨first, front⟩, rfl, rfl⟩
    · exact ⟨none, us, takeOptional_iff.2 ⟨hnext, rfl⟩, .refl t r us⟩
    · exact ⟨some t, _, takeOptional_iff.2 ⟨rfl, ht⟩, .refl t _ _⟩
    · exact ⟨none, _, takeOptional_iff.2 ⟨hnext, rfl⟩, .inr ⟨first :: front, rfl, rfl⟩⟩

end

/-! ### Statements -/

section

variable {ts us rest : List Token} {keyword : Span} {condition : Expression}

@[grind →]
theorem ConditionalReading.length_lt {word : Keyword}
    (h : ConditionalReading word keyword condition ts rest) : rest.length < ts.length := by
  obtain ⟨r₁, hkeyword, hcondition⟩ := h
  exact Nat.lt_trans hcondition.length_lt hkeyword.length_lt

theorem ConditionalReading.inserted (ht : t.kind = .sign .semicolon) {word : Keyword}
    (h : ConditionalReading word keyword condition ts rest) (hus : Inserted t r ts us)
    (hlen : r.length ≤ rest.length) :
    ReadsOn t r (ConditionalReading word keyword condition us) rest := by
  obtain ⟨r₁, hkeyword, hcondition⟩ := h
  obtain ⟨u₁, hkeyword', h₁⟩ := takeKeyword_inserted hus hkeyword (by grind)
  obtain ⟨u₂, hcondition', h₂⟩ := parseCondition_inserted ht h₁ hcondition hlen
  exact ⟨u₂, ⟨u₁, hkeyword', hcondition'⟩, h₂⟩

variable {init : VariableDeclaration}

@[grind →]
theorem LoopReading.length_lt (h : LoopReading keyword init condition ts rest) :
    rest.length < ts.length := by
  obtain ⟨r₁, r₂, r₃, r₄, r₅, _, _, _, h₁, h₂, h₃, h₄, h₅, h₆⟩ := h
  grind

theorem LoopReading.inserted (ht : t.kind = .sign .semicolon)
    (h : LoopReading keyword init condition ts rest) (hus : Inserted t r ts us)
    (hlen : r.length ≤ rest.length) :
    ReadsOn t r (LoopReading keyword init condition us) rest := by
  obtain ⟨r₁, r₂, r₃, r₄, r₅, opening, first, second, hkeyword, hopening, hinit, hfirst,
    hcondition, hsecond⟩ := h
  obtain ⟨u₁, hkeyword', h₁⟩ := takeKeyword_inserted hus hkeyword (by grind)
  obtain ⟨u₂, hopening', h₂⟩ := takeSign_inserted h₁ hopening (by grind)
  obtain ⟨u₃, hinit', h₃⟩ := parseVariableDeclaration_inserted ht h₂ hinit (by grind)
  obtain ⟨u₄, hfirst', h₄⟩ := takeSign_inserted h₃ hfirst (by grind)
  obtain ⟨u₅, hcondition', h₅⟩ := parseExpression_inserted ht h₄ hcondition (by grind)
  obtain ⟨u₆, hsecond', h₆⟩ := takeSign_inserted h₅ hsecond hlen
  exact ⟨u₆, ⟨u₁, u₂, u₃, u₄, u₅, opening, first, second, hkeyword', hopening', hinit', hfirst',
    hcondition', hsecond'⟩, h₆⟩

end

mutual

theorem parseStatement_inserted (ht : t.kind = .sign .semicolon) {s : Statement}
    {ts us rest : List Token} (h : Inserted t r ts us) (hp : ReadsAs parseStatement ts s rest)
    (hlen : r.length ≤ rest.length) : ReadsOn t r (ReadsAs parseStatement us s) rest := by
  obtain ⟨r₁, _, hbare, hsemicolon⟩ := parseStatement_iff.1 hp
  have hle := hsemicolon.length_le
  obtain ⟨u₁, hbare', h₁⟩ := parseBareStatement_inserted ht h hbare (by omega)
  obtain ⟨found, u₂, hsemicolon', h₂⟩ := takeSemicolon_inserted ht h₁ hsemicolon hlen
  exact ⟨u₂, parseStatement_iff.2 ⟨u₁, found, hbare', hsemicolon'⟩, h₂⟩
termination_by (sizeOf s, 1)

theorem parseBareStatement_inserted (ht : t.kind = .sign .semicolon) {s : Statement}
    {ts us rest : List Token} (h : Inserted t r ts us) (hp : ReadsAs parseBareStatement ts s rest)
    (hlen : r.length ≤ rest.length) : ReadsOn t r (ReadsAs parseBareStatement us s) rest := by
  have hlt := hp.length_lt
  suffices hread : ReadsOn t r (BareReading s us) rest by
    obtain ⟨u, hread, hu⟩ := hread
    exact ⟨u, hread.reads, hu⟩
  have hreading := parseBareStatement_iff.1 hp
  cases s with
  | declaration d => exact parseVariableDeclaration_inserted ht h hreading hlen
  | block opening ss closing =>
    obtain ⟨r₁, hopening, hstatements⟩ := hreading
    obtain ⟨u₁, hopening', h₁⟩ := takeSign_inserted h hopening (by grind)
    obtain ⟨u₂, hstatements', h₂⟩ := parseStatements_inserted ht h₁ hstatements hlen
    exact ⟨u₂, ⟨u₁, hopening', hstatements'⟩, h₂⟩
  | ifThen keyword condition body =>
    obtain ⟨r₁, hhead, hbody, helse⟩ := hreading
    obtain ⟨u₁, hhead', h₁⟩ := hhead.inserted ht h (by grind)
    obtain ⟨u₂, hbody', h₂⟩ := parseStatement_inserted ht h₁ hbody hlen
    exact ⟨u₂, ⟨u₁, hhead', hbody', h₂.nextKind_ne hlen (by simp [ht]) helse⟩, h₂⟩
  | ifElse keyword condition body elseKeyword alternative =>
    obtain ⟨r₁, r₂, r₃, hhead, hbody, helse, halternative⟩ := hreading
    obtain ⟨u₁, hhead', h₁⟩ := hhead.inserted ht h (by grind)
    obtain ⟨u₂, hbody', h₂⟩ := parseStatement_inserted ht h₁ hbody (by grind)
    obtain ⟨u₃, helse', h₃⟩ := takeKeyword_inserted h₂ helse (by grind)
    obtain ⟨u₄, halternative', h₄⟩ := parseStatement_inserted ht h₃ halternative hlen
    exact ⟨u₄, ⟨u₁, u₂, u₃, hhead', hbody', helse', halternative'⟩, h₄⟩
  | «return» keyword value =>
    obtain ⟨r₁, hkeyword, hvalue⟩ := hreading
    have hle := hvalue.length_le
    obtain ⟨u₁, hkeyword', h₁⟩ := takeKeyword_inserted h hkeyword (by omega)
    obtain ⟨u₂, hvalue', h₂⟩ := parseReturnValue_inserted ht h₁ hvalue hlen
    exact ⟨u₂, ⟨u₁, hkeyword', hvalue'⟩, h₂⟩
  | «for» keyword init condition step body =>
    obtain ⟨r₁, r₂, r₃, closing, hhead, hstep, hclosing, hbody⟩ := hreading
    obtain ⟨u₁, hhead', h₁⟩ := hhead.inserted ht h (by grind)
    obtain ⟨u₂, hstep', h₂⟩ := parseStatement_inserted ht h₁ hstep (by grind)
    obtain ⟨u₃, hclosing', h₃⟩ := takeSign_inserted h₂ hclosing (by grind)
    obtain ⟨u₄, hbody', h₄⟩ := parseStatement_inserted ht h₃ hbody hlen
    exact ⟨u₄, ⟨u₁, u₂, u₃, closing, hhead', hstep', hclosing', hbody'⟩, h₄⟩
  | «while» keyword condition body =>
    obtain ⟨r₁, hhead, hbody⟩ := hreading
    obtain ⟨u₁, hhead', h₁⟩ := hhead.inserted ht h (by grind)
    obtain ⟨u₂, hbody', h₂⟩ := parseStatement_inserted ht h₁ hbody hlen
    exact ⟨u₂, ⟨u₁, hhead', hbody'⟩, h₂⟩
  | «break» keyword => exact takeKeyword_inserted h hreading hlen
  | «continue» keyword => exact takeKeyword_inserted h hreading hlen
  | expression e =>
    obtain ⟨hahead, hexpression⟩ := hreading
    obtain ⟨u₁, hexpression', h₁⟩ := parseExpression_inserted ht h hexpression hlen
    exact ⟨u₁, ⟨hahead.of_nextKind_eq (h.nextKind_eq (by omega)), hexpression'⟩, h₁⟩
termination_by (sizeOf s, 0)

theorem parseStatements_inserted (ht : t.kind = .sign .semicolon) {ss : List Statement}
    {closing : Span} {ts us rest : List Token} (h : Inserted t r ts us)
    (hp : ReadsAs parseStatements ts (ss, closing) rest) (hlen : r.length ≤ rest.length) :
    ReadsOn t r (ReadsAs parseStatements us (ss, closing)) rest := by
  have hreading := parseStatements_iff.1 hp
  cases ss with
  | nil =>
    obtain ⟨u₁, hclosing', h₁⟩ := takeSign_inserted h hreading hlen
    exact ⟨u₁, parseStatements_iff.2 hclosing', h₁⟩
  | cons s others =>
    obtain ⟨hbrace, r₁, hfirst, hothers⟩ := hreading
    obtain ⟨u₁, hfirst', h₁⟩ := parseStatement_inserted ht h hfirst (by grind)
    obtain ⟨u₂, hothers', h₂⟩ := parseStatements_inserted ht h₁ hothers hlen
    rw [← h.nextKind_eq (by grind)] at hbrace
    exact ⟨u₂, parseStatements_iff.2 ⟨hbrace, u₁, hfirst', hothers'⟩, h₂⟩
termination_by (sizeOf ss, 0)

end

theorem parseBlock_inserted (ht : t.kind = .sign .semicolon) {ts us rest : List Token}
    (h : Inserted t r ts us) {b : Block} (hp : ReadsAs parseBlock ts b rest)
    (hlen : r.length ≤ rest.length) : ReadsOn t r (ReadsAs parseBlock us b) rest := by
  obtain ⟨opening, ss, closing⟩ := b
  obtain ⟨r₁, hopening, hstatements⟩ := parseBlock_iff.1 hp
  obtain ⟨u₁, hopening', h₁⟩ := takeSign_inserted h hopening (by grind)
  obtain ⟨u₂, hstatements', h₂⟩ := parseStatements_inserted ht h₁ hstatements hlen
  exact ⟨u₂, parseBlock_iff.2 ⟨u₁, hopening', hstatements'⟩, h₂⟩

/-! ### Members -/

section

variable {ts us rest : List Token}

theorem parseParameter_inserted (ht : t.kind = .sign .semicolon) (h : Inserted t r ts us)
    {p : Parameter} (hp : ReadsAs parseParameter ts p rest) (hlen : r.length ≤ rest.length) :
    ReadsOn t r (ReadsAs parseParameter us p) rest := by
  obtain ⟨r₁, hname, htype⟩ := parseParameter_iff.1 hp
  obtain ⟨u₁, hname', h₁⟩ := takeIdent_inserted h hname (by grind)
  obtain ⟨u₂, htype', h₂⟩ := parseTypeClause_inserted ht h₁ htype hlen
  exact ⟨u₂, parseParameter_iff.2 ⟨u₁, hname', htype'⟩, h₂⟩

@[grind →]
theorem ParametersReading.length_lt {ps : List Parameter} (h : ParametersReading ts ps rest) :
    rest.length < ts.length :=
  h.reads.length_lt

theorem ParametersReading.inserted (ht : t.kind = .sign .semicolon) {ps : List Parameter}
    (h : ParametersReading ts ps rest) (hus : Inserted t r ts us) (hlen : r.length ≤ rest.length) :
    ReadsOn t r (ParametersReading us ps) rest := by
  induction h generalizing us with
  | last hfirst hcomma =>
    obtain ⟨u₁, hfirst', h₁⟩ := parseParameter_inserted ht hus hfirst hlen
    exact ⟨u₁, .last hfirst' (h₁.nextKind_ne hlen (by simp [ht]) hcomma), h₁⟩
  | more hfirst hcomma hothers ih =>
    obtain ⟨u₁, hfirst', h₁⟩ := parseParameter_inserted ht hus hfirst (by grind)
    obtain ⟨u₂, hcomma', h₂⟩ := takeSign_inserted h₁ hcomma (by grind)
    obtain ⟨u₃, hothers', h₃⟩ := ih h₂ hlen
    exact ⟨u₃, .more hfirst' hcomma' hothers', h₃⟩

theorem parseParameterList_inserted (ht : t.kind = .sign .semicolon) (h : Inserted t r ts us)
    {ps : List Parameter × Span} (hp : ReadsAs parseParameterList ts ps rest)
    (hlen : r.length ≤ rest.length) : ReadsOn t r (ReadsAs parseParameterList us ps) rest := by
  obtain ⟨ps, closing⟩ := ps
  cases parseParameterList_iff.1 hp with
  | none hopening hclosing =>
    obtain ⟨u₁, hopening', h₁⟩ := takeSign_inserted h hopening (by grind)
    obtain ⟨u₂, hclosing', h₂⟩ := takeSign_inserted h₁ hclosing hlen
    exact ⟨u₂, parseParameterList_iff.2 (.none hopening' hclosing'), h₂⟩
  | some hopening hkind hps hclosing =>
    obtain ⟨u₁, hopening', h₁⟩ := takeSign_inserted h hopening (by grind)
    obtain ⟨u₂, hps', h₂⟩ := hps.inserted ht h₁ (by grind)
    obtain ⟨u₃, hclosing', h₃⟩ := takeSign_inserted h₂ hclosing hlen
    rw [← h₁.nextKind_eq (by grind)] at hkind
    exact ⟨u₃, parseParameterList_iff.2 (.some hopening' hkind hps' hclosing'), h₃⟩

theorem FieldsReading.inserted (ht : t.kind = .sign .semicolon) {fields : List Parameter}
    {closing : Span} (h : FieldsReading ts fields closing rest) (hus : Inserted t r ts us)
    (hlen : r.length ≤ rest.length) : ReadsOn t r (FieldsReading us fields closing) rest := by
  induction h generalizing us with
  | none hclosing =>
    obtain ⟨u₁, hclosing', h₁⟩ := takeSign_inserted hus hclosing hlen
    exact ⟨u₁, .none hclosing', h₁⟩
  | last hkind hfirst hcomma hclosing =>
    obtain ⟨u₁, hfirst', h₁⟩ := parseParameter_inserted ht hus hfirst (by grind)
    obtain ⟨u₂, hclosing', h₂⟩ := takeSign_inserted h₁ hclosing hlen
    rw [← hus.nextKind_eq (by grind)] at hkind
    have hcomma' := h₁.nextKind_ne (by grind) (by simp [ht]) hcomma
    exact ⟨u₂, .last hkind hfirst' hcomma' hclosing', h₂⟩
  | more hkind hfirst hcomma hothers ih =>
    have hlt := hothers.reads.length_lt
    obtain ⟨u₁, hfirst', h₁⟩ := parseParameter_inserted ht hus hfirst (by grind)
    obtain ⟨u₂, hcomma', h₂⟩ := takeSign_inserted h₁ hcomma (by grind)
    obtain ⟨u₃, hothers', h₃⟩ := ih h₂ hlen
    rw [← hus.nextKind_eq (by grind)] at hkind
    exact ⟨u₃, .more hkind hfirst' hcomma' hothers', h₃⟩

theorem parseFields_inserted (ht : t.kind = .sign .semicolon) (h : Inserted t r ts us)
    {fields : List Parameter × Span} (hp : ReadsAs parseFields ts fields rest)
    (hlen : r.length ≤ rest.length) : ReadsOn t r (ReadsAs parseFields us fields) rest := by
  obtain ⟨fields, closing⟩ := fields
  obtain ⟨u, hread, hu⟩ := (parseFields_iff.1 hp).inserted ht h hlen
  exact ⟨u, hread.reads, hu⟩

theorem VisibilityReading.inserted (h : Inserted t r ts us) {visibility : Option Span}
    (hp : VisibilityReading visibility ts rest) (hlen : r.length ≤ rest.length) :
    ReadsOn t r (VisibilityReading visibility us) rest := by
  cases visibility with
  | none =>
    obtain rfl : rest = ts := hp
    exact ⟨us, rfl, h⟩
  | some word => exact takeKeyword_inserted h hp hlen

@[grind →]
theorem SignatureReading.length_lt {keyword : Span} {name : Ident}
    {parameters : List Parameter × Span} {returnType : Option TypeClause}
    (h : SignatureReading keyword name parameters returnType ts rest) :
    rest.length < ts.length := by
  obtain ⟨r₁, r₂, r₃, hkeyword, hname, hparameters, htype⟩ := h
  have hle := htype.length_le
  grind

theorem SignatureReading.inserted (ht : t.kind = .sign .semicolon) (h : Inserted t r ts us)
    {keyword : Span} {name : Ident} {parameters : List Parameter × Span}
    {returnType : Option TypeClause}
    (hp : SignatureReading keyword name parameters returnType ts rest)
    (hlen : r.length ≤ rest.length) :
    ReadsOn t r (SignatureReading keyword name parameters returnType us) rest := by
  obtain ⟨r₁, r₂, r₃, hkeyword, hname, hparameters, htype⟩ := hp
  have hle := htype.length_le
  obtain ⟨u₁, hkeyword', h₁⟩ := takeKeyword_inserted h hkeyword (by grind)
  obtain ⟨u₂, hname', h₂⟩ := takeIdent_inserted h₁ hname (by grind)
  obtain ⟨u₃, hparameters', h₃⟩ := parseParameterList_inserted ht h₂ hparameters (by grind)
  obtain ⟨u₄, htype', h₄⟩ := parseOptionalTypeClause_inserted ht h₃ htype hlen
  exact ⟨u₄, ⟨u₁, u₂, u₃, hkeyword', hname', hparameters', htype'⟩, h₄⟩

theorem DirectiveReading.inserted (ht : t.kind = .sign .semicolon) (h : Inserted t r ts us)
    {word : Keyword} {keyword : Span} {name : Ident}
    (hp : DirectiveReading word keyword name ts rest) (hlen : r.length ≤ rest.length) :
    ReadsOn t r (DirectiveReading word keyword name us) rest := by
  obtain ⟨r₁, r₂, _, hkeyword, hname, hsemicolon⟩ := hp
  have hle := hsemicolon.length_le
  obtain ⟨u₁, hkeyword', h₁⟩ := takeKeyword_inserted h hkeyword (by grind)
  obtain ⟨u₂, hname', h₂⟩ := takeIdent_inserted h₁ hname (by grind)
  obtain ⟨found, u₃, hsemicolon', h₃⟩ := takeSemicolon_inserted ht h₂ hsemicolon hlen
  exact ⟨u₃, ⟨u₁, u₂, found, hkeyword', hname', hsemicolon'⟩, h₃⟩

theorem StatementAhead.inserted (ht : t.kind = .sign .semicolon) (h : Inserted t r ts us)
    (hlt : r.length < ts.length) (hahead : StatementAhead ts) : StatementAhead us := by
  obtain ⟨hwords, hset⟩ := hahead
  rw [StatementAhead, h.nextKind_eq hlt]
  exact ⟨hwords, fun hkind => h.kindAt_ne hlt (by simp [ht]) (hset hkind)⟩

theorem parseMember_inserted (ht : t.kind = .sign .semicolon) (h : Inserted t r ts us)
    {member : Member} (hp : ReadsAs parseMember ts member rest) (hlen : r.length ≤ rest.length) :
    ReadsOn t r (ReadsAs parseMember us member) rest := by
  have hlt := hp.length_lt
  suffices hread : ReadsOn t r (MemberReading member us) rest by
    obtain ⟨u, hread, hu⟩ := hread
    exact ⟨u, hread.reads, hu⟩
  have hreading := parseMember_iff.1 hp
  cases member with
  | statement s =>
    obtain ⟨hahead, hstatement⟩ := hreading
    obtain ⟨u₁, hstatement', h₁⟩ := parseStatement_inserted ht h hstatement hlen
    exact ⟨u₁, ⟨hahead.inserted ht h (by omega), hstatement'⟩, h₁⟩
  | function f =>
    obtain ⟨r₁, r₂, closing, hvisible, hsignature, hbody⟩ := hreading
    obtain ⟨u₁, hvisible', h₁⟩ := hvisible.inserted h (by grind)
    obtain ⟨u₂, hsignature', h₂⟩ := hsignature.inserted ht h₁ (by grind)
    obtain ⟨u₃, hbody', h₃⟩ := parseBlock_inserted ht h₂ hbody hlen
    exact ⟨u₃, ⟨u₁, u₂, closing, hvisible', hsignature', hbody'⟩, h₃⟩
  | external e =>
    obtain ⟨r₁, r₂, keyword, _, hkeyword, hsignature, hsemicolon⟩ := hreading
    have hle := hsemicolon.length_le
    obtain ⟨u₁, hkeyword', h₁⟩ := takeKeyword_inserted h hkeyword (by grind)
    obtain ⟨u₂, hsignature', h₂⟩ := hsignature.inserted ht h₁ (by grind)
    obtain ⟨found, u₃, hsemicolon', h₃⟩ := takeSemicolon_inserted ht h₂ hsemicolon hlen
    exact ⟨u₃, ⟨u₁, u₂, keyword, found, hkeyword', hsignature', hsemicolon'⟩, h₃⟩
  | struct d =>
    obtain ⟨r₁, r₂, r₃, r₄, opening, _, hkeyword, hname, hopening, hfields, hsemicolon⟩ :=
      hreading
    have hle := hsemicolon.length_le
    obtain ⟨u₁, hkeyword', h₁⟩ := takeKeyword_inserted h hkeyword (by grind)
    obtain ⟨u₂, hname', h₂⟩ := takeIdent_inserted h₁ hname (by grind)
    obtain ⟨u₃, hopening', h₃⟩ := takeSign_inserted h₂ hopening (by grind)
    obtain ⟨u₄, hfields', h₄⟩ := parseFields_inserted ht h₃ hfields (by grind)
    obtain ⟨found, u₅, hsemicolon', h₅⟩ := takeSemicolon_inserted ht h₄ hsemicolon hlen
    exact ⟨u₅, ⟨u₁, u₂, u₃, u₄, opening, found, hkeyword', hname', hopening', hfields',
      hsemicolon'⟩, h₅⟩
  | packageReference keyword name => exact DirectiveReading.inserted ht h hreading hlen
  | packageUse keyword name => exact DirectiveReading.inserted ht h hreading hlen

end

end TodLang
