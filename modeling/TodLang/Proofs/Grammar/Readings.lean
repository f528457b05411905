import TodLang.Proofs.Grammar.PartReadings
/-!
What reading a statement or a member comes to. Its form says which readers read it, one behind the
other. So for each form there is a proposition on the tokens that are read and those that are left,
and it holds just if the reader gives what was read and leaves these tokens.
-/

namespace TodLang

/-! ### Statements -/

/-- How a keyword and the condition behind it are read. -/
def ConditionalReading (word : Keyword) (keyword : Span) (condition : Expression)
    (ts rest : List Token) : Prop :=
  ∃ r₁, ReadsAs (takeKeyword word) ts keyword r₁ ∧ ReadsAs parseCondition r₁ condition rest

/-- How a loop with a declaration is read up to its step. -/
def LoopReading (keyword : Span) (init : VariableDeclaration) (condition : Expression)
    (ts rest : List Token) : Prop :=
  ∃ r₁ r₂ r₃ r₄ r₅, ∃ opening first second, ReadsAs (takeKeyword .forWord) ts keyword r₁ ∧
    ReadsAs (takeSign .lparen) r₁ opening r₂ ∧ ReadsAs parseVariableDeclaration r₂ init r₃ ∧
    ReadsAs (takeSign .semicolon) r₃ first r₄ ∧ ReadsAs parseExpression r₄ condition r₅ ∧
    ReadsAs (takeSign .semicolon) r₅ second rest

/-- How the statements between two braces are read. -/
def BracedReading (opening : Span) (ss : List Statement) (closing : Span)
    (ts rest : List Token) : Prop :=
  ∃ r₁, ReadsAs (takeSign .lbrace) ts opening r₁ ∧ ReadsAs parseStatements r₁ (ss, closing) rest

/-- What comes next begins no other statement than an expression. -/
def ExpressionAhead (ts : List Token) : Prop :=
  nextKind ts ≠ some (.sign .lbrace) ∧
    ∀ word ∈ [Keyword.varWord, .setWord, .ifWord, .returnWord, .forWord, .whileWord, .breakWord,
      .continueWord], nextKind ts ≠ some (.keyword word)

/-- How a statement is read without the semicolon behind it. -/
def BareReading (s : Statement) (ts rest : List Token) : Prop :=
  match s with
  | .declaration d => ReadsAs parseVariableDeclaration ts d rest
  | .block opening ss closing => BracedReading opening ss closing ts rest
  | .ifThen keyword condition body => ∃ r₁, ConditionalReading .ifWord keyword condition ts r₁ ∧
      ReadsAs parseStatement r₁ body rest ∧ nextKind rest ≠ some (.keyword .elseWord)
  | .ifElse keyword condition body elseKeyword alternative => ∃ r₁ r₂ r₃,
      ConditionalReading .ifWord keyword condition ts r₁ ∧ ReadsAs parseStatement r₁ body r₂ ∧
      ReadsAs (takeKeyword .elseWord) r₂ elseKeyword r₃ ∧
      ReadsAs parseStatement r₃ alternative rest
  | .return keyword value => ∃ r₁, ReadsAs (takeKeyword .returnWord) ts keyword r₁ ∧
      ReadsAs parseReturnValue r₁ value rest
  | .for keyword init condition step body => ∃ r₁ r₂ r₃, ∃ closing,
      LoopReading keyword init condition ts r₁ ∧ ReadsAs parseStatement r₁ step r₂ ∧
      ReadsAs (takeSign .rparen) r₂ closing r₃ ∧ ReadsAs parseStatement r₃ body rest
  | .while keyword condition body => ∃ r₁,
      ConditionalReading .whileWord keyword condition ts r₁ ∧ ReadsAs parseStatement r₁ body rest
  | .break keyword => ReadsAs (takeKeyword .breakWord) ts keyword rest
  | .continue keyword => ReadsAs (takeKeyword .continueWord) ts keyword rest
  | .expression e => ExpressionAhead ts ∧ ReadsAs parseExpression ts e rest

/-- How the statements in front of a closing brace are read, and the brace. -/
def StatementsReading (ss : List Statement) (closing : Span) (ts rest : List Token) : Prop :=
  match ss with
  | [] => ReadsAs (takeSign .rbrace) ts closing rest
  | s :: others => nextKind ts ≠ some (.sign .rbrace) ∧ ∃ r₁, ReadsAs parseStatement ts s r₁ ∧
      ReadsAs parseStatements r₁ (others, closing) rest

section

variable {ts rest : List Token} {s : Statement}

theorem ConditionalReading.nextKind_eq {word : Keyword} {keyword : Span} {condition : Expression}
    (h : ConditionalReading word keyword condition ts rest) :
    nextKind ts = some (.keyword word) := by
  obtain ⟨_, hkeyword, -⟩ := h
  exact hkeyword.nextKind_keyword

theorem LoopReading.nextKind_eq {keyword : Span} {init : VariableDeclaration}
    {condition : Expression} (h : LoopReading keyword init condition ts rest) :
    nextKind ts = some (.keyword .forWord) := by
  obtain ⟨_, _, _, _, _, _, _, _, hkeyword, -⟩ := h
  exact hkeyword.nextKind_keyword

/-- What comes next begins an expression still if it is of the same kind. -/
theorem ExpressionAhead.of_nextKind_eq {us : List Token} (h : ExpressionAhead ts)
    (heq : nextKind us = nextKind ts) : ExpressionAhead us := by
  unfold ExpressionAhead
  rw [heq]
  exact h

theorem ReadsAs.nextKind_declaration {d : VariableDeclaration}
    (h : ReadsAs parseVariableDeclaration ts d rest) :
    nextKind ts = some (.keyword (VariableDeclaration.keywordOf d.readOnly)) := by
  obtain ⟨_, _, _, hword, -⟩ := parseVariableDeclaration_iff.1 h
  exact hword.nextKind_keyword

theorem parseBareStatement_reading (h : ReadsAs parseBareStatement ts s rest) :
    BareReading s ts rest := by
  rw [ReadsAs, parseBareStatement] at h
  split at h
  · obtain ⟨d, r₁, _, hdeclaration, h⟩ := h.of_bind
    obtain ⟨rfl, rfl⟩ := h.of_return
    exact hdeclaration
  · obtain ⟨d, r₁, _, hdeclaration, h⟩ := h.of_bind
    obtain ⟨rfl, rfl⟩ := h.of_return
    exact hdeclaration
  · obtain ⟨opening, r₁, _, hopening, h⟩ := h.of_bind
    obtain ⟨⟨ss, closing⟩, r₂, _, _, hstatements, h⟩ := h.of_bind_after
    obtain ⟨rfl, rfl⟩ := h.of_return
    exact ⟨r₁, hopening, hstatements⟩
  · obtain ⟨keyword, r₁, _, hkeyword, h⟩ := h.of_bind
    obtain ⟨condition, r₂, _, _, hcondition, h⟩ := h.of_bind_after
    obtain ⟨body, r₃, _, _, hbody, h⟩ := h.of_bind_after
    dsimp only at h
    split at h
    · next elseToken r₄ _ hfound =>
      obtain ⟨alternative, r₅, _, _, halternative, h⟩ := h.of_bind_after
      obtain ⟨rfl, rfl⟩ := h.of_return
      obtain ⟨rfl, helse⟩ := eq_cons_of_acceptAfter? hfound
      exact ⟨r₂, _, r₄, ⟨r₁, hkeyword, hcondition⟩, hbody, takeKeyword_of_kind helse,
        halternative⟩
    · next hnone =>
      obtain ⟨rfl, rfl⟩ := h.of_return
      exact ⟨r₂, ⟨r₁, hkeyword, hcondition⟩, hbody, nextKind_of_acceptAfter? hnone⟩
  · obtain ⟨keyword, r₁, _, hkeyword, h⟩ := h.of_bind
    obtain ⟨value, r₂, _, _, hvalue, h⟩ := h.of_bind_afterOptional
    obtain ⟨rfl, rfl⟩ := h.of_return
    exact ⟨r₁, hkeyword, hvalue⟩
  · obtain ⟨keyword, r₁, _, hkeyword, h⟩ := h.of_bind
    obtain ⟨opening, r₂, _, _, hopening, h⟩ := h.of_bind_after
    obtain ⟨init, r₃, _, _, hinit, h⟩ := h.of_bind_after
    obtain ⟨first, r₄, _, _, hfirst, h⟩ := h.of_bind_after
    obtain ⟨condition, r₅, _, _, hcondition, h⟩ := h.of_bind_after
    obtain ⟨second, r₆, _, _, hsecond, h⟩ := h.of_bind_after
    obtain ⟨step, r₇, _, _, hstep, h⟩ := h.of_bind_after
    obtain ⟨closing, r₈, _, _, hclosing, h⟩ := h.of_bind_after
    obtain ⟨body, r₉, _, _, hbody, h⟩ := h.of_bind_after
    obtain ⟨rfl, rfl⟩ := h.of_return
    have hloop : LoopReading keyword init condition ts r₆ :=
      ⟨r₁, r₂, r₃, r₄, r₅, opening, first, second, hkeyword, hopening, hinit, hfirst, hcondition,
        hsecond⟩
    exact ⟨r₆, r₇, r₈, closing, hloop, hstep, hclosing, hbody⟩
  · obtain ⟨keyword, r₁, _, hkeyword, h⟩ := h.of_bind
    obtain ⟨condition, r₂, _, _, hcondition, h⟩ := h.of_bind_after
    obtain ⟨body, r₃, _, _, hbody, h⟩ := h.of_bind_after
    obtain ⟨rfl, rfl⟩ := h.of_return
    exact ⟨r₂, ⟨r₁, hkeyword, hcondition⟩, hbody⟩
  · obtain ⟨keyword, r₁, _, hkeyword, h⟩ := h.of_bind
    obtain ⟨rfl, rfl⟩ := h.of_return
    exact hkeyword
  · obtain ⟨keyword, r₁, _, hkeyword, h⟩ := h.of_bind
    obtain ⟨rfl, rfl⟩ := h.of_return
    exact hkeyword
  · obtain ⟨e, r₁, _, hexpression, h⟩ := h.of_bind
    obtain ⟨rfl, rfl⟩ := h.of_return
    refine ⟨⟨?_, ?_⟩, hexpression⟩ <;> simp_all

theorem BareReading.reads (h : BareReading s ts rest) : ReadsAs parseBareStatement ts s rest := by
  rw [ReadsAs, parseBareStatement]
  cases s with
  | declaration d =>
    have hread : ReadsAs parseVariableDeclaration ts d rest := h
    rw [hread.nextKind_declaration, VariableDeclaration.keywordOf]
    cases d.readOnly with
    | false | true =>
      refine hread.bind fun _ => ?_
      exact gives_return
  | block opening ss closing =>
    obtain ⟨_, hopening, hstatements⟩ := h
    rw [hopening.nextKind_sign]
    refine hopening.bind fun _ => ?_
    refine hstatements.after.bind fun _ => ?_
    exact gives_return
  | ifThen keyword condition body =>
    obtain ⟨_, ⟨_, hkeyword, hcondition⟩, hbody, helse⟩ := h
    rw [hkeyword.nextKind_keyword]
    refine hkeyword.bind fun _ => ?_
    refine hcondition.after.bind fun _ => ?_
    refine hbody.after.bind fun _ => ?_
    dsimp only
    rw [acceptAfter?_eq_none helse]
    exact gives_return
  | ifElse keyword condition body elseKeyword alternative =>
    obtain ⟨_, _, _, ⟨_, hkeyword, hcondition⟩, hbody, helse, halternative⟩ := h
    rw [hkeyword.nextKind_keyword]
    refine hkeyword.bind fun _ => ?_
    refine hcondition.after.bind fun _ => ?_
    obtain ⟨_, rfl, hkind, rfl⟩ := takeKeyword_iff.1 helse
    refine hbody.after.bind fun hlt => ?_
    obtain ⟨_, hfound⟩ := acceptAfter?_of_kind hlt hkind
    dsimp only
    rw [hfound]
    refine halternative.after.bind fun _ => ?_
    exact gives_return
  | «return» keyword value =>
    obtain ⟨_, hkeyword, hvalue⟩ := h
    rw [hkeyword.nextKind_keyword]
    refine hkeyword.bind fun _ => ?_
    refine hvalue.afterOptional.bind fun _ => ?_
    exact gives_return
  | «for» keyword init condition step body =>
    obtain ⟨_, _, _, _, hloop, hstep, hclosing, hbody⟩ := h
    obtain ⟨_, _, _, _, _, _, _, _, hkeyword, hopening, hinit, hfirst, hcondition, hsecond⟩ := hloop
    rw [hkeyword.nextKind_keyword]
    refine hkeyword.bind fun _ => ?_
    refine hopening.after.bind fun _ => ?_
    refine hinit.after.bind fun _ => ?_
    refine hfirst.after.bind fun _ => ?_
    refine hcondition.after.bind fun _ => ?_
    refine hsecond.after.bind fun _ => ?_
    refine hstep.after.bind fun _ => ?_
    refine hclosing.after.bind fun _ => ?_
    refine hbody.after.bind fun _ => ?_
    exact gives_return
  | «while» keyword condition body =>
    obtain ⟨_, ⟨_, hkeyword, hcondition⟩, hbody⟩ := h
    rw [hkeyword.nextKind_keyword]
    refine hkeyword.bind fun _ => ?_
    refine hcondition.after.bind fun _ => ?_
    refine hbody.after.bind fun _ => ?_
    exact gives_return
  | «break» keyword =>
    have hkeyword : ReadsAs (takeKeyword .breakWord) ts keyword rest := h
    rw [hkeyword.nextKind_keyword]
    refine hkeyword.bind fun _ => ?_
    exact gives_return
  | «continue» keyword =>
    have hkeyword : ReadsAs (takeKeyword .continueWord) ts keyword rest := h
    rw [hkeyword.nextKind_keyword]
    refine hkeyword.bind fun _ => ?_
    exact gives_return
  | expression e =>
    obtain ⟨⟨hbrace, hwords⟩, hexpression⟩ := h
    split
    case h_3 hkind => exact absurd hkind hbrace
    case h_10 =>
      refine hexpression.bind fun _ => ?_
      exact gives_return
    all_goals exact absurd ‹nextKind ts = some _› (hwords _ (by simp))

/-- A statement without the semicolon behind it is read just as its form says. -/
theorem parseBareStatement_iff : ReadsAs parseBareStatement ts s rest ↔ BareReading s ts rest :=
  ⟨parseBareStatement_reading, BareReading.reads⟩

theorem parseStatement_iff :
    ReadsAs parseStatement ts s rest ↔ ∃ r₁ found, ReadsAs parseBareStatement ts s r₁ ∧
      ReadsAs (takeOptional (.sign .semicolon)) r₁ found rest := by
  rw [ReadsAs, parseStatement]
  constructor
  · intro h
    obtain ⟨s, r₁, _, hbare, h⟩ := h.of_bind
    obtain ⟨found, r₂, _, _, hsemicolon, h⟩ := h.of_bind_afterOptional
    obtain ⟨rfl, rfl⟩ := h.of_return
    exact ⟨r₁, found, hbare, hsemicolon⟩
  · rintro ⟨r₁, found, hbare, hsemicolon⟩
    refine hbare.bind fun _ => ?_
    refine hsemicolon.afterOptional.bind fun _ => ?_
    exact gives_return

theorem parseStatements_reading {ss : List Statement} {closing : Span}
    (h : ReadsAs parseStatements ts (ss, closing) rest) : StatementsReading ss closing ts rest := by
  rw [ReadsAs, parseStatements] at h
  split at h
  · next c r₁ _ hfound =>
    obtain ⟨heq, rfl⟩ := h.of_return
    cases heq
    obtain ⟨hts, hkind⟩ := accept?_eq_some hfound
    rw [StatementsReading, hts]
    exact takeSign_of_kind hkind
  · next hnone =>
    split at h
    · obtain ⟨_, h⟩ := h
      cases h
    · obtain ⟨s, r₁, _, hfirst, h⟩ := h.of_bind
      obtain ⟨⟨others, closing⟩, r₂, _, _, hothers, h⟩ := h.of_bind_after
      obtain ⟨heq, rfl⟩ := h.of_return
      cases heq
      exact ⟨accept?_eq_none_iff.1 hnone, r₁, hfirst, hothers⟩

theorem StatementsReading.reads {ss : List Statement} {closing : Span}
    (h : StatementsReading ss closing ts rest) :
    ReadsAs parseStatements ts (ss, closing) rest := by
  rw [ReadsAs, parseStatements]
  cases ss with
  | nil =>
    obtain ⟨_, rfl, hkind, rfl⟩ := takeSign_iff.1 h
    rw [accept?_of_kind hkind]
    exact gives_return
  | cons s others =>
    obtain ⟨hbrace, _, hfirst, hothers⟩ := h
    rw [accept?_eq_none_iff.2 hbrace]
    rw [if_neg hfirst.isEmpty_eq_false]
    refine hfirst.bind fun _ => ?_
    refine hothers.after.bind fun _ => ?_
    exact gives_return

theorem parseStatements_iff {ss : List Statement} {closing : Span} :
    ReadsAs parseStatements ts (ss, closing) rest ↔ StatementsReading ss closing ts rest :=
  ⟨parseStatements_reading, StatementsReading.reads⟩

theorem parseBlock_iff {opening closing : Span} {ss : List Statement} :
    ReadsAs parseBlock ts ⟨opening, ss, closing⟩ rest ↔
      BracedReading opening ss closing ts rest := by
  unfold ReadsAs parseBlock
  constructor
  · intro h
    obtain ⟨opening, r₁, _, hopening, h⟩ := h.of_bind
    obtain ⟨⟨ss, closing⟩, r₂, _, _, hstatements, h⟩ := h.of_bind_after
    obtain ⟨heq, rfl⟩ := h.of_return
    cases heq
    exact ⟨r₁, hopening, hstatements⟩
  · rintro ⟨r₁, hopening, hstatements⟩
    refine hopening.bind fun _ => ?_
    refine hstatements.after.bind fun _ => ?_
    exact gives_return

end

/-! ### Members -/

/-- How the word that makes a function visible is read, if it is there. -/
def VisibilityReading (visibility : Option Span) (ts rest : List Token) : Prop :=
  match visibility with
  | none => rest = ts
  | some word => ReadsAs (takeKeyword .setWord) ts word rest

/-- How a function is read up to its body. -/
def SignatureReading (keyword : Span) (name : Ident) (parameters : List Parameter × Span)
    (returnType : Option TypeClause) (ts rest : List Token) : Prop :=
  ∃ r₁ r₂ r₃, ReadsAs (takeKeyword .fnWord) ts keyword r₁ ∧ ReadsAs takeIdent r₁ name r₂ ∧
    ReadsAs parseParameterList r₂ parameters r₃ ∧
    ReadsAs parseOptionalTypeClause r₃ returnType rest

/-- How a keyword and a name are read, with the semicolon behind them if there is one. -/
def DirectiveReading (word : Keyword) (keyword : Span) (name : Ident) (ts rest : List Token) :
    Prop :=
  ∃ r₁ r₂ found, ReadsAs (takeKeyword word) ts keyword r₁ ∧ ReadsAs takeIdent r₁ name r₂ ∧
    ReadsAs (takeOptional (.sign .semicolon)) r₂ found rest

/-- What comes next begins no other member than a statement. -/
def StatementAhead (ts : List Token) : Prop :=
  (∀ word ∈ [Keyword.fnWord, .externalWord, .structWord, .packageWord, .usingWord],
    nextKind ts ≠ some (.keyword word)) ∧
  (nextKind ts = some (.keyword .setWord) → kindAt ts 1 ≠ some (.keyword .fnWord))

/-- How a member is read. -/
def MemberReading (member : Member) (ts rest : List Token) : Prop :=
  match member with
  | .statement s => StatementAhead ts ∧ ReadsAs parseStatement ts s rest
  | .function f => ∃ r₁ r₂ closing, VisibilityReading f.visibility ts r₁ ∧
      SignatureReading f.keyword f.name (f.parameters, closing) f.returnType r₁ r₂ ∧
      ReadsAs parseBlock r₂ f.body rest
  | .external e => ∃ r₁ r₂ keyword found, ReadsAs (takeKeyword .externalWord) ts e.keyword r₁ ∧
      SignatureReading keyword e.name (e.parameters, e.closing) e.returnType r₁ r₂ ∧
      ReadsAs (takeOptional (.sign .semicolon)) r₂ found rest
  | .struct d => ∃ r₁ r₂ r₃ r₄ opening found, ReadsAs (takeKeyword .structWord) ts d.keyword r₁ ∧
      ReadsAs takeIdent r₁ d.name r₂ ∧ ReadsAs (takeSign .lbrace) r₂ opening r₃ ∧
      ReadsAs parseFields r₃ (d.fields, d.closing) r₄ ∧
      ReadsAs (takeOptional (.sign .semicolon)) r₄ found rest
  | .packageReference keyword name => DirectiveReading .packageWord keyword name ts rest
  | .packageUse keyword name => DirectiveReading .usingWord keyword name ts rest

section

variable {ts rest r₁ : List Token} {member : Member}

theorem parseFunction_reading {visibility : Option Span}
    (h : ReadsAs (parseFunction visibility) ts member rest) :
    ∃ keyword name parameters closing returnType body r₁,
      member = .function ⟨visibility, keyword, name, parameters, returnType, body⟩ ∧
      SignatureReading keyword name (parameters, closing) returnType ts r₁ ∧
      ReadsAs parseBlock r₁ body rest := by
  unfold ReadsAs parseFunction at h
  obtain ⟨keyword, r₁, _, hkeyword, h⟩ := h.of_bind
  obtain ⟨name, r₂, _, _, hname, h⟩ := h.of_bind_after
  obtain ⟨⟨parameters, closing⟩, r₃, _, _, hparameters, h⟩ := h.of_bind_after
  obtain ⟨returnType, r₄, _, _, htype, h⟩ := h.of_bind_afterOptional
  obtain ⟨body, r₅, _, _, hbody, h⟩ := h.of_bind_after
  obtain ⟨rfl, rfl⟩ := h.of_return
  exact ⟨keyword, name, parameters, closing, returnType, body, r₄, rfl,
    ⟨r₁, r₂, r₃, hkeyword, hname, hparameters, htype⟩, hbody⟩

theorem parseExternal_reading (h : ReadsAs parseExternal ts member rest) :
    MemberReading member ts rest := by
  unfold ReadsAs parseExternal at h
  obtain ⟨keyword, r₁, _, hkeyword, h⟩ := h.of_bind
  obtain ⟨second, r₂, _, _, hsecond, h⟩ := h.of_bind_after
  obtain ⟨name, r₃, _, _, hname, h⟩ := h.of_bind_after
  obtain ⟨⟨parameters, closing⟩, r₄, _, _, hparameters, h⟩ := h.of_bind_after
  obtain ⟨returnType, r₅, _, _, htype, h⟩ := h.of_bind_afterOptional
  obtain ⟨found, r₆, _, _, hsemicolon, h⟩ := h.of_bind_afterOptional
  obtain ⟨rfl, rfl⟩ := h.of_return
  exact ⟨r₁, r₅, second, found, hkeyword, ⟨r₂, r₃, r₄, hsecond, hname, hparameters, htype⟩,
    hsemicolon⟩

theorem parseStruct_reading (h : ReadsAs parseStruct ts member rest) :
    MemberReading member ts rest := by
  unfold ReadsAs parseStruct at h
  obtain ⟨keyword, r₁, _, hkeyword, h⟩ := h.of_bind
  obtain ⟨name, r₂, _, _, hname, h⟩ := h.of_bind_after
  obtain ⟨opening, r₃, _, _, hopening, h⟩ := h.of_bind_after
  obtain ⟨⟨fields, closing⟩, r₄, _, _, hfields, h⟩ := h.of_bind_after
  obtain ⟨found, r₅, _, _, hsemicolon, h⟩ := h.of_bind_afterOptional
  obtain ⟨rfl, rfl⟩ := h.of_return
  exact ⟨r₁, r₂, r₃, r₄, opening, found, hkeyword, hname, hopening, hfields, hsemicolon⟩

theorem parseDirective_reading {word : Keyword} {make : Span → Ident → Member}
    (h : ReadsAs (parseDirective word make) ts member rest) :
    ∃ keyword name, member = make keyword name ∧ DirectiveReading word keyword name ts rest := by
  unfold ReadsAs parseDirective at h
  obtain ⟨keyword, r₁, _, hkeyword, h⟩ := h.of_bind
  obtain ⟨name, r₂, _, _, hname, h⟩ := h.of_bind_after
  obtain ⟨found, r₃, _, _, hsemicolon, h⟩ := h.of_bind_afterOptional
  obtain ⟨rfl, rfl⟩ := h.of_return
  exact ⟨keyword, name, rfl, r₁, r₂, found, hkeyword, hname, hsemicolon⟩

theorem parseGlobalStatement_reading (hahead : StatementAhead ts)
    (h : ReadsAs parseGlobalStatement ts member rest) : MemberReading member ts rest := by
  unfold ReadsAs parseGlobalStatement at h
  obtain ⟨s, r₁, _, hstatement, h⟩ := h.of_bind
  obtain ⟨rfl, rfl⟩ := h.of_return
  exact ⟨hahead, hstatement⟩

theorem parseMember_reading (h : ReadsAs parseMember ts member rest) :
    MemberReading member ts rest := by
  unfold ReadsAs parseMember at h
  split at h
  · obtain ⟨keyword, name, parameters, closing, returnType, body, r₁, rfl, hsignature, hbody⟩ :=
      parseFunction_reading h
    exact ⟨ts, r₁, closing, rfl, hsignature, hbody⟩
  · next hkind =>
    split at h
    · obtain ⟨word, r₀, _, hword, h⟩ := h.of_bind
      obtain ⟨keyword, name, parameters, closing, returnType, body, r₁, rfl, hsignature, hbody⟩ :=
        parseFunction_reading h.of_after.2
      exact ⟨r₀, r₁, closing, hword, hsignature, hbody⟩
    · next hsecond =>
      refine parseGlobalStatement_reading ⟨?_, fun _ => hsecond⟩ h
      simp [hkind]
  · exact parseExternal_reading h
  · exact parseStruct_reading h
  · obtain ⟨keyword, name, rfl, hdirective⟩ := parseDirective_reading h
    exact hdirective
  · obtain ⟨keyword, name, rfl, hdirective⟩ := parseDirective_reading h
    exact hdirective
  · refine parseGlobalStatement_reading ⟨?_, ?_⟩ h <;> simp_all

theorem parseFunction_of_signature {visibility : Option Span} {keyword closing : Span}
    {name : Ident} {parameters : List Parameter} {returnType : Option TypeClause} {body : Block}
    (hsignature : SignatureReading keyword name (parameters, closing) returnType ts r₁)
    (hbody : ReadsAs parseBlock r₁ body rest) :
    ReadsAs (parseFunction visibility) ts
      (.function ⟨visibility, keyword, name, parameters, returnType, body⟩) rest := by
  obtain ⟨_, _, _, hkeyword, hname, hparameters, htype⟩ := hsignature
  unfold ReadsAs parseFunction
  refine hkeyword.bind fun _ => ?_
  refine hname.after.bind fun _ => ?_
  refine hparameters.after.bind fun _ => ?_
  refine htype.afterOptional.bind fun _ => ?_
  refine hbody.after.bind fun _ => ?_
  exact gives_return

theorem DirectiveReading.nextKind_eq {word : Keyword} {keyword : Span} {name : Ident}
    (h : DirectiveReading word keyword name ts rest) : nextKind ts = some (.keyword word) := by
  obtain ⟨_, _, _, hkeyword, -⟩ := h
  exact hkeyword.nextKind_keyword

theorem DirectiveReading.reads {word : Keyword} {make : Span → Ident → Member} {keyword : Span}
    {name : Ident} (h : DirectiveReading word keyword name ts rest) :
    ReadsAs (parseDirective word make) ts (make keyword name) rest := by
  obtain ⟨_, _, _, hkeyword, hname, hsemicolon⟩ := h
  unfold ReadsAs parseDirective
  refine hkeyword.bind fun _ => ?_
  refine hname.after.bind fun _ => ?_
  refine hsemicolon.afterOptional.bind fun _ => ?_
  exact gives_return

theorem parseMember_statement {s : Statement} (hahead : StatementAhead ts)
    (h : ReadsAs parseStatement ts s rest) : ReadsAs parseMember ts (.statement s) rest := by
  have hglobal : ReadsAs parseGlobalStatement ts (.statement s) rest := by
    unfold ReadsAs parseGlobalStatement
    refine h.bind fun _ => ?_
    exact gives_return
  obtain ⟨hwords, hset⟩ := hahead
  unfold ReadsAs parseMember
  split
  case h_2 hkind =>
    rw [if_neg (hset hkind)]
    exact hglobal
  case h_7 => exact hglobal
  all_goals exact absurd ‹nextKind ts = some _› (hwords _ (by simp))

theorem SignatureReading.nextKind_eq {keyword : Span} {name : Ident}
    {parameters : List Parameter × Span} {returnType : Option TypeClause}
    (h : SignatureReading keyword name parameters returnType ts rest) :
    nextKind ts = some (.keyword .fnWord) := by
  obtain ⟨_, _, _, hkeyword, -⟩ := h
  exact hkeyword.nextKind_keyword

theorem MemberReading.reads (h : MemberReading member ts rest) :
    ReadsAs parseMember ts member rest := by
  cases member with
  | statement s => exact parseMember_statement h.1 h.2
  | function f =>
    obtain ⟨visibility, keyword, name, parameters, returnType, body⟩ := f
    obtain ⟨r₁, r₂, closing, hvisible, hsignature, hbody⟩ := h
    have hfunction : ReadsAs (parseFunction visibility) r₁ (.function ⟨visibility, keyword, name,
      parameters, returnType, body⟩) rest := parseFunction_of_signature hsignature hbody
    unfold ReadsAs parseMember
    cases visibility with
    | none =>
      obtain rfl : r₁ = ts := hvisible
      rw [hsignature.nextKind_eq]
      exact hfunction
    | some word =>
      have hword : ReadsAs (takeKeyword .setWord) ts word r₁ := hvisible
      have hsecond : kindAt ts 1 = some (.keyword .fnWord) := by
        obtain ⟨_, rfl, -⟩ := takeKeyword_iff.1 hword
        exact hsignature.nextKind_eq
      rw [hword.nextKind_keyword]
      rw [if_pos hsecond]
      refine hword.bind fun _ => ?_
      exact hfunction.after
  | external e =>
    obtain ⟨_, _, _, _, hkeyword, ⟨_, _, _, hsecond, hname, hparameters, htype⟩, hsemicolon⟩ := h
    have hexternal : ReadsAs parseExternal ts (.external e) rest := by
      unfold ReadsAs parseExternal
      refine hkeyword.bind fun _ => ?_
      refine hsecond.after.bind fun _ => ?_
      refine hname.after.bind fun _ => ?_
      refine hparameters.after.bind fun _ => ?_
      refine htype.afterOptional.bind fun _ => ?_
      refine hsemicolon.afterOptional.bind fun _ => ?_
      exact gives_return
    unfold ReadsAs parseMember
    rw [hkeyword.nextKind_keyword]
    exact hexternal
  | struct d =>
    obtain ⟨_, _, _, _, _, _, hkeyword, hname, hopening, hfields, hsemicolon⟩ := h
    have hstruct : ReadsAs parseStruct ts (.struct d) rest := by
      unfold ReadsAs parseStruct
      refine hkeyword.bind fun _ => ?_
      refine hname.after.bind fun _ => ?_
      refine hopening.after.bind fun _ => ?_
      refine hfields.after.bind fun _ => ?_
      refine hsemicolon.afterOptional.bind fun _ => ?_
      exact gives_return
    unfold ReadsAs parseMember
    rw [hkeyword.nextKind_keyword]
    exact hstruct
  | packageReference keyword name =>
    unfold ReadsAs parseMember
    rw [DirectiveReading.nextKind_eq h]
    exact DirectiveReading.reads h
  | packageUse keyword name =>
    unfold ReadsAs parseMember
    rw [DirectiveReading.nextKind_eq h]
    exact DirectiveReading.reads h

/-- A member is read just as its form says. -/
theorem parseMember_iff : ReadsAs parseMember ts member rest ↔ MemberReading member ts rest :=
  ⟨parseMember_reading, MemberReading.reads⟩

theorem parseMembers_nil_iff : parseMembers ts = .ok [] ↔ ts = [] := by
  constructor
  · intro h
    rw [parseMembers] at h
    split at h
    · next hempty => exact List.isEmpty_iff.1 hempty
    · obtain ⟨_, -, h⟩ := bind_ok h
      obtain ⟨_, -, h⟩ := bind_ok h
      cases h
  · rintro rfl
    rw [parseMembers]
    rfl

theorem parseMembers_cons_iff {others : List Member} :
    parseMembers ts = .ok (member :: others) ↔
      ∃ r₁, ReadsAs parseMember ts member r₁ ∧ parseMembers r₁ = .ok others := by
  constructor
  · intro h
    rw [parseMembers] at h
    split at h
    · cases h
    · obtain ⟨p, hfirst, h⟩ := bind_ok h
      obtain ⟨others, hothers, h⟩ := bind_ok h
      cases h
      exact ⟨p.rest, ⟨p.shorter, hfirst⟩, hothers⟩
  · rintro ⟨r₁, hfirst, hothers⟩
    have hempty := hfirst.isEmpty_eq_false
    obtain ⟨_, hfirst⟩ := hfirst
    rw [parseMembers, if_neg hempty, hfirst]
    dsimp only [Bind.bind, Except.bind]
    rw [hothers]
    rfl

end

end TodLang
