import TodLang.Proofs.Grammar.Expression
import TodLang.Proofs.Grammar.Readings
/-!
What a reader of statements or members has gone over spells what it gives, and a program that can be
read is spelled by all of its tokens. The main result is `parseProgram_sound`.
-/

namespace TodLang

section

variable {ts rest : List Token}

/-! ### Parts of statements -/

theorem OptionalReading.spells {α : Type} {present : Prop} {spells : α → List Token → Prop}
    {reader : (tokens : List Token) → Parse α tokens.length} {value : Option α}
    (h : OptionalReading present reader value ts rest)
    (hspells : ∀ {a}, ReadsAs reader ts a rest → ∃ front, ts = front ++ rest ∧ spells a front) :
    ∃ front, ts = front ++ rest ∧ Optionally spells value front := by
  cases value with
  | none =>
    obtain ⟨-, rfl⟩ := h
    exact ⟨[], rfl, .missing⟩
  | some value =>
    obtain ⟨front, heq, hvalue⟩ := hspells h.2
    exact ⟨front, heq, .present hvalue⟩

theorem parseOptionalTypeClause_spells {type : Option TypeClause}
    (h : ReadsAs parseOptionalTypeClause ts type rest) :
    ∃ front, ts = front ++ rest ∧ Optionally TypeSpelling type front :=
  (parseOptionalTypeClause_iff.1 h).spells parseTypeClause_spells

theorem parseReturnValue_spells {value : Option Expression}
    (h : ReadsAs parseReturnValue ts value rest) :
    ∃ front, ts = front ++ rest ∧ Optionally ExpressionSpelling value front :=
  (parseReturnValue_iff.1 h).spells parseExpression_spells

theorem InitialValueReading.spells {value : Option Expression}
    (h : InitialValueReading value ts rest) :
    ∃ front, ts = front ++ rest ∧ Optionally InitialSpelling value front := by
  cases value with
  | none =>
    obtain ⟨-, rfl⟩ := h
    exact ⟨[], rfl, .missing⟩
  | some value =>
    obtain ⟨_, _, hsign, hvalue⟩ := h
    obtain ⟨sign, heq₁, hsign⟩ := takeSign_spells hsign
    obtain ⟨back, heq₂, hvalue⟩ := parseExpression_spells hvalue
    refine ⟨_, ?_, .present (.intro hsign.fixed hvalue)⟩
    simp [heq₁, heq₂]

theorem Marks.variableWord {readOnly : Bool} {keyword : Span} {front : List Token}
    (h : Marks (.keyword (VariableDeclaration.keywordOf readOnly)) keyword front) :
    VariableWordSpelling (keyword, readOnly) front := by
  cases readOnly with
  | false => exact .var h
  | true => exact .set h

theorem parseVariableDeclaration_spells {d : VariableDeclaration}
    (h : ReadsAs parseVariableDeclaration ts d rest) :
    ∃ front, ts = front ++ rest ∧ DeclarationSpelling d front := by
  obtain ⟨_, _, _, hword, htype, hname, hvalue⟩ := parseVariableDeclaration_iff.1 h
  obtain ⟨word, heq₁, hword⟩ := takeKeyword_spells hword
  obtain ⟨clause, heq₂, htype⟩ := htype.spells parseTypeClause_spells
  obtain ⟨front, heq₃, hname⟩ := takeIdent_spells hname
  obtain ⟨back, heq₄, hvalue⟩ := hvalue.spells
  refine ⟨_, ?_, .intro hword.variableWord htype hname hvalue⟩
  simp [heq₁, heq₂, heq₃, heq₄]

theorem parseCondition_spells {condition : Expression}
    (h : ReadsAs parseCondition ts condition rest) :
    ∃ front, ts = front ++ rest ∧ ConditionSpelling condition front := by
  obtain ⟨_, _, _, _, hopening, hcondition, hclosing⟩ := parseCondition_iff.1 h
  obtain ⟨opened, heq₁, hopening⟩ := takeSign_spells hopening
  obtain ⟨inside, heq₂, hcondition⟩ := parseExpression_spells hcondition
  obtain ⟨closed, heq₃, hclosing⟩ := takeSign_spells hclosing
  refine ⟨_, ?_, .intro hopening.fixed hcondition hclosing.fixed⟩
  simp [heq₁, heq₂, heq₃]

theorem ConditionalReading.spells {word : Keyword} {keyword : Span} {condition : Expression}
    (h : ConditionalReading word keyword condition ts rest) :
    ∃ front middle, ts = front ++ middle ++ rest ∧ Marks (.keyword word) keyword front ∧
      ConditionSpelling condition middle := by
  obtain ⟨_, hkeyword, hcondition⟩ := h
  obtain ⟨front, heq₁, hkeyword⟩ := takeKeyword_spells hkeyword
  obtain ⟨middle, heq₂, hcondition⟩ := parseCondition_spells hcondition
  exact ⟨front, middle, by simp [heq₁, heq₂], hkeyword, hcondition⟩

/-! ### Statements -/

mutual

theorem parseStatement_spells {ts rest : List Token} {s : Statement}
    (h : ReadsAs parseStatement ts s rest) :
    ∃ front, ts = front ++ rest ∧ StatementSpelling s front := by
  obtain ⟨_, _, hbare, hsemicolon⟩ := parseStatement_iff.1 h
  obtain ⟨front, heq₁, hbare⟩ := parseBareStatement_spells hbare
  obtain ⟨back, heq₂, hsemicolon⟩ := takeOptional_spells hsemicolon
  refine ⟨_, ?_, SpellsStatement.statement hbare hsemicolon⟩
  simp [heq₁, heq₂]
termination_by (sizeOf s, 1)

theorem parseBareStatement_spells {ts rest : List Token} {s : Statement}
    (h : ReadsAs parseBareStatement ts s rest) :
    ∃ front, ts = front ++ rest ∧ SpellsStatement (.bare s) front := by
  rw [parseBareStatement_iff] at h
  cases s with
  | declaration d =>
    obtain ⟨front, heq, hdeclaration⟩ := parseVariableDeclaration_spells h
    exact ⟨front, heq, .declaration hdeclaration⟩
  | block opening ss closing =>
    obtain ⟨_, hopening, hstatements⟩ := h
    obtain ⟨opened, heq₁, hopening⟩ := takeSign_spells hopening
    obtain ⟨_, heq₂, inside, closed, rfl, hstatements, hclosing⟩ :=
      parseStatements_spells hstatements
    refine ⟨_, ?_, .block hopening hstatements hclosing⟩
    simp [heq₁, heq₂]
  | ifThen keyword condition body =>
    obtain ⟨_, hconditional, hbody, -⟩ := h
    obtain ⟨word, front, heq₁, hkeyword, hcondition⟩ := hconditional.spells
    obtain ⟨back, heq₂, hbody⟩ := parseStatement_spells hbody
    refine ⟨_, ?_, .ifThen hkeyword hcondition hbody⟩
    simp [heq₁, heq₂]
  | ifElse keyword condition body elseKeyword alternative =>
    obtain ⟨_, _, _, hconditional, hbody, helse, halternative⟩ := h
    obtain ⟨word, front, heq₁, hkeyword, hcondition⟩ := hconditional.spells
    obtain ⟨middle, heq₂, hbody⟩ := parseStatement_spells hbody
    obtain ⟨otherwise, heq₃, helse⟩ := takeKeyword_spells helse
    obtain ⟨back, heq₄, halternative⟩ := parseStatement_spells halternative
    refine ⟨_, ?_, .ifElse hkeyword hcondition hbody helse halternative⟩
    simp [heq₁, heq₂, heq₃, heq₄]
  | «return» keyword value =>
    obtain ⟨_, hkeyword, hvalue⟩ := h
    obtain ⟨word, heq₁, hkeyword⟩ := takeKeyword_spells hkeyword
    obtain ⟨back, heq₂, hvalue⟩ := parseReturnValue_spells hvalue
    refine ⟨_, ?_, .return hkeyword hvalue⟩
    simp [heq₁, heq₂]
  | «for» keyword init condition step body =>
    obtain ⟨_, _, _, _, hloop, hstep, hclosing, hbody⟩ := h
    obtain ⟨_, _, _, _, _, _, _, _, hkeyword, hopening, hinit, hfirst, hcondition, hsecond⟩ := hloop
    obtain ⟨word, heq₁, hkeyword⟩ := takeKeyword_spells hkeyword
    obtain ⟨opened, heq₂, hopening⟩ := takeSign_spells hopening
    obtain ⟨front, heq₃, hinit⟩ := parseVariableDeclaration_spells hinit
    obtain ⟨first, heq₄, hfirst⟩ := takeSign_spells hfirst
    obtain ⟨middle, heq₅, hcondition⟩ := parseExpression_spells hcondition
    obtain ⟨second, heq₆, hsecond⟩ := takeSign_spells hsecond
    obtain ⟨inside, heq₇, hstep⟩ := parseStatement_spells hstep
    obtain ⟨closed, heq₈, hclosing⟩ := takeSign_spells hclosing
    obtain ⟨back, heq₉, hbody⟩ := parseStatement_spells hbody
    refine ⟨_, ?_, .for hkeyword hopening.fixed hinit hfirst.fixed hcondition hsecond.fixed hstep
      hclosing.fixed hbody⟩
    simp [heq₁, heq₂, heq₃, heq₄, heq₅, heq₆, heq₇, heq₈, heq₉]
  | «while» keyword condition body =>
    obtain ⟨_, hconditional, hbody⟩ := h
    obtain ⟨word, front, heq₁, hkeyword, hcondition⟩ := hconditional.spells
    obtain ⟨back, heq₂, hbody⟩ := parseStatement_spells hbody
    refine ⟨_, ?_, .while hkeyword hcondition hbody⟩
    simp [heq₁, heq₂]
  | «break» keyword =>
    obtain ⟨front, heq, hkeyword⟩ := takeKeyword_spells h
    exact ⟨front, heq, .break hkeyword⟩
  | «continue» keyword =>
    obtain ⟨front, heq, hkeyword⟩ := takeKeyword_spells h
    exact ⟨front, heq, .continue hkeyword⟩
  | expression e =>
    obtain ⟨front, heq, hexpression⟩ := parseExpression_spells h.2
    exact ⟨front, heq, .expression hexpression⟩
termination_by (sizeOf s, 0)

theorem parseStatements_spells {ts rest : List Token} {ss : List Statement} {closing : Span}
    (h : ReadsAs parseStatements ts (ss, closing) rest) :
    ∃ front, ts = front ++ rest ∧
      ClosedBy (.sign .rbrace) (fun ss => SpellsStatement (.statements ss)) (ss, closing)
        front := by
  rw [parseStatements_iff] at h
  cases ss with
  | nil =>
    obtain ⟨closed, heq, hclosing⟩ := takeSign_spells h
    exact ⟨closed, heq, [], closed, rfl, .none, hclosing⟩
  | cons s others =>
    obtain ⟨-, _, hfirst, hothers⟩ := h
    obtain ⟨front, heq₁, hfirst⟩ := parseStatement_spells hfirst
    obtain ⟨_, heq₂, inside, closed, rfl, hothers, hclosing⟩ := parseStatements_spells hothers
    refine ⟨_, ?_, _, closed, rfl, .cons hfirst hothers, hclosing⟩
    simp [heq₁, heq₂]
termination_by (sizeOf ss, 0)

end

theorem parseBlock_spells {b : Block} (h : ReadsAs parseBlock ts b rest) :
    ∃ front, ts = front ++ rest ∧ BlockSpelling b front := by
  obtain ⟨opening, ss, closing⟩ := b
  obtain ⟨_, hopening, hstatements⟩ := parseBlock_iff.1 h
  obtain ⟨opened, heq₁, hopening⟩ := takeSign_spells hopening
  obtain ⟨_, heq₂, inside, closed, rfl, hstatements, hclosing⟩ :=
    parseStatements_spells hstatements
  refine ⟨_, ?_, .intro hopening hstatements hclosing⟩
  simp [heq₁, heq₂]

/-! ### Members -/

theorem parseParameter_spells {p : Parameter} (h : ReadsAs parseParameter ts p rest) :
    ∃ front, ts = front ++ rest ∧ ParameterSpelling p front := by
  obtain ⟨_, hname, htype⟩ := parseParameter_iff.1 h
  obtain ⟨front, heq₁, hname⟩ := takeIdent_spells hname
  obtain ⟨back, heq₂, htype⟩ := parseTypeClause_spells htype
  refine ⟨_, ?_, .intro hname htype⟩
  simp [heq₁, heq₂]

theorem ParametersReading.spells {ps : List Parameter} (h : ParametersReading ts ps rest) :
    ∃ front, ts = front ++ rest ∧ Separated ParameterSpelling ps front := by
  induction h with
  | last hfirst _ =>
    obtain ⟨front, heq, hfirst⟩ := parseParameter_spells hfirst
    exact ⟨front, heq, .last hfirst⟩
  | more hfirst hcomma _ ih =>
    obtain ⟨front, heq₁, hfirst⟩ := parseParameter_spells hfirst
    obtain ⟨comma, heq₂, hcomma⟩ := takeSign_spells hcomma
    obtain ⟨back, heq₃, hothers⟩ := ih
    refine ⟨_, ?_, .more hfirst hcomma.fixed hothers⟩
    simp [heq₁, heq₂, heq₃]

theorem parseParameterList_spells {ps : List Parameter} {closing : Span}
    (h : ReadsAs parseParameterList ts (ps, closing) rest) :
    ∃ front, ts = front ++ rest ∧ ParameterListSpelling (ps, closing) front := by
  cases parseParameterList_iff.1 h with
  | none hopening hclosing =>
    obtain ⟨opened, heq₁, hopening⟩ := takeSign_spells hopening
    obtain ⟨closed, heq₂, hclosing⟩ := takeSign_spells hclosing
    refine ⟨_, ?_, .none hopening.fixed hclosing⟩
    simp [heq₁, heq₂]
  | some hopening _ hparameters hclosing =>
    obtain ⟨opened, heq₁, hopening⟩ := takeSign_spells hopening
    obtain ⟨inside, heq₂, hparameters⟩ := hparameters.spells
    obtain ⟨closed, heq₃, hclosing⟩ := takeSign_spells hclosing
    refine ⟨_, ?_, .some hopening.fixed hparameters hclosing⟩
    simp [heq₁, heq₂, heq₃]

theorem FieldsReading.spells {fields : List Parameter} {closing : Span}
    (h : FieldsReading ts fields closing rest) :
    ∃ front, ts = front ++ rest ∧
      ClosedBy (.sign .rbrace) (Listed ParameterSpelling) (fields, closing) front := by
  induction h with
  | none hclosing =>
    obtain ⟨closed, heq, hclosing⟩ := takeSign_spells hclosing
    exact ⟨closed, heq, [], closed, rfl, .none, hclosing⟩
  | last _ hfirst _ hclosing =>
    obtain ⟨front, heq₁, hfirst⟩ := parseParameter_spells hfirst
    obtain ⟨closed, heq₂, hclosing⟩ := takeSign_spells hclosing
    refine ⟨_, ?_, front, closed, rfl, .last hfirst, hclosing⟩
    simp [heq₁, heq₂]
  | more _ hfirst hcomma _ ih =>
    obtain ⟨front, heq₁, hfirst⟩ := parseParameter_spells hfirst
    obtain ⟨comma, heq₂, hcomma⟩ := takeSign_spells hcomma
    obtain ⟨_, heq₃, inside, closed, rfl, hothers, hclosing⟩ := ih
    refine ⟨_, ?_, _, closed, rfl, .more hfirst hcomma.fixed hothers, hclosing⟩
    simp [heq₁, heq₂, heq₃]

theorem parseFields_spells {fields : List Parameter} {closing : Span}
    (h : ReadsAs parseFields ts (fields, closing) rest) :
    ∃ front, ts = front ++ rest ∧
      ClosedBy (.sign .rbrace) (Listed ParameterSpelling) (fields, closing) front :=
  (parseFields_iff.1 h).spells

theorem VisibilityReading.spells {visibility : Option Span}
    (h : VisibilityReading visibility ts rest) :
    ∃ front, ts = front ++ rest ∧ Optionally (Marks (.keyword .setWord)) visibility front := by
  cases visibility with
  | none =>
    obtain rfl : rest = ts := h
    exact ⟨[], rfl, .missing⟩
  | some word =>
    obtain ⟨front, heq, hword⟩ := takeKeyword_spells h
    exact ⟨front, heq, .present hword⟩

theorem SignatureReading.spells {keyword closing : Span} {name : Ident}
    {parameters : List Parameter} {returnType : Option TypeClause}
    (h : SignatureReading keyword name (parameters, closing) returnType ts rest) :
    ∃ word middle list clause, ts = word ++ middle ++ list ++ clause ++ rest ∧
      Marks (.keyword .fnWord) keyword word ∧ NameSpelling name middle ∧
      ParameterListSpelling (parameters, closing) list ∧
      Optionally TypeSpelling returnType clause := by
  obtain ⟨_, _, _, hkeyword, hname, hparameters, hreturn⟩ := h
  obtain ⟨word, heq₁, hkeyword⟩ := takeKeyword_spells hkeyword
  obtain ⟨middle, heq₂, hname⟩ := takeIdent_spells hname
  obtain ⟨list, heq₃, hparameters⟩ := parseParameterList_spells hparameters
  obtain ⟨clause, heq₄, hreturn⟩ := parseOptionalTypeClause_spells hreturn
  refine ⟨word, middle, list, clause, ?_, hkeyword, hname, hparameters, hreturn⟩
  simp [heq₁, heq₂, heq₃, heq₄]

theorem DirectiveReading.spells {word : Keyword} {keyword : Span} {name : Ident}
    (h : DirectiveReading word keyword name ts rest) :
    ∃ front middle back, ts = front ++ middle ++ back ++ rest ∧
      Marks (.keyword word) keyword front ∧ NameSpelling name middle ∧
      AtMostOne (.sign .semicolon) back := by
  obtain ⟨_, _, _, hkeyword, hname, hsemicolon⟩ := h
  obtain ⟨front, heq₁, hkeyword⟩ := takeKeyword_spells hkeyword
  obtain ⟨middle, heq₂, hname⟩ := takeIdent_spells hname
  obtain ⟨back, heq₃, hsemicolon⟩ := takeOptional_spells hsemicolon
  refine ⟨front, middle, back, ?_, hkeyword, hname, hsemicolon⟩
  simp [heq₁, heq₂, heq₃]

theorem parseMember_spells {member : Member} (h : ReadsAs parseMember ts member rest) :
    ∃ front, ts = front ++ rest ∧ MemberSpelling member front := by
  rw [parseMember_iff] at h
  cases member with
  | statement s =>
    obtain ⟨front, heq, hstatement⟩ := parseStatement_spells h.2
    exact ⟨front, heq, .statement hstatement⟩
  | function f =>
    obtain ⟨_, _, _, hvisibility, hsignature, hbody⟩ := h
    obtain ⟨front, heq₁, hvisibility⟩ := hvisibility.spells
    obtain ⟨word, middle, list, clause, heq₂, hkeyword, hname, hparameters, hreturn⟩ :=
      hsignature.spells
    obtain ⟨back, heq₃, hbody⟩ := parseBlock_spells hbody
    refine ⟨_, ?_, .function (.intro hvisibility hkeyword hname hparameters hreturn hbody)⟩
    simp [heq₁, heq₂, heq₃]
  | external e =>
    obtain ⟨_, _, _, _, hkeyword, hsignature, hsemicolon⟩ := h
    obtain ⟨word, heq₁, hkeyword⟩ := takeKeyword_spells hkeyword
    obtain ⟨second, front, list, clause, heq₂, hsecond, hname, hparameters, hreturn⟩ :=
      hsignature.spells
    obtain ⟨back, heq₃, hsemicolon⟩ := takeOptional_spells hsemicolon
    refine ⟨_, ?_, .external hkeyword hsecond.fixed hname hparameters hreturn hsemicolon⟩
    simp [heq₁, heq₂, heq₃]
  | struct d =>
    obtain ⟨_, _, _, _, _, _, hkeyword, hname, hopening, hfields, hsemicolon⟩ := h
    obtain ⟨word, heq₁, hkeyword⟩ := takeKeyword_spells hkeyword
    obtain ⟨front, heq₂, hname⟩ := takeIdent_spells hname
    obtain ⟨opened, heq₃, hopening⟩ := takeSign_spells hopening
    obtain ⟨_, heq₄, inside, closed, rfl, hfields, hclosing⟩ := parseFields_spells hfields
    obtain ⟨back, heq₅, hsemicolon⟩ := takeOptional_spells hsemicolon
    refine ⟨_, ?_, .struct hkeyword hname hopening.fixed hfields hclosing hsemicolon⟩
    simp [heq₁, heq₂, heq₃, heq₄, heq₅]
  | packageReference keyword name =>
    obtain ⟨front, middle, back, heq, hkeyword, hname, hsemicolon⟩ := DirectiveReading.spells h
    exact ⟨_, heq, .packageReference hkeyword hname hsemicolon⟩
  | packageUse keyword name =>
    obtain ⟨front, middle, back, heq, hkeyword, hname, hsemicolon⟩ := DirectiveReading.spells h
    exact ⟨_, heq, .packageUse hkeyword hname hsemicolon⟩

theorem parseMembers_spelling {members : List Member} (h : parseMembers ts = .ok members) :
    ProgramSpelling members ts := by
  induction members generalizing ts with
  | nil =>
    obtain rfl := parseMembers_nil_iff.1 h
    exact .nil
  | cons member others ih =>
    obtain ⟨_, hfirst, hothers⟩ := parseMembers_cons_iff.1 h
    obtain ⟨front, heq, hfirst⟩ := parseMember_spells hfirst
    rw [heq]
    exact .cons hfirst (ih hothers)

end

/-! ### Programs -/

theorem parseProgram_spelling {tokens : List Token} {members : List Member}
    (h : parseProgram tokens = .ok members) : ProgramSpelling members (beforeEnding tokens) := by
  unfold parseProgram at h
  split at h
  · next hmembers =>
    cases h
    exact parseMembers_spelling hmembers
  · cases h

/-- The tokens of a program, up to its end, spell its members, and each of them has a role in the
grammar. -/
theorem parseProgram_sound {tokens : List Token} {members : List Member}
    (h : parseProgram tokens = .ok members) :
    ProgramSpelling members (beforeEnding tokens) ∧
      ∀ t ∈ beforeEnding tokens, t.kind.hasRole = true := by
  have hspelling := parseProgram_spelling h
  exact ⟨hspelling, hspelling.roled⟩

/-- A call with a comma behind its last argument, and the semicolon behind the statement. -/
theorem parseProgram_sound_call :
    let tokens : List Token :=
      [{ kind := .identifier, literal := "f", span := ⟨1, 0, 1, 1, 1, 1, 2⟩ },
       { kind := .sign .lparen, literal := "(", span := ⟨1, 1, 2, 1, 2, 1, 3⟩ },
       { kind := .text, literal := "'a'", span := ⟨1, 2, 5, 1, 3, 1, 6⟩ },
       { kind := .sign .comma, literal := ",", span := ⟨1, 5, 6, 1, 6, 1, 7⟩ },
       { kind := .sign .rparen, literal := ")", span := ⟨1, 6, 7, 1, 7, 1, 8⟩ },
       { kind := .sign .semicolon, literal := ";", span := ⟨1, 7, 8, 1, 8, 1, 9⟩ },
       Token.ending ⟨1, 8, 8, 1, 9, 1, 9⟩]
    let members : List Member :=
      [.statement (.expression (.call ⟨"f", ⟨1, 0, 1, 1, 1, 1, 2⟩⟩
        [.literal { kind := .text, literal := "'a'", span := ⟨1, 2, 5, 1, 3, 1, 6⟩ }]
        ⟨1, 6, 7, 1, 7, 1, 8⟩))]
    parseProgram tokens = .ok members ∧ ProgramSpelling members (beforeEnding tokens) ∧
      ∀ t ∈ beforeEnding tokens, t.kind.hasRole = true := by
  intro tokens members
  have hparse : parseProgram tokens = .ok members := by
    cbv
  exact ⟨hparse, parseProgram_sound hparse⟩

end TodLang
