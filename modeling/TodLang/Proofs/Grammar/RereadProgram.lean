import TodLang.Proofs.Grammar.Readings
import TodLang.Proofs.Grammar.RereadExpression
/-!
What is written for the members of a program is read as those members again, at no place. Behind a
statement always stands its semicolon, so nothing else can go on with it there. The main result is
`parseMembers_written`.
-/

namespace TodLang

/-! ### Parts of statements -/

section

variable {ts back : List Token}

theorem parseTypeClause_rereads {type : TypeClause} (h : ReadsAs parseTypeClause ts type back)
    (rest : List Token) (hrest : goesOnType rest = false) :
    ReadsAs parseTypeClause (type.written ++ rest) type.bare rest :=
  ((parseTypeClause_iff.1 h).rereads rest hrest).reads

/-- What behind the name of a declaration would make a type of it. -/
def makesType (tokens : List Token) : Bool :=
  [some .identifier, some (.sign .lbrack), some (.sign .pathSep)].contains (nextKind tokens)

theorem declaredType_rereads {type : Option TypeClause}
    (h : OptionalReading (atDeclaredType ts = true) parseTypeClause type ts back) (name : Ident)
    {rest : List Token} (hrest : makesType rest = false) :
    OptionalReading
      (atDeclaredType ((type.map TypeClause.written).getD [] ++ name.written :: rest) = true)
      parseTypeClause (type.map TypeClause.bare)
      ((type.map TypeClause.written).getD [] ++ name.written :: rest) (name.written :: rest) := by
  cases type with
  | none => exact ⟨by simpa [atDeclaredType, makesType] using hrest, rfl⟩
  | some type =>
    obtain ⟨-, htype⟩ := h
    refine ⟨?_, parseTypeClause_rereads htype _ (by simp [goesOnType])⟩
    obtain ⟨package, first, arguments, closing⟩ := type
    cases package <;> cases arguments <;>
      simp [atDeclaredType, TypeClause.written, TypeClause.packageWritten]

theorem InitialValueReading.rereads {value : Option Expression}
    (h : InitialValueReading value ts back) {rest : List Token} (hrest : Resumes back rest) :
    InitialValueReading (value.map Expression.bare)
      (VariableDeclaration.valueWritten value ++ rest) rest := by
  cases value with
  | none => exact ⟨hrest.nextKind_ne _ rfl rfl (by decide), rfl⟩
  | some value =>
    obtain ⟨_, _, -, hvalue⟩ := h
    exact ⟨_, _, takeSign_written .assign _, parseExpression_rereads hvalue hrest⟩

theorem DeclarationReading.rereads {d : VariableDeclaration} (h : DeclarationReading d ts back)
    (rest : List Token) :
    DeclarationReading d.bare (d.written ++ Sign.semicolon.written :: rest)
      (Sign.semicolon.written :: rest) := by
  obtain ⟨_, _, _, -, htype, -, hvalue⟩ := h
  have hquiet : makesType
      (VariableDeclaration.valueWritten d.value ++ Sign.semicolon.written :: rest) = false := by
    cases d.value <;> simp [makesType, VariableDeclaration.valueWritten]
  simp only [VariableDeclaration.written, List.cons_append, List.append_assoc]
  exact ⟨_, _, _, takeKeyword_written _ _, declaredType_rereads htype d.name hquiet,
    takeIdent_written d.name _, hvalue.rereads (.written .semicolon rfl _ rest)⟩

theorem ConditionReading.rereads {condition : Expression} (h : ConditionReading condition ts back)
    (rest : List Token) :
    ConditionReading condition.bare
      (Sign.lparen.written :: (condition.written ++ Sign.rparen.written :: rest)) rest := by
  obtain ⟨_, _, _, _, -, hcondition, -⟩ := h
  exact ⟨_, _, _, _, takeSign_written .lparen _,
    parseExpression_rereads hcondition (.written .rparen rfl _ rest), takeSign_written .rparen _⟩

theorem returnValue_rereads {value : Option Expression}
    (h : OptionalReading (¬endsReturn ts = true) parseExpression value ts back)
    (rest : List Token) :
    ReadsAs parseReturnValue
      ((value.map Expression.written).getD [] ++ Sign.semicolon.written :: rest)
      (value.map Expression.bare) (Sign.semicolon.written :: rest) := by
  rw [parseReturnValue_iff]
  cases value with
  | none => exact ⟨by simp [endsReturn], rfl⟩
  | some value =>
    obtain ⟨hends, hvalue⟩ := h
    refine ⟨?_, parseExpression_rereads hvalue (.written .semicolon rfl _ rest)⟩
    simpa only [endsReturn, Option.map_some, Option.getD_some,
      nextKind_written_of_parseExpression hvalue] using hends

end

/-! ### Statements -/

section

variable {ts rest : List Token}

theorem ConditionalReading.rereads {word : Keyword} {keyword : Span} {condition : Expression}
    (h : ConditionalReading word keyword condition ts rest) (back : List Token) :
    ConditionalReading word Span.none condition.bare
      (word.written :: Sign.lparen.written :: (condition.written ++ Sign.rparen.written :: back))
      back := by
  obtain ⟨_, -, hcondition⟩ := h
  have hback := (parseCondition_iff.1 hcondition).rereads back
  exact ⟨_, takeKeyword_written word _, parseCondition_iff.2 hback⟩

theorem LoopReading.rereads {keyword : Span} {init : VariableDeclaration} {condition : Expression}
    (h : LoopReading keyword init condition ts rest) (back : List Token) :
    LoopReading Span.none init.bare condition.bare
      (Keyword.forWord.written :: Sign.lparen.written :: (init.written ++ Sign.semicolon.written ::
        (condition.written ++ Sign.semicolon.written :: back))) back := by
  obtain ⟨_, _, _, _, r₅, _, _, _, -, -, hinit, -, hcondition, -⟩ := h
  have hfront := (parseVariableDeclaration_iff.1 hinit).rereads
    (condition.written ++ Sign.semicolon.written :: back)
  have htest := parseExpression_rereads hcondition (Resumes.written .semicolon rfl r₅ back)
  exact ⟨_, _, _, _, _, _, _, _, takeKeyword_written .forWord _, takeSign_written .lparen _,
    parseVariableDeclaration_iff.2 hfront, takeSign_written .semicolon _, htest,
    takeSign_written .semicolon _⟩

theorem takeSemicolon_written (back : List Token) :
    ReadsAs (takeOptional (.sign .semicolon)) (Sign.semicolon.written :: back)
      (some Sign.semicolon.written) back :=
  takeOptional_iff.2 ⟨rfl, Sign.written_kind .semicolon⟩

mutual

/-- A statement is read again with the semicolon that is written behind it. -/
theorem parseStatement_rereads {s : Statement} {ts rest : List Token}
    (h : ReadsAs parseStatement ts s rest) (back : List Token) :
    ReadsAs parseStatement (s.written ++ Sign.semicolon.written :: back) s.bare back ∧
      nextKind (s.written ++ Sign.semicolon.written :: back) = nextKind ts := by
  obtain ⟨_, _, hbare, -⟩ := parseStatement_iff.1 h
  obtain ⟨hback, hkind⟩ := parseBareStatement_rereads hbare back
  exact ⟨parseStatement_iff.2 ⟨_, _, hback, takeSemicolon_written back⟩, hkind⟩
termination_by (sizeOf s, 1)

theorem parseBareStatement_rereads {s : Statement} {ts rest : List Token}
    (h : ReadsAs parseBareStatement ts s rest) (back : List Token) :
    ReadsAs parseBareStatement (s.written ++ Sign.semicolon.written :: back) s.bare
        (Sign.semicolon.written :: back) ∧
      nextKind (s.written ++ Sign.semicolon.written :: back) = nextKind ts := by
  rw [parseBareStatement_iff] at h ⊢
  cases s with
  | declaration d =>
    have hdeclaration : ReadsAs parseVariableDeclaration ts d rest := h
    have hback := (parseVariableDeclaration_iff.1 hdeclaration).rereads back
    exact ⟨parseVariableDeclaration_iff.2 hback, hdeclaration.nextKind_declaration.symm⟩
  | block opening ss closing =>
    obtain ⟨_, hopening, hstatements⟩ := h
    have hback := parseStatements_rereads hstatements (Sign.semicolon.written :: back)
    simp only [Statement.written, Statement.bare, List.cons_append, List.append_assoc,
      List.nil_append]
    exact ⟨⟨_, takeSign_written .lbrace _, hback⟩, hopening.nextKind_sign.symm⟩
  | ifThen keyword condition body =>
    obtain ⟨_, hconditional, hbody, -⟩ := h
    have hback := (parseStatement_rereads hbody (Sign.semicolon.written :: back)).1
    simp only [Statement.written, Statement.bare, List.cons_append, List.append_assoc,
      List.nil_append]
    exact ⟨⟨_, hconditional.rereads _, hback, by simp⟩, hconditional.nextKind_eq.symm⟩
  | ifElse keyword condition body elseKeyword alternative =>
    obtain ⟨_, _, _, hconditional, hbody, -, halternative⟩ := h
    have hback := (parseStatement_rereads halternative (Sign.semicolon.written :: back)).1
    have hmiddle := (parseStatement_rereads hbody (Keyword.elseWord.written ::
      (alternative.written ++ Sign.semicolon.written :: Sign.semicolon.written :: back))).1
    simp only [Statement.written, Statement.bare, List.cons_append, List.append_assoc,
      List.nil_append]
    exact ⟨⟨_, _, _, hconditional.rereads _, hmiddle, takeKeyword_written .elseWord _, hback⟩,
      hconditional.nextKind_eq.symm⟩
  | «return» keyword value =>
    obtain ⟨_, hkeyword, hvalue⟩ := h
    have hback := returnValue_rereads (parseReturnValue_iff.1 hvalue) back
    simp only [Statement.written, Statement.bare, List.cons_append]
    exact ⟨⟨_, takeKeyword_written .returnWord _, hback⟩, hkeyword.nextKind_keyword.symm⟩
  | «for» keyword init condition step body =>
    obtain ⟨_, _, _, _, hloop, hstep, -, hbody⟩ := h
    have hback := (parseStatement_rereads hbody (Sign.semicolon.written :: back)).1
    have hmiddle := (parseStatement_rereads hstep (Sign.rparen.written ::
      (body.written ++ Sign.semicolon.written :: Sign.semicolon.written :: back))).1
    simp only [Statement.written, Statement.bare, List.cons_append, List.append_assoc,
      List.nil_append]
    exact ⟨⟨_, _, _, _, hloop.rereads _, hmiddle, takeSign_written .rparen _, hback⟩,
      hloop.nextKind_eq.symm⟩
  | «while» keyword condition body =>
    obtain ⟨_, hconditional, hbody⟩ := h
    have hback := (parseStatement_rereads hbody (Sign.semicolon.written :: back)).1
    simp only [Statement.written, Statement.bare, List.cons_append, List.append_assoc,
      List.nil_append]
    exact ⟨⟨_, hconditional.rereads _, hback⟩, hconditional.nextKind_eq.symm⟩
  | «break» keyword =>
    exact ⟨takeKeyword_written .breakWord _, (ReadsAs.nextKind_keyword h).symm⟩
  | «continue» keyword =>
    exact ⟨takeKeyword_written .continueWord _, (ReadsAs.nextKind_keyword h).symm⟩
  | expression e =>
    obtain ⟨hahead, hexpression⟩ := h
    have hback := parseExpression_rereads hexpression (Resumes.written .semicolon rfl rest back)
    -- the look-ahead falls through to an expression, as it did before
    have hkind := nextKind_written_of_parseExpression hexpression (Sign.semicolon.written :: back)
    exact ⟨⟨hahead.of_nextKind_eq hkind, hback⟩, hkind⟩
termination_by (sizeOf s, 0)

theorem parseStatements_rereads {ss : List Statement} {closing : Span} {ts rest : List Token}
    (h : ReadsAs parseStatements ts (ss, closing) rest) (back : List Token) :
    ReadsAs parseStatements (Statement.writtenAll ss ++ Sign.rbrace.written :: back)
      (Statement.bareAll ss, Span.none) back := by
  rw [parseStatements_iff] at h ⊢
  cases ss with
  | nil => exact takeSign_written .rbrace back
  | cons s others =>
    obtain ⟨hbrace, _, hfirst, hothers⟩ := h
    have hback := parseStatements_rereads hothers back
    obtain ⟨hfront, hkind⟩ := parseStatement_rereads hfirst
      (Statement.writtenAll others ++ Sign.rbrace.written :: back)
    simp only [Statement.writtenAll, Statement.bareAll, List.append_assoc, List.cons_append]
    exact ⟨hkind ▸ hbrace, _, hfront, hback⟩
termination_by (sizeOf ss, 0)

end

theorem parseBlock_rereads {b : Block} (h : ReadsAs parseBlock ts b rest) (back : List Token) :
    ReadsAs parseBlock (b.written ++ back) b.bare back := by
  obtain ⟨opening, ss, closing⟩ := b
  obtain ⟨_, -, hstatements⟩ := parseBlock_iff.1 h
  have hback := parseStatements_rereads hstatements back
  simp only [Block.written, Block.bare, List.cons_append, List.append_assoc, List.nil_append]
  exact parseBlock_iff.2 ⟨_, takeSign_written .lbrace _, hback⟩

end

/-! ### Parameters -/

theorem parseParameter_rereads {ts rest : List Token} {p : Parameter}
    (h : ReadsAs parseParameter ts p rest) (back : List Token) (hback : goesOnType back = false) :
    ReadsAs parseParameter (p.written ++ back) p.bare back := by
  rw [parseParameter_iff] at h ⊢
  obtain ⟨_, -, htype⟩ := h
  exact ⟨_, takeIdent_written p.name _, parseTypeClause_rereads htype back hback⟩

theorem ParametersReading.ne_nil {ts rest : List Token} {ps : List Parameter}
    (h : ParametersReading ts ps rest) : ps ≠ [] := by
  cases h with
  | last _ _ | more _ _ _ => exact List.cons_ne_nil _ _

theorem ParametersReading.rereads {ts rest : List Token} {ps : List Parameter}
    (h : ParametersReading ts ps rest) (back : List Token) :
    ParametersReading (Parameter.writtenAll ps ++ Sign.rparen.written :: back)
      (ps.map Parameter.bare) (Sign.rparen.written :: back) := by
  induction h with
  | last hfirst _ =>
    have hback := parseParameter_rereads hfirst (Sign.rparen.written :: back) (by simp [goesOnType])
    simp only [Parameter.writtenAll, Parameter.writtenTail, List.append_nil]
    exact .last hback (by simp)
  | @more _ _ _ _ _ others _ hfirst _ hothers ih =>
    cases others with
    | nil => exact absurd rfl hothers.ne_nil
    | cons second others =>
      have hback := parseParameter_rereads hfirst
        (Sign.comma.written :: (Parameter.writtenAll (second :: others) ++
          Sign.rparen.written :: back)) (by simp [goesOnType])
      simp only [Parameter.writtenAll, Parameter.writtenTail, List.append_assoc,
        List.cons_append] at hback ih ⊢
      exact .more hback (takeSign_written .comma _) ih

theorem ParameterListReading.rereads {ts rest : List Token} {ps : List Parameter} {closing : Span}
    (h : ParameterListReading ts ps closing rest) (back : List Token) :
    ParameterListReading
      (Sign.lparen.written :: (Parameter.writtenAll ps ++ Sign.rparen.written :: back))
      (ps.map Parameter.bare) Span.none back := by
  cases h with
  | none _ _ => exact .none (takeSign_written .lparen _) (takeSign_written .rparen back)
  | some _ _ hps _ =>
    refine .some (takeSign_written .lparen _) ?_ (hps.rereads back) (takeSign_written .rparen back)
    cases ps with
    | nil => exact absurd rfl hps.ne_nil
    | cons first others => simp [Parameter.writtenAll, Parameter.written]

/-- One field alone is read again in front of the brace. -/
theorem FieldsReading.rereads_singleton {ts rest : List Token} {p : Parameter}
    (h : ReadsAs parseParameter ts p rest) (back : List Token) :
    FieldsReading (Parameter.writtenAll [p] ++ Sign.rbrace.written :: back) [p.bare] Span.none
      back := by
  have hback := parseParameter_rereads h (Sign.rbrace.written :: back) (by simp [goesOnType])
  simp only [Parameter.writtenAll, Parameter.writtenTail, List.append_nil]
  exact .last (by simp [Parameter.written]) hback (by simp) (takeSign_written .rbrace back)

theorem FieldsReading.rereads {ts rest : List Token} {fields : List Parameter} {closing : Span}
    (h : FieldsReading ts fields closing rest) (back : List Token) :
    FieldsReading (Parameter.writtenAll fields ++ Sign.rbrace.written :: back)
      (fields.map Parameter.bare) Span.none back := by
  induction h with
  | none _ => exact .none (takeSign_written .rbrace back)
  | last _ hfirst _ _ => exact .rereads_singleton hfirst back
  | @more _ _ _ _ _ others _ _ _ hfirst _ _ ih =>
    cases others with
    | nil => exact .rereads_singleton hfirst back
    | cons second others =>
      have hback := parseParameter_rereads hfirst
        (Sign.comma.written :: (Parameter.writtenAll (second :: others) ++
          Sign.rbrace.written :: back)) (by simp [goesOnType])
      simp only [Parameter.writtenAll, Parameter.writtenTail, List.append_assoc,
        List.cons_append] at hback ih ⊢
      exact .more (by simp [Parameter.written]) hback (takeSign_written .comma _) ih

theorem parseOptionalTypeClause_rereads {ts rest : List Token} {type : Option TypeClause}
    (h : ReadsAs parseOptionalTypeClause ts type rest) (back : List Token)
    (hback : goesOnType back = false) (hname : nextKind back ≠ some .identifier) :
    ReadsAs parseOptionalTypeClause ((type.map TypeClause.written).getD [] ++ back)
      (type.map TypeClause.bare) back := by
  rw [parseOptionalTypeClause_iff] at h ⊢
  cases type with
  | none => exact ⟨hname, rfl⟩
  | some type =>
    obtain ⟨-, htype⟩ := h
    exact ⟨nextKind_append_of_eq_some type.nextKind_written back,
      parseTypeClause_rereads htype back hback⟩

/-! ### Members -/

theorem VariableDeclaration.kindAt_written (d : VariableDeclaration) (rest : List Token) :
    kindAt (d.written ++ rest) 1 = some .identifier := by
  obtain ⟨keyword, readOnly, type, name, value⟩ := d
  cases type with
  | none => simp [VariableDeclaration.written]
  | some type =>
    simp only [VariableDeclaration.written, Option.map_some, Option.getD_some, List.cons_append,
      List.append_assoc, kindAt_succ_cons, kindAt_zero]
    exact nextKind_append_of_eq_some type.nextKind_written _

section

variable {ts rest : List Token}

/-- A statement that begins with `set` declares a variable. -/
theorem exists_declaration_of_parseStatement {s : Statement} (h : ReadsAs parseStatement ts s rest)
    (hkind : nextKind ts = some (.keyword .setWord)) : ∃ d, s = .declaration d := by
  obtain ⟨_, _, ⟨_, hbare⟩, -⟩ := parseStatement_iff.1 h
  rw [parseBareStatement, hkind] at hbare
  obtain ⟨d, -, hbare⟩ := bind_ok hbare
  cases hbare
  exact ⟨_, rfl⟩

/-- A statement outside all functions is not taken for another member when it is written. -/
theorem StatementAhead.rereads {s : Statement} (h : StatementAhead ts)
    (hstatement : ReadsAs parseStatement ts s rest) (back : List Token) :
    StatementAhead (s.written ++ Sign.semicolon.written :: back) := by
  have hkind := (parseStatement_rereads hstatement back).2
  refine ⟨hkind ▸ h.1, fun hset => ?_⟩
  rw [hkind] at hset
  obtain ⟨d, rfl⟩ := exists_declaration_of_parseStatement hstatement hset
  rw [Statement.written, d.kindAt_written]
  simp

theorem visibility_rereads (visibility : Option Span) (back : List Token) :
    VisibilityReading (visibility.map fun _ => Span.none)
      ((if visibility.isSome then [Keyword.setWord.written] else []) ++ back) back := by
  cases visibility with
  | none => rfl
  | some word => exact takeKeyword_written .setWord back

theorem SignatureReading.rereads {keyword closing : Span} {name : Ident}
    {parameters : List Parameter} {returnType : Option TypeClause}
    (h : SignatureReading keyword name (parameters, closing) returnType ts rest)
    (back : List Token) (hback : goesOnType back = false)
    (hname : nextKind back ≠ some .identifier) :
    SignatureReading Span.none name.bare (parameters.map Parameter.bare, Span.none)
      (returnType.map TypeClause.bare) (signatureWritten name parameters returnType ++ back)
      back := by
  obtain ⟨_, _, _, -, -, hparameters, htype⟩ := h
  have hmiddle := (parseParameterList_iff.1 hparameters).rereads
    ((returnType.map TypeClause.written).getD [] ++ back)
  simp only [signatureWritten, List.cons_append, List.append_assoc]
  exact ⟨_, _, _, takeKeyword_written .fnWord _, takeIdent_written name _,
    parseParameterList_iff.2 hmiddle, parseOptionalTypeClause_rereads htype back hback hname⟩

theorem directive_rereads (word : Keyword) (name : Ident) (back : List Token) :
    DirectiveReading word Span.none name.bare
      (word.written :: name.written :: Sign.semicolon.written :: back) back :=
  ⟨_, _, _, takeKeyword_written word _, takeIdent_written name _,
    takeSemicolon_written back⟩

theorem parseMember_rereads {member : Member} (h : ReadsAs parseMember ts member rest)
    (back : List Token) : ReadsAs parseMember (member.written ++ back) member.bare back := by
  rw [parseMember_iff] at h ⊢
  cases member with
  | statement s =>
    obtain ⟨hahead, hstatement⟩ := h
    simp only [Member.written, Member.bare, List.append_assoc, List.cons_append, List.nil_append]
    exact ⟨hahead.rereads hstatement back, (parseStatement_rereads hstatement back).1⟩
  | function f =>
    obtain ⟨_, _, _, -, hsignature, hbody⟩ := h
    have hback := parseBlock_rereads hbody back
    have hfront := hsignature.rereads (f.body.written ++ back)
      (by simp [goesOnType, Block.written]) (by simp [Block.written])
    simp only [Member.written, Member.bare, List.append_assoc]
    exact ⟨_, _, _, visibility_rereads f.visibility _, hfront, hback⟩
  | external e =>
    obtain ⟨_, _, _, _, -, hsignature, -⟩ := h
    have hmiddle := hsignature.rereads (Sign.semicolon.written :: back)
      (by simp [goesOnType]) (by simp)
    simp only [Member.written, Member.bare, List.append_assoc, List.cons_append, List.nil_append]
    exact ⟨_, _, _, _, takeKeyword_written .externalWord _, hmiddle, takeSemicolon_written back⟩
  | struct d =>
    obtain ⟨_, _, _, _, _, _, -, -, -, hfields, -⟩ := h
    have hmiddle := (parseFields_iff.1 hfields).rereads (Sign.semicolon.written :: back)
    simp only [Member.written, Member.bare, List.append_assoc, List.cons_append, List.nil_append]
    exact ⟨_, _, _, _, _, _, takeKeyword_written .structWord _, takeIdent_written d.name _,
      takeSign_written .lbrace _, parseFields_iff.2 hmiddle, takeSemicolon_written back⟩
  | packageReference keyword name => exact directive_rereads .packageWord name back
  | packageUse keyword name => exact directive_rereads .usingWord name back

end

/-- What is written for the members of a program is read as those members. -/
theorem parseMembers_written {tokens : List Token} {members : List Member}
    (h : parseMembers tokens = .ok members) :
    parseMembers (members.flatMap Member.written) = .ok (members.map Member.bare) := by
  induction members generalizing tokens with
  | nil => exact parseMembers_nil_iff.2 rfl
  | cons member others ih =>
    obtain ⟨_, hfirst, hothers⟩ := parseMembers_cons_iff.1 h
    exact parseMembers_cons_iff.2 ⟨_, parseMember_rereads hfirst _, ih hothers⟩

end TodLang
