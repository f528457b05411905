import TodLang.Proofs.Grammar.Congruence
import TodLang.Grammar.Member
/-!
Rows of tokens that are congruent are read in lockstep: the trees that come out of both become the
same when they are relocated with their tokens, or both readers stop for the same reason at rows
that are congruent. The lemmas follow the readers of expressions, statements and members call by
call; the main result is `parseMembers_congruent`.
-/

namespace TodLang

variable {g g' : Relocation}

/-! ### Expressions -/

theorem Expression.isArrayAssignment_eq_of_relocate_eq {e e' : Expression}
    (h : e.relocate g = e'.relocate g') : e.isArrayAssignment = e'.isArrayAssignment := by
  have hassignment := congrArg Expression.isArrayAssignment h
  rwa [relocate_isArrayAssignment, relocate_isArrayAssignment] at hassignment

/-- The expressions and the mark behind them, where a relocation puts them. -/
def argumentsMoved (g : Relocation) (arguments : List Expression × Span) :
    List Expression × Span :=
  (Expression.relocateAll g arguments.1, g.span arguments.2)

mutual

theorem parseExpression_agrees {ts us : List Token} (h : Congruent g g' ts us) :
    Agrees g g' Expression.relocate (parseExpression ts) (parseExpression us) := by
  rw [parseExpression, parseExpression, h.opening_eq]
  split
  · exact parseAssignment_agrees h
  · refine (takeIdent_agrees h).bind fun p₁ q₁ htarget h₁ => ?_
    refine (takeOperator_agrees h₁ _).after.bind fun p₂ q₂ hoperator h₂ => ?_
    have := p₂.shorter
    refine (parseExpression_agrees h₂).after.bind fun p₃ q₃ hvalue h₃ => ?_
    exact agrees_return (by simp [Expression.relocate, htarget, hoperator, hvalue]) h₃
  · refine (takeIdent_agrees h).bind fun p₁ q₁ htarget h₁ => ?_
    refine (takeSign_agrees h₁ _).after.bind fun p₂ q₂ hfirst h₂ => ?_
    refine (takeSign_agrees h₂ _).after.bind fun p₃ q₃ hsecond h₃ => ?_
    exact agrees_return (by simp [Expression.relocate, Operator.relocate, Relocation.span_cover,
      htarget, hfirst, hsecond]) h₃
  · exact parseOperation_agrees 0 h
termination_by 8 * ts.length + 5
decreasing_by all_goals omega

theorem parseAssignment_agrees {ts us : List Token} (h : Congruent g g' ts us) :
    Agrees g g' Expression.relocate (parseAssignment ts) (parseAssignment us) := by
  rw [parseAssignment, parseAssignment]
  refine (takeIdent_agrees h).bind fun p₁ q₁ htarget h₁ => ?_
  refine (takeSign_agrees h₁ _).after.bind fun p₂ q₂ _ h₂ => ?_
  have := p₂.shorter
  refine (parseExpression_agrees h₂).after.bind fun p₃ q₃ hvalue h₃ => ?_
  exact agrees_return (by simp [Expression.relocate, htarget, hvalue]) h₃
termination_by 8 * ts.length
decreasing_by all_goals omega

theorem parseOperation_agrees (parent : Nat) {ts us : List Token} (h : Congruent g g' ts us) :
    Agrees g g' Expression.relocate (parseOperation parent ts) (parseOperation parent us) := by
  rw [parseOperation, parseOperation, h.leadingOperator?_eq]
  split
  · refine (takeOperator_agrees h _).bind fun p₁ q₁ hoperator h₁ => ?_
    have := p₁.shorter
    refine (parseOperation_agrees _ h₁).after.bind fun p₂ q₂ hoperand h₂ => ?_
    have := p₂.shorter
    exact (parseJoined_agrees parent (by simp [Expression.relocate, hoperator, hoperand])
      h₂).afterOptional
  · refine (parsePostfix_agrees h).bind fun p₁ q₁ hoperand h₁ => ?_
    have := p₁.shorter
    exact (parseJoined_agrees parent hoperand h₁).afterOptional
termination_by 8 * ts.length + 4
decreasing_by all_goals omega

theorem parseJoined_agrees (parent : Nat) {left left' : Expression}
    (hleft : left.relocate g = left'.relocate g') {ts us : List Token} (h : Congruent g g' ts us) :
    Agrees g g' Expression.relocate (parseJoined parent left ts) (parseJoined parent left' us) := by
  rw [parseJoined, parseJoined, h.joiningOperator?_eq]
  split
  · exact agrees_return hleft h
  · refine (takeOperator_agrees h _).bind fun p₁ q₁ hoperator h₁ => ?_
    have := p₁.shorter
    refine (parseOperation_agrees _ h₁).after.bind fun p₂ q₂ hright h₂ => ?_
    have := p₂.shorter
    refine (parseJoined_agrees parent (by simp [Expression.relocate, hleft, hoperator, hright])
      h₂).afterOptional.bind fun p₃ q₃ hwhole h₃ => ?_
    exact agrees_return hwhole h₃
termination_by 8 * ts.length
decreasing_by all_goals omega

theorem parsePostfix_agrees {ts us : List Token} (h : Congruent g g' ts us) :
    Agrees g g' Expression.relocate (parsePostfix ts) (parsePostfix us) := by
  rw [parsePostfix, parsePostfix]
  refine (parsePrimary_agrees h).bind fun p₁ q₁ hoperand h₁ => ?_
  have := p₁.shorter
  exact (parseSuffixes_agrees hoperand h₁).afterOptional
termination_by 8 * ts.length + 3
decreasing_by all_goals omega

theorem parseSuffixes_agrees {array array' : Expression}
    (harray : array.relocate g = array'.relocate g') {ts us : List Token}
    (h : Congruent g g' ts us) :
    Agrees g g' Expression.relocate (parseSuffixes array ts) (parseSuffixes array' us) := by
  rw [parseSuffixes, parseSuffixes, h.nextKind_eq]
  split
  · refine (parseSuffix_agrees harray h).bind fun p₁ q₁ helement h₁ => ?_
    dsimp only
    rw [Expression.isArrayAssignment_eq_of_relocate_eq helement]
    split
    · exact agrees_return helement h₁
    · have := p₁.shorter
      refine (parseSuffixes_agrees helement h₁).afterOptional.bind fun p₂ q₂ hwhole h₂ => ?_
      exact agrees_return hwhole h₂
  · exact agrees_return harray h
termination_by 8 * ts.length + 1
decreasing_by all_goals omega

theorem parseSuffix_agrees {array array' : Expression}
    (harray : array.relocate g = array'.relocate g') {ts us : List Token}
    (h : Congruent g g' ts us) :
    Agrees g g' Expression.relocate (parseSuffix array ts) (parseSuffix array' us) := by
  rw [parseSuffix, parseSuffix]
  refine (takeSign_agrees h _).bind fun p₁ q₁ _ h₁ => ?_
  have := p₁.shorter
  refine (parseExpression_agrees h₁).after.bind fun p₂ q₂ hindex h₂ => ?_
  refine (takeSign_agrees h₂ _).after.bind fun p₃ q₃ hclosing h₃ => ?_
  dsimp only
  obtain ⟨hp, hq⟩ | ⟨p₄, q₄, hp, hq, -, h₄⟩ :=
    (h₃.acceptAfter? p₃.shorter q₃.shorter (.sign .assign)).cases
  · rw [hp, hq]
    exact agrees_return (by simp [Expression.relocate, harray, hindex, hclosing]) h₃
  · rw [hp, hq]
    have := p₄.shorter
    refine (parseExpression_agrees h₄).after.bind fun p₅ q₅ hvalue h₅ => ?_
    exact agrees_return (by simp [Expression.relocate, harray, hindex, hvalue]) h₅
termination_by 8 * ts.length
decreasing_by all_goals omega

theorem parsePrimary_agrees {ts us : List Token} (h : Congruent g g' ts us) :
    Agrees g g' Expression.relocate (parsePrimary ts) (parsePrimary us) := by
  rw [parsePrimary, parsePrimary, h.nextKind_eq, h.atMain_eq]
  split
  · refine (takeSign_agrees h _).bind fun p₁ q₁ hopening h₁ => ?_
    have := p₁.shorter
    refine (parseExpression_agrees h₁).after.bind fun p₂ q₂ hinner h₂ => ?_
    refine (takeSign_agrees h₂ _).after.bind fun p₃ q₃ hclosing h₃ => ?_
    exact agrees_return (by simp [Expression.relocate, hopening, hinner, hclosing]) h₃
  · refine (takeKeyword_agrees h _).bind fun p₁ q₁ hword h₁ => ?_
    exact agrees_return (by simp [Expression.relocate, hword]) h₁
  · exact parseMake_agrees h
  · refine (takeSign_agrees h _).bind fun p₁ q₁ hampersand h₁ => ?_
    refine (takeIdent_agrees h₁).after.bind fun p₂ q₂ hname h₂ => ?_
    exact agrees_return (by simp [Expression.relocate, hampersand, hname]) h₂
  · refine (takeSign_agrees h _).bind fun p₁ q₁ hstar h₁ => ?_
    have := p₁.shorter
    refine (parsePrimary_agrees h₁).after.bind fun p₂ q₂ hoperand h₂ => ?_
    exact agrees_return (by simp [Expression.relocate, hstar, hoperand]) h₂
  · split
    · exact parseMain_agrees h
    · exact parseNamed_agrees h
  · split
    · refine (take_agrees h _).bind fun p₁ q₁ htoken h₁ => ?_
      exact agrees_return (by simp [Expression.relocate, htoken]) h₁
    · exact agrees_error h
  · exact agrees_error h
termination_by 8 * ts.length + 2
decreasing_by all_goals omega

theorem parseMain_agrees {ts us : List Token} (h : Congruent g g' ts us) :
    Agrees g g' Expression.relocate (parseMain ts) (parseMain us) := by
  rw [parseMain, parseMain]
  refine (takeIdent_agrees h).bind fun p₁ q₁ hmain h₁ => ?_
  have hword : g.span p₁.value.span = g'.span q₁.value.span := congrArg Ident.span hmain
  have := p₁.shorter
  dsimp only
  rw [h₁.kindAt_eq]
  split
  · refine (parseCall_agrees h₁).after.bind fun p₂ q₂ hinner h₂ => ?_
    exact agrees_return (by simp [Expression.relocate, hword, hinner]) h₂
  · refine (parseAssignment_agrees h₁).after.bind fun p₂ q₂ hinner h₂ => ?_
    exact agrees_return (by simp [Expression.relocate, hword, hinner]) h₂
  · refine (takeIdent_agrees h₁).after.bind fun p₂ q₂ hname h₂ => ?_
    exact agrees_return (by simp [Expression.relocate, hword, hname]) h₂
termination_by 8 * ts.length
decreasing_by all_goals omega

theorem parseNamed_agrees {ts us : List Token} (h : Congruent g g' ts us) :
    Agrees g g' Expression.relocate (parseNamed ts) (parseNamed us) := by
  have hcast {p : Parsed TypeClause ts.length} {q : Parsed TypeClause us.length}
      (htype : p.value.relocate g = q.value.relocate g') (hrest : Congruent g g' p.rest q.rest) :
      Agrees g g' Expression.relocate
        (after p.shorter (parseArguments .rparen p.rest) >>= fun a =>
          (return ⟨.cast p.value a.value.1 a.value.2, a.rest, a.shorter⟩ : Parse _ ts.length))
        (after q.shorter (parseArguments .rparen q.rest) >>= fun a =>
          (return ⟨.cast q.value a.value.1 a.value.2, a.rest, a.shorter⟩ : Parse _ us.length)) := by
    have := p.shorter
    refine (parseArguments_agrees .rparen hrest).after.bind fun p₂ q₂ harguments h₂ => ?_
    simp only [argumentsMoved, Prod.mk.injEq] at harguments
    exact agrees_return (by simp [Expression.relocate, htype, harguments]) h₂
  rw [parseNamed, parseNamed, h.kindAt_eq, h.kindAt_eq]
  split
  · exact parseCall_agrees h
  · split
    · obtain ⟨hp, hq⟩ | ⟨p₁, q₁, hp, hq, htype, h₁⟩ := (tryCastHead?_agrees h).cases
      · rw [hp, hq]
        exact parsePackageCall_agrees h
      · rw [hp, hq]
        exact hcast htype h₁
    · exact parsePackageCall_agrees h
  · exact parseMemberOf_agrees h
  · obtain ⟨hp, hq⟩ | ⟨p₁, q₁, hp, hq, htype, h₁⟩ := (tryCastHead?_agrees h).cases
    · rw [hp, hq]
      refine (takeIdent_agrees h).bind fun p₁ q₁ harray h₁ => ?_
      have := p₁.shorter
      exact (parseSuffix_agrees (by simp [Expression.relocate, harray]) h₁).after
    · rw [hp, hq]
      exact hcast htype h₁
  · refine (takeIdent_agrees h).bind fun p₁ q₁ hname h₁ => ?_
    exact agrees_return (by simp [Expression.relocate, hname]) h₁
termination_by 8 * ts.length + 1
decreasing_by all_goals omega

theorem parseCall_agrees {ts us : List Token} (h : Congruent g g' ts us) :
    Agrees g g' Expression.relocate (parseCall ts) (parseCall us) := by
  rw [parseCall, parseCall]
  refine (takeIdent_agrees h).bind fun p₁ q₁ hcallee h₁ => ?_
  refine (takeSign_agrees h₁ _).after.bind fun p₂ q₂ _ h₂ => ?_
  have := p₂.shorter
  refine (parseArguments_agrees .rparen h₂).after.bind fun p₃ q₃ harguments h₃ => ?_
  simp only [argumentsMoved, Prod.mk.injEq] at harguments
  exact agrees_return (by simp [Expression.relocate, hcallee, harguments]) h₃
termination_by 8 * ts.length
decreasing_by all_goals omega

theorem parsePackageCall_agrees {ts us : List Token} (h : Congruent g g' ts us) :
    Agrees g g' Expression.relocate (parsePackageCall ts) (parsePackageCall us) := by
  rw [parsePackageCall, parsePackageCall]
  refine (takeIdent_agrees h).bind fun p₁ q₁ hpackage h₁ => ?_
  refine (takeSign_agrees h₁ _).after.bind fun p₂ q₂ _ h₂ => ?_
  refine (takeIdent_agrees h₂).after.bind fun p₃ q₃ hcallee h₃ => ?_
  refine (takeSign_agrees h₃ _).after.bind fun p₄ q₄ _ h₄ => ?_
  have := p₄.shorter
  refine (parseArguments_agrees .rparen h₄).after.bind fun p₅ q₅ harguments h₅ => ?_
  simp only [argumentsMoved, Prod.mk.injEq] at harguments
  exact agrees_return (by simp [Expression.relocate, hpackage, hcallee, harguments]) h₅
termination_by 8 * ts.length
decreasing_by all_goals omega

theorem parseMemberOf_agrees {ts us : List Token} (h : Congruent g g' ts us) :
    Agrees g g' Expression.relocate (parseMemberOf ts) (parseMemberOf us) := by
  rw [parseMemberOf, parseMemberOf]
  refine (takeIdent_agrees h).bind fun p₁ q₁ hobject h₁ => ?_
  refine (takeSign_agrees h₁ _).after.bind fun p₂ q₂ _ h₂ => ?_
  refine (takeIdent_agrees h₂).after.bind fun p₃ q₃ hfield h₃ => ?_
  have := p₃.shorter
  dsimp only
  rw [h₃.nextKind_eq]
  split
  · refine (takeSign_agrees h₃ _).after.bind fun p₄ q₄ _ h₄ => ?_
    have := p₄.shorter
    refine (parseArguments_agrees .rparen h₄).after.bind fun p₅ q₅ harguments h₅ => ?_
    simp only [argumentsMoved, Prod.mk.injEq] at harguments
    exact agrees_return (by simp [Expression.relocate, hobject, hfield, harguments]) h₅
  · refine (takeSign_agrees h₃ _).after.bind fun p₄ q₄ _ h₄ => ?_
    have := p₄.shorter
    refine (parseExpression_agrees h₄).after.bind fun p₅ q₅ hvalue h₅ => ?_
    exact agrees_return (by simp [Expression.relocate, hobject, hfield, hvalue]) h₅
  · exact agrees_return (by simp [Expression.relocate, hobject, hfield]) h₃
termination_by 8 * ts.length
decreasing_by all_goals omega

theorem parseMake_agrees {ts us : List Token} (h : Congruent g g' ts us) :
    Agrees g g' Expression.relocate (parseMake ts) (parseMake us) := by
  rw [parseMake, parseMake]
  refine (takeKeyword_agrees h _).bind fun p₁ q₁ hword h₁ => ?_
  refine (parseTypeClause_agrees h₁).after.bind fun p₂ q₂ htype h₂ => ?_
  have hgeneric := TypeClause.isGeneric_eq_of_relocate_eq htype
  have := p₂.shorter
  dsimp only
  obtain ⟨hp, hq⟩ | ⟨p₃, q₃, hp, hq, -, h₃⟩ :=
    (h₂.acceptAfter? p₂.shorter q₂.shorter (.sign .lbrace)).cases
  · rw [hp, hq]
    refine (takeSign_agrees h₂ _).after.bind fun p₃ q₃ _ h₃ => ?_
    have := p₃.shorter
    rw [hgeneric]
    split
    · refine (parseExpression_agrees h₃).after.bind fun p₄ q₄ hlength h₄ => ?_
      refine (takeSign_agrees h₄ _).after.bind fun p₅ q₅ hclosing h₅ => ?_
      exact agrees_return (by simp [Expression.relocate, hword, htype, hlength, hclosing]) h₅
    · refine (parseArguments_agrees .rparen h₃).after.bind fun p₄ q₄ harguments h₄ => ?_
      simp only [argumentsMoved, Prod.mk.injEq] at harguments
      exact agrees_return (by simp [Expression.relocate, hword, htype, harguments]) h₄
  · rw [hp, hq]
    have := p₃.shorter
    refine (parseArguments_agrees .rbrace h₃).after.bind fun p₄ q₄ hparts h₄ => ?_
    simp only [argumentsMoved, Prod.mk.injEq] at hparts
    rw [hgeneric]
    split
    · exact agrees_return (by simp [Expression.relocate, hword, htype, hparts]) h₄
    · exact agrees_return (by simp [Expression.relocate, hword, htype, hparts]) h₄
termination_by 8 * ts.length
decreasing_by all_goals omega

theorem parseArguments_agrees (closing : Sign) {ts us : List Token} (h : Congruent g g' ts us) :
    Agrees g g' argumentsMoved (parseArguments closing ts) (parseArguments closing us) := by
  rw [parseArguments, parseArguments, h.isEmpty_eq]
  obtain ⟨hp, hq⟩ | ⟨p₁, q₁, hp, hq, hclosing, h₁⟩ := (h.accept? (.sign closing)).cases
  · rw [hp, hq]
    dsimp only
    split
    · exact agrees_error h
    · refine (parseExpression_agrees h).bind fun p₁ q₁ hfirst h₁ => ?_
      obtain ⟨hp, hq⟩ | ⟨p₂, q₂, hp, hq, -, h₂⟩ :=
        (h₁.acceptAfter? p₁.shorter q₁.shorter (.sign .comma)).cases
      · rw [hp, hq]
        refine (takeSign_agrees h₁ _).after.bind fun p₂ q₂ hclosing h₂ => ?_
        exact agrees_return (by simp [argumentsMoved, Expression.relocateAll, hfirst, hclosing]) h₂
      · rw [hp, hq]
        have := p₂.shorter
        refine (parseArguments_agrees closing h₂).after.bind fun p₃ q₃ hothers h₃ => ?_
        simp only [argumentsMoved, Prod.mk.injEq] at hothers
        exact agrees_return (by simp [argumentsMoved, Expression.relocateAll, hfirst, hothers]) h₃
  · rw [hp, hq]
    have hmoved := Token.span_eq_of_relocate_eq hclosing
    exact agrees_return (by simp [argumentsMoved, Expression.relocateAll, hmoved]) h₁
termination_by 8 * ts.length + 6
decreasing_by all_goals omega

end

/-! ### Statements -/

/-- The statements and the brace behind them, where a relocation puts them. -/
def statementsMoved (g : Relocation) (statements : List Statement × Span) :
    List Statement × Span :=
  (Statement.relocateAll g statements.1, g.span statements.2)

theorem Congruent.atDeclaredType_eq {ts us : List Token} (h : Congruent g g' ts us) :
    atDeclaredType ts = atDeclaredType us := by
  simp only [atDeclaredType, h.nextKind_eq, h.kindAt_eq]

section

variable {ts us : List Token}

theorem parseDeclaredType_agrees (h : Congruent g g' ts us) :
    Agrees g g' (fun g => Option.map (TypeClause.relocate g)) (parseDeclaredType ts)
      (parseDeclaredType us) := by
  unfold parseDeclaredType
  rw [h.atDeclaredType_eq]
  split
  · refine (parseTypeClause_agrees h).bind fun p q htype hrest => ?_
    exact agrees_return (congrArg some htype) hrest
  · exact agrees_return rfl h

theorem parseInitialValue_agrees (h : Congruent g g' ts us) :
    Agrees g g' (fun g => Option.map (Expression.relocate g)) (parseInitialValue ts)
      (parseInitialValue us) := by
  unfold parseInitialValue
  obtain ⟨hp, hq⟩ | ⟨p₁, q₁, hp, hq, -, h₁⟩ := (h.accept? (.sign .assign)).cases
  · rw [hp, hq]
    exact agrees_return rfl h
  · rw [hp, hq]
    refine (parseExpression_agrees h₁).after.bind fun p₂ q₂ hvalue h₂ => ?_
    exact agrees_return (congrArg some hvalue) h₂

theorem parseVariableWord_agrees (h : Congruent g g' ts us) :
    Agrees g g' (fun g word => (g.span word.1, word.2)) (parseVariableWord ts)
      (parseVariableWord us) := by
  unfold parseVariableWord
  rw [h.nextKind_eq]
  split
  · refine (takeKeyword_agrees h _).bind fun p q hword hrest => ?_
    exact agrees_return (by simp [hword]) hrest
  · refine (takeKeyword_agrees h _).bind fun p q hword hrest => ?_
    exact agrees_return (by simp [hword]) hrest
  · exact agrees_error h

theorem parseVariableDeclaration_agrees (h : Congruent g g' ts us) :
    Agrees g g' VariableDeclaration.relocate (parseVariableDeclaration ts)
      (parseVariableDeclaration us) := by
  unfold parseVariableDeclaration
  refine (parseVariableWord_agrees h).bind fun p₁ q₁ hword h₁ => ?_
  refine (parseDeclaredType_agrees h₁).afterOptional.bind fun p₂ q₂ htype h₂ => ?_
  refine (takeIdent_agrees h₂).after.bind fun p₃ q₃ hname h₃ => ?_
  refine (parseInitialValue_agrees h₃).afterOptional.bind fun p₄ q₄ hvalue h₄ => ?_
  simp only [Prod.mk.injEq] at hword
  exact agrees_return (by simp [VariableDeclaration.relocate, hword, htype, hname, hvalue]) h₄

theorem parseReturnValue_agrees (h : Congruent g g' ts us) :
    Agrees g g' (fun g => Option.map (Expression.relocate g)) (parseReturnValue ts)
      (parseReturnValue us) := by
  unfold parseReturnValue
  rw [h.nextKind_eq]
  split
  · exact agrees_return rfl h
  · refine (parseExpression_agrees h).bind fun p q hvalue hrest => ?_
    exact agrees_return (congrArg some hvalue) hrest

theorem parseCondition_agrees (h : Congruent g g' ts us) :
    Agrees g g' Expression.relocate (parseCondition ts) (parseCondition us) := by
  unfold parseCondition
  refine (takeSign_agrees h _).bind fun p₁ q₁ _ h₁ => ?_
  refine (parseExpression_agrees h₁).after.bind fun p₂ q₂ hcondition h₂ => ?_
  refine (takeSign_agrees h₂ _).after.bind fun p₃ q₃ _ h₃ => ?_
  exact agrees_return hcondition h₃

end

mutual

theorem parseStatement_agrees {ts us : List Token} (h : Congruent g g' ts us) :
    Agrees g g' Statement.relocate (parseStatement ts) (parseStatement us) := by
  rw [parseStatement, parseStatement]
  refine (parseBareStatement_agrees h).bind fun p₁ q₁ hstatement h₁ => ?_
  refine (takeOptional_agrees h₁ _).afterOptional.bind fun p₂ q₂ _ h₂ => ?_
  exact agrees_return hstatement h₂
termination_by 4 * ts.length + 1
decreasing_by all_goals omega

theorem parseBareStatement_agrees {ts us : List Token} (h : Congruent g g' ts us) :
    Agrees g g' Statement.relocate (parseBareStatement ts) (parseBareStatement us) := by
  have hdeclaration :
      Agrees g g' Statement.relocate
        (parseVariableDeclaration ts >>= fun d =>
          (return ⟨.declaration d.value, d.rest, d.shorter⟩ : Parse _ ts.length))
        (parseVariableDeclaration us >>= fun d =>
          (return ⟨.declaration d.value, d.rest, d.shorter⟩ : Parse _ us.length)) := by
    refine (parseVariableDeclaration_agrees h).bind fun p₁ q₁ hdeclaration h₁ => ?_
    exact agrees_return (by simp [Statement.relocate, hdeclaration]) h₁
  rw [parseBareStatement, parseBareStatement, h.nextKind_eq]
  split
  · exact hdeclaration
  · exact hdeclaration
  · refine (takeSign_agrees h _).bind fun p₁ q₁ hopening h₁ => ?_
    have := p₁.shorter
    refine (parseStatements_agrees h₁).after.bind fun p₂ q₂ hstatements h₂ => ?_
    simp only [statementsMoved, Prod.mk.injEq] at hstatements
    exact agrees_return (by simp [Statement.relocate, hopening, hstatements]) h₂
  · refine (takeKeyword_agrees h _).bind fun p₁ q₁ hword h₁ => ?_
    refine (parseCondition_agrees h₁).after.bind fun p₂ q₂ hcondition h₂ => ?_
    have := p₂.shorter
    refine (parseStatement_agrees h₂).after.bind fun p₃ q₃ hbody h₃ => ?_
    dsimp only
    obtain ⟨hp, hq⟩ | ⟨p₄, q₄, hp, hq, helse, h₄⟩ :=
      (h₃.acceptAfter? p₃.shorter q₃.shorter (.keyword .elseWord)).cases
    · rw [hp, hq]
      exact agrees_return (by simp [Statement.relocate, hword, hcondition, hbody]) h₃
    · rw [hp, hq]
      have := p₄.shorter
      refine (parseStatement_agrees h₄).after.bind fun p₅ q₅ halternative h₅ => ?_
      have hmoved := Token.span_eq_of_relocate_eq helse
      exact agrees_return (by simp [Statement.relocate, hword, hcondition, hbody, hmoved,
        halternative]) h₅
  · refine (takeKeyword_agrees h _).bind fun p₁ q₁ hword h₁ => ?_
    refine (parseReturnValue_agrees h₁).afterOptional.bind fun p₂ q₂ hvalue h₂ => ?_
    exact agrees_return (by simp [Statement.relocate, hword, hvalue]) h₂
  · refine (takeKeyword_agrees h _).bind fun p₁ q₁ hword h₁ => ?_
    refine (takeSign_agrees h₁ _).after.bind fun p₂ q₂ _ h₂ => ?_
    refine (parseVariableDeclaration_agrees h₂).after.bind fun p₃ q₃ hinit h₃ => ?_
    refine (takeSign_agrees h₃ _).after.bind fun p₄ q₄ _ h₄ => ?_
    refine (parseExpression_agrees h₄).after.bind fun p₅ q₅ hcondition h₅ => ?_
    refine (takeSign_agrees h₅ _).after.bind fun p₆ q₆ _ h₆ => ?_
    have := p₆.shorter
    refine (parseStatement_agrees h₆).after.bind fun p₇ q₇ hstep h₇ => ?_
    refine (takeSign_agrees h₇ _).after.bind fun p₈ q₈ _ h₈ => ?_
    have := p₈.shorter
    refine (parseStatement_agrees h₈).after.bind fun p₉ q₉ hbody h₉ => ?_
    exact agrees_return (by simp [Statement.relocate, hword, hinit, hcondition, hstep, hbody]) h₉
  · refine (takeKeyword_agrees h _).bind fun p₁ q₁ hword h₁ => ?_
    refine (parseCondition_agrees h₁).after.bind fun p₂ q₂ hcondition h₂ => ?_
    have := p₂.shorter
    refine (parseStatement_agrees h₂).after.bind fun p₃ q₃ hbody h₃ => ?_
    exact agrees_return (by simp [Statement.relocate, hword, hcondition, hbody]) h₃
  · refine (takeKeyword_agrees h _).bind fun p₁ q₁ hword h₁ => ?_
    exact agrees_return (by simp [Statement.relocate, hword]) h₁
  · refine (takeKeyword_agrees h _).bind fun p₁ q₁ hword h₁ => ?_
    exact agrees_return (by simp [Statement.relocate, hword]) h₁
  · refine (parseExpression_agrees h).bind fun p₁ q₁ hexpression h₁ => ?_
    exact agrees_return (by simp [Statement.relocate, hexpression]) h₁
termination_by 4 * ts.length
decreasing_by all_goals omega

theorem parseStatements_agrees {ts us : List Token} (h : Congruent g g' ts us) :
    Agrees g g' statementsMoved (parseStatements ts) (parseStatements us) := by
  rw [parseStatements, parseStatements, h.isEmpty_eq]
  obtain ⟨hp, hq⟩ | ⟨p₁, q₁, hp, hq, hclosing, h₁⟩ := (h.accept? (.sign .rbrace)).cases
  · rw [hp, hq]
    dsimp only
    split
    · exact agrees_error h
    · refine (parseStatement_agrees h).bind fun p₁ q₁ hfirst h₁ => ?_
      have := p₁.shorter
      refine (parseStatements_agrees h₁).after.bind fun p₂ q₂ hothers h₂ => ?_
      simp only [statementsMoved, Prod.mk.injEq] at hothers
      exact agrees_return (by simp [statementsMoved, Statement.relocateAll, hfirst, hothers]) h₂
  · rw [hp, hq]
    have hmoved := Token.span_eq_of_relocate_eq hclosing
    exact agrees_return (by simp [statementsMoved, Statement.relocateAll, hmoved]) h₁
termination_by 4 * ts.length + 2
decreasing_by all_goals omega

end

theorem parseBlock_agrees {ts us : List Token} (h : Congruent g g' ts us) :
    Agrees g g' Block.relocate (parseBlock ts) (parseBlock us) := by
  unfold parseBlock
  refine (takeSign_agrees h _).bind fun p₁ q₁ hopening h₁ => ?_
  refine (parseStatements_agrees h₁).after.bind fun p₂ q₂ hstatements h₂ => ?_
  simp only [statementsMoved, Prod.mk.injEq] at hstatements
  exact agrees_return (by simp [Block.relocate, hopening, hstatements]) h₂

/-! ### Members -/

/-- The parameters and the mark behind them, where a relocation puts them. -/
def parametersMoved (g : Relocation) (parameters : List Parameter × Span) :
    List Parameter × Span :=
  (parameters.1.map (Parameter.relocate g), g.span parameters.2)

theorem parseParameter_agrees {ts us : List Token} (h : Congruent g g' ts us) :
    Agrees g g' Parameter.relocate (parseParameter ts) (parseParameter us) := by
  unfold parseParameter
  refine (takeIdent_agrees h).bind fun p₁ q₁ hname h₁ => ?_
  refine (parseTypeClause_agrees h₁).after.bind fun p₂ q₂ htype h₂ => ?_
  exact agrees_return (by simp [Parameter.relocate, hname, htype]) h₂

theorem parseParameters_agrees {ts us : List Token} (h : Congruent g g' ts us) :
    Agrees g g' (fun g => List.map (Parameter.relocate g)) (parseParameters ts)
      (parseParameters us) := by
  rw [parseParameters, parseParameters]
  refine (parseParameter_agrees h).bind fun p₁ q₁ hfirst h₁ => ?_
  dsimp only
  obtain ⟨hp, hq⟩ | ⟨p₂, q₂, hp, hq, -, h₂⟩ :=
    (h₁.acceptAfter? p₁.shorter q₁.shorter (.sign .comma)).cases
  · rw [hp, hq]
    exact agrees_return (by simp [hfirst]) h₁
  · rw [hp, hq]
    have := p₂.shorter
    refine (parseParameters_agrees h₂).after.bind fun p₃ q₃ hothers h₃ => ?_
    exact agrees_return (by simp [hfirst, hothers]) h₃
termination_by ts.length
decreasing_by all_goals omega

theorem parseParameterList_agrees {ts us : List Token} (h : Congruent g g' ts us) :
    Agrees g g' parametersMoved (parseParameterList ts) (parseParameterList us) := by
  unfold parseParameterList
  refine (takeSign_agrees h _).bind fun p₁ q₁ _ h₁ => ?_
  dsimp only
  obtain ⟨hp, hq⟩ | ⟨p₂, q₂, hp, hq, hclosing, h₂⟩ :=
    (h₁.acceptAfter? p₁.shorter q₁.shorter (.sign .rparen)).cases
  · rw [hp, hq]
    refine (parseParameters_agrees h₁).after.bind fun p₂ q₂ hparameters h₂ => ?_
    refine (takeSign_agrees h₂ _).after.bind fun p₃ q₃ hclosing h₃ => ?_
    exact agrees_return (by simp [parametersMoved, hparameters, hclosing]) h₃
  · rw [hp, hq]
    have hmoved := Token.span_eq_of_relocate_eq hclosing
    exact agrees_return (by simp [parametersMoved, hmoved]) h₂

theorem parseFields_agrees {ts us : List Token} (h : Congruent g g' ts us) :
    Agrees g g' parametersMoved (parseFields ts) (parseFields us) := by
  rw [parseFields, parseFields, h.isEmpty_eq]
  obtain ⟨hp, hq⟩ | ⟨p₁, q₁, hp, hq, hclosing, h₁⟩ := (h.accept? (.sign .rbrace)).cases
  · rw [hp, hq]
    dsimp only
    split
    · exact agrees_error h
    · refine (parseParameter_agrees h).bind fun p₁ q₁ hfirst h₁ => ?_
      obtain ⟨hp, hq⟩ | ⟨p₂, q₂, hp, hq, -, h₂⟩ :=
        (h₁.acceptAfter? p₁.shorter q₁.shorter (.sign .comma)).cases
      · rw [hp, hq]
        refine (takeSign_agrees h₁ _).after.bind fun p₂ q₂ hclosing h₂ => ?_
        exact agrees_return (by simp [parametersMoved, hfirst, hclosing]) h₂
      · rw [hp, hq]
        have := p₂.shorter
        refine (parseFields_agrees h₂).after.bind fun p₃ q₃ hothers h₃ => ?_
        simp only [parametersMoved, Prod.mk.injEq] at hothers
        exact agrees_return (by simp [parametersMoved, hfirst, hothers]) h₃
  · rw [hp, hq]
    have hmoved := Token.span_eq_of_relocate_eq hclosing
    exact agrees_return (by simp [parametersMoved, hmoved]) h₁
termination_by ts.length
decreasing_by all_goals omega

section

variable {ts us : List Token}

theorem parseFunction_agrees (visibility visibility' : Option Span)
    (hvisibility : visibility.map g.span = visibility'.map g'.span)
    (h : Congruent g g' ts us) :
    Agrees g g' Member.relocate (parseFunction visibility ts) (parseFunction visibility' us) := by
  unfold parseFunction
  refine (takeKeyword_agrees h _).bind fun p₁ q₁ hword h₁ => ?_
  refine (takeIdent_agrees h₁).after.bind fun p₂ q₂ hname h₂ => ?_
  refine (parseParameterList_agrees h₂).after.bind fun p₃ q₃ hparameters h₃ => ?_
  refine (parseOptionalTypeClause_agrees h₃).afterOptional.bind fun p₄ q₄ htype h₄ => ?_
  refine (parseBlock_agrees h₄).after.bind fun p₅ q₅ hbody h₅ => ?_
  simp only [parametersMoved, Prod.mk.injEq] at hparameters
  exact agrees_return (by simp [Member.relocate, FunctionDeclaration.relocate, hvisibility, hword,
    hname, hparameters, htype, hbody]) h₅

theorem parseExternal_agrees (h : Congruent g g' ts us) :
    Agrees g g' Member.relocate (parseExternal ts) (parseExternal us) := by
  unfold parseExternal
  refine (takeKeyword_agrees h _).bind fun p₁ q₁ hword h₁ => ?_
  refine (takeKeyword_agrees h₁ _).after.bind fun p₂ q₂ _ h₂ => ?_
  refine (takeIdent_agrees h₂).after.bind fun p₃ q₃ hname h₃ => ?_
  refine (parseParameterList_agrees h₃).after.bind fun p₄ q₄ hparameters h₄ => ?_
  refine (parseOptionalTypeClause_agrees h₄).afterOptional.bind fun p₅ q₅ htype h₅ => ?_
  refine (takeOptional_agrees h₅ _).afterOptional.bind fun p₆ q₆ _ h₆ => ?_
  simp only [parametersMoved, Prod.mk.injEq] at hparameters
  exact agrees_return (by simp [Member.relocate, ExternalDeclaration.relocate, hword, hname,
    hparameters, htype]) h₆

theorem parseStruct_agrees (h : Congruent g g' ts us) :
    Agrees g g' Member.relocate (parseStruct ts) (parseStruct us) := by
  unfold parseStruct
  refine (takeKeyword_agrees h _).bind fun p₁ q₁ hword h₁ => ?_
  refine (takeIdent_agrees h₁).after.bind fun p₂ q₂ hname h₂ => ?_
  refine (takeSign_agrees h₂ _).after.bind fun p₃ q₃ _ h₃ => ?_
  refine (parseFields_agrees h₃).after.bind fun p₄ q₄ hfields h₄ => ?_
  refine (takeOptional_agrees h₄ _).afterOptional.bind fun p₅ q₅ _ h₅ => ?_
  simp only [parametersMoved, Prod.mk.injEq] at hfields
  exact agrees_return (by simp [Member.relocate, StructDeclaration.relocate, hword, hname,
    hfields]) h₅

theorem parseDirective_agrees (word : Keyword) {make : Span → Ident → Member}
    (hmake : ∀ g keyword name,
      (make keyword name).relocate g = make (g.span keyword) (name.relocate g))
    (h : Congruent g g' ts us) :
    Agrees g g' Member.relocate (parseDirective word make ts) (parseDirective word make us) := by
  unfold parseDirective
  refine (takeKeyword_agrees h _).bind fun p₁ q₁ hword h₁ => ?_
  refine (takeIdent_agrees h₁).after.bind fun p₂ q₂ hname h₂ => ?_
  refine (takeOptional_agrees h₂ _).afterOptional.bind fun p₃ q₃ _ h₃ => ?_
  exact agrees_return (by simp [hmake, hword, hname]) h₃

theorem parseGlobalStatement_agrees (h : Congruent g g' ts us) :
    Agrees g g' Member.relocate (parseGlobalStatement ts) (parseGlobalStatement us) := by
  unfold parseGlobalStatement
  refine (parseStatement_agrees h).bind fun p q hstatement hrest => ?_
  exact agrees_return (by simp [Member.relocate, hstatement]) hrest

theorem parseMember_agrees (h : Congruent g g' ts us) :
    Agrees g g' Member.relocate (parseMember ts) (parseMember us) := by
  unfold parseMember
  rw [h.nextKind_eq, h.kindAt_eq]
  split
  · exact parseFunction_agrees none none rfl h
  · split
    · refine (takeKeyword_agrees h _).bind fun p₁ q₁ hword h₁ => ?_
      have hfunction := parseFunction_agrees (some p₁.value) (some q₁.value)
        (congrArg some hword) h₁
      exact hfunction.after
    · exact parseGlobalStatement_agrees h
  · exact parseExternal_agrees h
  · exact parseStruct_agrees h
  · exact parseDirective_agrees _ (fun _ _ _ => rfl) h
  · exact parseDirective_agrees _ (fun _ _ _ => rfl) h
  · exact parseGlobalStatement_agrees h

end

/-- Two readings of whole programs that come to the same: members that become the same where two
relocations put them, or the same thing wanted at rows of tokens that are congruent. -/
def MembersAgree (g g' : Relocation) :
    Except Mismatch (List Member) → Except Mismatch (List Member) → Prop
  | .ok members, .ok members' => members.map (Member.relocate g) = members'.map (Member.relocate g')
  | .error a, .error b => a.wanted = b.wanted ∧ Congruent g g' a.rest b.rest
  | _, _ => False

/-- Rows of tokens that are congruent are read as programs that become the same. -/
theorem parseMembers_congruent {ts us : List Token} (h : Congruent g g' ts us) :
    MembersAgree g g' (parseMembers ts) (parseMembers us) := by
  rw [parseMembers, parseMembers, h.isEmpty_eq]
  split
  · rfl
  · have hfirst := parseMember_agrees h
    match hx : parseMember ts, parseMember us, hfirst with
    | .error _, .error _, hfirst => exact hfirst
    | .ok p, .ok q, ⟨hfirst, hrest⟩ =>
      have := p.shorter
      have hothers := parseMembers_congruent hrest
      match hp : parseMembers p.rest, hq : parseMembers q.rest, hothers with
      | .error _, .error _, hothers =>
        simp only [bind, Except.bind, hp, hq]
        exact hothers
      | .ok others, .ok others', hothers =>
        simp only [bind, Except.bind, hp, hq]
        show (p.value :: others).map (Member.relocate g) =
          (q.value :: others').map (Member.relocate g')
        rw [List.map_cons, List.map_cons, hfirst, hothers]
termination_by ts.length
decreasing_by all_goals omega

end TodLang
