import TodLang.Proofs.Cursor.Expression
import TodLang.Grammar.Member
/-!
The readers of statements and members with a cursor do what the readers of lists do, if their limit
is large enough for the tokens ahead. The step that is taken when nothing was read is never needed,
since every statement and every member has a token. The main result is `members_follows`.
-/

namespace TodLang

/-! ### Statements -/

section

variable {tokens ts : List Token} {p limit : Nat}

theorem declaredType_follows (h : ahead tokens p = ts) (hlimit : 2 * ts.length < limit) :
    Follows tokens p (Steps.declaredType limit) (parseDeclaredType ts) := by
  unfold Steps.declaredType parseDeclaredType
  refine looks_pair.follows ?_
  rw [atDeclaredType_window h]
  split
  · refine (typeClause_follows h hlimit).bind fun q₁ a₁ h₁ => ?_
    exact .pure rfl h₁
  · exact .pure rfl h

theorem initialValue_follows (h : ahead tokens p = ts) (hlimit : 8 * ts.length < limit) :
    Follows tokens p (Steps.initialValue limit) (parseInitialValue ts) := by
  unfold Steps.initialValue parseInitialValue
  obtain ⟨hfound, heat⟩ | ⟨a₁, hfound, heat, h₁⟩ := eat_cases (.sign .assign) h (by decide)
  · rw [hfound]
    exact heat.follows (.pure rfl h)
  · rw [hfound]
    have := a₁.shorter
    refine heat.follows ?_
    refine (expression_follows h₁ (by omega)).after.bind fun q₂ a₂ h₂ => ?_
    exact .pure rfl h₂

theorem variableWord_follows (h : ahead tokens p = ts) :
    Follows tokens p Steps.variableWord (parseVariableWord ts) := by
  unfold Steps.variableWord
  refine (looks_nextKind h).follows ?_
  generalize hnext : nextKind ts = next
  split <;> rw [parseVariableWord, hnext]
  · refine (place_keyword_follows h hnext).bind fun q₁ a₁ h₁ => ?_
    exact .pure rfl h₁
  · refine (place_keyword_follows h hnext).bind fun q₁ a₁ h₁ => ?_
    exact .pure rfl h₁
  · split <;> try contradiction
    exact .unexpected _ h

theorem variableDeclaration_follows (h : ahead tokens p = ts) (hlimit : 8 * ts.length < limit) :
    Follows tokens p (Steps.variableDeclaration limit) (parseVariableDeclaration ts) := by
  unfold Steps.variableDeclaration parseVariableDeclaration
  refine (variableWord_follows h).bind fun q₁ a₁ h₁ => ?_
  have := a₁.shorter
  refine (declaredType_follows h₁ (by omega)).afterOptional.bind fun q₂ a₂ h₂ => ?_
  refine (ident_follows h₂).after.bind fun q₃ a₃ h₃ => ?_
  have := a₃.shorter
  refine (initialValue_follows h₃ (by omega)).afterOptional.bind fun q₄ a₄ h₄ => ?_
  exact .pure rfl h₄

theorem returnValue_follows (h : ahead tokens p = ts) (hlimit : 8 * ts.length + 5 < limit) :
    Follows tokens p (Steps.returnValue limit) (parseReturnValue ts) := by
  unfold Steps.returnValue parseReturnValue
  refine (looks_nextKind h).follows ?_
  split
  · exact .pure rfl h
  · refine (expression_follows h hlimit).bind fun q₁ a₁ h₁ => ?_
    exact .pure rfl h₁

theorem condition_follows (h : ahead tokens p = ts) (hlimit : 8 * ts.length < limit) :
    Follows tokens p (Steps.condition limit) (parseCondition ts) := by
  unfold Steps.condition parseCondition
  refine (sign_follows _ h).bind fun q₁ a₁ h₁ => ?_
  have := a₁.shorter
  refine (expression_follows h₁ (by omega)).after.bind fun q₂ a₂ h₂ => ?_
  refine (sign_follows _ h₂).after.bind fun q₃ a₃ h₃ => ?_
  exact .pure rfl h₃

/-- Behind what was read the cursor is not where it was. -/
theorem ne_of_ahead_shorter {q : Nat} {α : Type} {a : Parsed α ts.length} (h : ahead tokens p = ts)
    (hrest : ahead tokens q = a.rest) : p ≠ q := by
  rintro rfl
  have := a.shorter
  rw [← hrest, h] at this
  exact Nat.lt_irrefl _ this

end

mutual

theorem statement_follows {tokens ts : List Token} {p limit : Nat} (h : ahead tokens p = ts)
    (hlimit : 8 * ts.length + 8 < limit) :
    Follows tokens p (Steps.statement limit) (parseStatement ts) := by
  obtain ⟨limit, rfl⟩ := Nat.exists_eq_add_one_of_ne_zero (Nat.ne_zero_of_lt hlimit)
  rw [Steps.statement, parseStatement]
  refine (bareStatement_follows h (by omega)).bind fun q₁ a₁ h₁ => ?_
  refine (eat_follows h₁ (by decide)).afterOptional.bind fun q₂ a₂ h₂ => ?_
  exact .pure rfl h₂
termination_by limit
decreasing_by all_goals omega

theorem bareStatement_follows {tokens ts : List Token} {p limit : Nat} (h : ahead tokens p = ts)
    (hlimit : 8 * ts.length + 7 < limit) :
    Follows tokens p (Steps.bareStatement limit) (parseBareStatement ts) := by
  obtain ⟨limit, rfl⟩ := Nat.exists_eq_add_one_of_ne_zero (Nat.ne_zero_of_lt hlimit)
  rw [Steps.bareStatement]
  refine (looks_nextKind h).follows ?_
  generalize hnext : nextKind ts = next
  split <;> rw [parseBareStatement, hnext]
  · refine (variableDeclaration_follows h (by omega)).bind fun q₁ a₁ h₁ => ?_
    exact .pure rfl h₁
  · refine (variableDeclaration_follows h (by omega)).bind fun q₁ a₁ h₁ => ?_
    exact .pure rfl h₁
  · have hblock : Follows tokens p
        (Steps.block limit >>= fun inner =>
          pure (.block inner.opening inner.statements inner.closing))
        (parseBlock ts >>= fun a =>
          (return ⟨.block a.value.opening a.value.statements a.value.closing, a.rest, a.shorter⟩ :
            Parse Statement ts.length)) :=
      (block_follows h (by omega)).bind fun _ _ h₁ => .pure rfl h₁
    simpa only [parseBlock, bind_assoc, pure_bind] using hblock
  · refine (keyword_follows _ h).bind fun q₁ a₁ h₁ => ?_
    have := a₁.shorter
    refine (condition_follows h₁ (by omega)).after.bind fun q₂ a₂ h₂ => ?_
    have := a₂.shorter
    refine (statement_follows h₂ (by omega)).after.bind fun q₃ a₃ h₃ => ?_
    dsimp only
    obtain ⟨hfound, heat⟩ | ⟨a₄, hfound, heat, h₄⟩ :=
      eat_cases_after (.keyword .elseWord) h₃ (by decide) a₃.shorter
    · rw [hfound]
      exact heat.follows (.pure rfl h₃)
    · rw [hfound]
      have := a₄.shorter
      refine heat.follows ?_
      refine (statement_follows h₄ (by omega)).after.bind fun q₅ a₅ h₅ => ?_
      exact .pure rfl h₅
  · refine (keyword_follows _ h).bind fun q₁ a₁ h₁ => ?_
    have := a₁.shorter
    refine (returnValue_follows h₁ (by omega)).afterOptional.bind fun q₂ a₂ h₂ => ?_
    exact .pure rfl h₂
  · refine (keyword_follows _ h).bind fun q₁ a₁ h₁ => ?_
    refine (sign_follows _ h₁).after.bind fun q₂ a₂ h₂ => ?_
    have := a₂.shorter
    refine (variableDeclaration_follows h₂ (by omega)).after.bind fun q₃ a₃ h₃ => ?_
    refine (sign_follows _ h₃).after.bind fun q₄ a₄ h₄ => ?_
    have := a₄.shorter
    refine (expression_follows h₄ (by omega)).after.bind fun q₅ a₅ h₅ => ?_
    refine (sign_follows _ h₅).after.bind fun q₆ a₆ h₆ => ?_
    have := a₆.shorter
    refine (statement_follows h₆ (by omega)).after.bind fun q₇ a₇ h₇ => ?_
    refine (sign_follows _ h₇).after.bind fun q₈ a₈ h₈ => ?_
    have := a₈.shorter
    refine (statement_follows h₈ (by omega)).after.bind fun q₉ a₉ h₉ => ?_
    exact .pure rfl h₉
  · refine (keyword_follows _ h).bind fun q₁ a₁ h₁ => ?_
    have := a₁.shorter
    refine (condition_follows h₁ (by omega)).after.bind fun q₂ a₂ h₂ => ?_
    have := a₂.shorter
    refine (statement_follows h₂ (by omega)).after.bind fun q₃ a₃ h₃ => ?_
    exact .pure rfl h₃
  · refine (place_keyword_follows h hnext).bind fun q₁ a₁ h₁ => ?_
    exact .pure rfl h₁
  · refine (place_keyword_follows h hnext).bind fun q₁ a₁ h₁ => ?_
    exact .pure rfl h₁
  · split <;> try contradiction
    refine (expression_follows h (by omega)).bind fun q₁ a₁ h₁ => ?_
    exact .pure rfl h₁
termination_by limit
decreasing_by all_goals omega

theorem block_follows {tokens ts : List Token} {p limit : Nat} (h : ahead tokens p = ts)
    (hlimit : 8 * ts.length + 2 < limit) :
    Follows tokens p (Steps.block limit) (parseBlock ts) := by
  obtain ⟨limit, rfl⟩ := Nat.exists_eq_add_one_of_ne_zero (Nat.ne_zero_of_lt hlimit)
  rw [Steps.block, parseBlock]
  refine (sign_follows _ h).bind fun q₁ a₁ h₁ => ?_
  have := a₁.shorter
  refine (statements_follows h₁ (by omega)).after.bind fun q₂ a₂ h₂ => ?_
  exact .pure rfl h₂
termination_by limit
decreasing_by all_goals omega

theorem statements_follows {tokens ts : List Token} {p limit : Nat} (h : ahead tokens p = ts)
    (hlimit : 8 * ts.length + 9 < limit) :
    Follows tokens p (Steps.statements limit) (parseStatements ts) := by
  obtain ⟨limit, rfl⟩ := Nat.exists_eq_add_one_of_ne_zero (Nat.ne_zero_of_lt hlimit)
  rw [Steps.statements, parseStatements]
  obtain ⟨a₁, hfound, hlooks, hpasses, h₁⟩ | ⟨hfound, rfl, hlooks⟩ | ⟨hfound, hempty, hlooks⟩ :=
    closing_cases .rbrace h
  · rw [hfound]
    exact hlooks.follows (hpasses.follows (.pure rfl h₁))
  · rw [hfound]
    exact hlooks.follows (sign_follows .rbrace h).stop
  · rw [hfound, hempty]
    refine hlooks.follows (looks_save.follows ?_)
    refine (statement_follows h (by omega)).bind fun q₁ a₁ h₁ => ?_
    have := a₁.shorter
    refine (looks_leave (ne_of_ahead_shorter h h₁)).follows ?_
    refine (statements_follows h₁ (by omega)).after.bind fun q₂ a₂ h₂ => ?_
    exact .pure rfl h₂
termination_by limit
decreasing_by all_goals omega

end

/-! ### Members -/

section

variable {tokens ts : List Token} {p limit : Nat}

theorem parameter_follows (h : ahead tokens p = ts) (hlimit : 2 * ts.length < limit) :
    Follows tokens p (Steps.parameter limit) (parseParameter ts) := by
  unfold Steps.parameter parseParameter
  refine (ident_follows h).bind fun q₁ a₁ h₁ => ?_
  have := a₁.shorter
  refine (typeClause_follows h₁ (by omega)).after.bind fun q₂ a₂ h₂ => ?_
  exact .pure rfl h₂

theorem parameters_follows (h : ahead tokens p = ts) (hlimit : 2 * ts.length + 1 < limit) :
    Follows tokens p (Steps.parameters limit) (parseParameters ts) := by
  induction limit generalizing p ts with
  | zero => omega
  | succ limit ih =>
    rw [Steps.parameters, parseParameters]
    refine (parameter_follows h (by omega)).bind fun q₁ a₁ h₁ => ?_
    dsimp only
    obtain ⟨hfound, heat⟩ | ⟨a₂, hfound, heat, h₂⟩ :=
      eat_cases_after (.sign .comma) h₁ (by decide) a₁.shorter
    · rw [hfound]
      exact heat.follows (.pure rfl h₁)
    · rw [hfound]
      have := a₂.shorter
      refine heat.follows ?_
      refine (ih h₂ (by omega)).after.bind fun q₃ a₃ h₃ => ?_
      exact .pure rfl h₃

theorem parameterList_follows (h : ahead tokens p = ts) (hlimit : 2 * ts.length < limit) :
    Follows tokens p (Steps.parameterList limit) (parseParameterList ts) := by
  unfold Steps.parameterList parseParameterList
  refine (sign_follows _ h).bind fun q₁ a₁ h₁ => ?_
  have := a₁.shorter
  dsimp only
  obtain ⟨hfound, hcheck⟩ | ⟨a₂, hfound, hcheck, hsign, h₂⟩ := sign_cases .rparen h₁
  · rw [acceptAfter?, findAfter?, hfound]
    refine hcheck.follows ?_
    refine (parameters_follows h₁ (by omega)).after.bind fun q₂ a₂ h₂ => ?_
    refine (sign_follows _ h₂).after.bind fun q₃ a₃ h₃ => ?_
    exact .pure rfl h₃
  · rw [acceptAfter?, findAfter?, hfound]
    exact hcheck.follows (hsign.follows (.pure rfl h₂))

theorem fields_follows (h : ahead tokens p = ts) (hlimit : 2 * ts.length + 1 < limit) :
    Follows tokens p (Steps.fields limit) (parseFields ts) := by
  induction limit generalizing p ts with
  | zero => omega
  | succ limit ih =>
    rw [Steps.fields, parseFields]
    obtain ⟨a₁, hfound, hlooks, hpasses, h₁⟩ | ⟨hfound, rfl, hlooks⟩ | ⟨hfound, hempty, hlooks⟩ :=
      closing_cases .rbrace h
    · rw [hfound]
      exact hlooks.follows (hpasses.follows (.pure rfl h₁))
    · rw [hfound]
      exact hlooks.follows (sign_follows .rbrace h).stop
    · rw [hfound, hempty]
      refine hlooks.follows ?_
      refine (parameter_follows h (by omega)).bind fun q₁ a₁ h₁ => ?_
      dsimp only
      obtain ⟨hcomma, heat⟩ | ⟨a₂, hcomma, heat, h₂⟩ :=
        eat_cases_after (.sign .comma) h₁ (by decide) a₁.shorter
      · rw [hcomma]
        refine heat.follows ?_
        refine (sign_follows _ h₁).after.bind fun q₂ a₂ h₂ => ?_
        exact .pure rfl h₂
      · rw [hcomma]
        have := a₂.shorter
        refine heat.follows ?_
        refine (ih h₂ (by omega)).after.bind fun q₃ a₃ h₃ => ?_
        exact .pure rfl h₃

theorem functionBehind_follows (visibility : Option Span) (h : ahead tokens p = ts)
    (hlimit : 8 * ts.length + 2 < limit) :
    Follows tokens p (Steps.functionBehind visibility limit) (parseFunction visibility ts) := by
  unfold Steps.functionBehind parseFunction
  refine (keyword_follows _ h).bind fun q₁ a₁ h₁ => ?_
  refine (ident_follows h₁).after.bind fun q₂ a₂ h₂ => ?_
  have := a₂.shorter
  refine (parameterList_follows h₂ (by omega)).after.bind fun q₃ a₃ h₃ => ?_
  have := a₃.shorter
  refine (optionalTypeClause_follows h₃ (by omega)).afterOptional.bind fun q₄ a₄ h₄ => ?_
  have := a₄.shorter
  refine (block_follows h₄ (by omega)).after.bind fun q₅ a₅ h₅ => ?_
  exact .pure rfl h₅

theorem external_follows (h : ahead tokens p = ts) (hlimit : 2 * ts.length < limit) :
    Follows tokens p (Steps.external limit) (parseExternal ts) := by
  unfold Steps.external parseExternal
  refine (keyword_follows _ h).bind fun q₁ a₁ h₁ => ?_
  refine (keyword_follows _ h₁).after.bind fun q₂ a₂ h₂ => ?_
  refine (ident_follows h₂).after.bind fun q₃ a₃ h₃ => ?_
  have := a₃.shorter
  refine (parameterList_follows h₃ (by omega)).after.bind fun q₄ a₄ h₄ => ?_
  have := a₄.shorter
  refine (optionalTypeClause_follows h₄ (by omega)).afterOptional.bind fun q₅ a₅ h₅ => ?_
  refine (eat_follows h₅ (by decide)).afterOptional.bind fun q₆ a₆ h₆ => ?_
  exact .pure rfl h₆

theorem struct_follows (h : ahead tokens p = ts) (hlimit : 2 * ts.length + 1 < limit) :
    Follows tokens p (Steps.struct limit) (parseStruct ts) := by
  unfold Steps.struct parseStruct
  refine (keyword_follows _ h).bind fun q₁ a₁ h₁ => ?_
  refine (ident_follows h₁).after.bind fun q₂ a₂ h₂ => ?_
  refine (sign_follows _ h₂).after.bind fun q₃ a₃ h₃ => ?_
  have := a₃.shorter
  refine (fields_follows h₃ (by omega)).after.bind fun q₄ a₄ h₄ => ?_
  refine (eat_follows h₄ (by decide)).afterOptional.bind fun q₅ a₅ h₅ => ?_
  exact .pure rfl h₅

theorem directive_follows (word : Keyword) (make : Span → Ident → Member)
    (h : ahead tokens p = ts) :
    Follows tokens p (Steps.directive word make) (parseDirective word make ts) := by
  unfold Steps.directive parseDirective
  refine (keyword_follows _ h).bind fun q₁ a₁ h₁ => ?_
  refine (ident_follows h₁).after.bind fun q₂ a₂ h₂ => ?_
  refine (eat_follows h₂ (by decide)).afterOptional.bind fun q₃ a₃ h₃ => ?_
  exact .pure rfl h₃

theorem globalStatement_follows (h : ahead tokens p = ts) (hlimit : 8 * ts.length + 8 < limit) :
    Follows tokens p (Steps.statement limit >>= fun inner => pure (.statement inner))
      (parseGlobalStatement ts) := by
  unfold parseGlobalStatement
  refine (statement_follows h hlimit).bind fun q₁ a₁ h₁ => ?_
  exact .pure rfl h₁

theorem member_follows (h : ahead tokens p = ts) (hlimit : 8 * ts.length + 8 < limit) :
    Follows tokens p (Steps.member limit) (parseMember ts) := by
  unfold Steps.member
  refine (looks_nextKind h).follows ?_
  generalize hnext : nextKind ts = next
  split <;> rw [parseMember, hnext]
  · obtain ⟨hset, heat⟩ | ⟨a₁, hset, -⟩ := eat_cases (.keyword .setWord) h (by decide)
    · exact heat.follows (functionBehind_follows none h (by omega))
    · simp [nextKind_of_accept? hset] at hnext
  · have hpos : 1 ≤ ts.length := by
      cases ts with
      | nil => cases hnext
      | cons t rest => exact Nat.succ_pos _
    refine (looks_kindAhead? h hpos).follows ?_
    split
    · obtain ⟨hset, -⟩ | ⟨a₁, hset, heat, h₁⟩ := eat_cases (.keyword .setWord) h (by decide)
      · exact absurd hnext (accept?_eq_none_iff.1 hset)
      · rw [takeKeyword_of_accept? hset]
        have := a₁.shorter
        exact heat.follows (functionBehind_follows _ h₁ (by omega)).after
    · exact globalStatement_follows h hlimit
  · exact external_follows h (by omega)
  · exact struct_follows h (by omega)
  · exact directive_follows _ _ h
  · exact directive_follows _ _ h
  · split <;> try contradiction
    exact globalStatement_follows h hlimit

/-- A reading of all tokens, as one that has no token left. -/
def allRead (outcome : Except Mismatch (List Member)) : Parse (List Member) 1 :=
  outcome.map fun members => ⟨members, [], Nat.zero_lt_one⟩

theorem allRead_parseMembers_cons (t : Token) (rest : List Token) :
    allRead (parseMembers (t :: rest)) =
      (parseMember (t :: rest) >>= fun a => allRead (parseMembers a.rest) >>= fun others =>
        return ⟨a.value :: others.value, others.rest, others.shorter⟩) := by
  rw [parseMembers, if_neg (by simp)]
  cases parseMember (t :: rest) with
  | error mismatch => rfl
  | ok a =>
    show allRead (parseMembers a.rest >>= fun others => return a.value :: others) =
      (allRead (parseMembers a.rest) >>= fun others =>
        return ⟨a.value :: others.value, others.rest, others.shorter⟩)
    cases parseMembers a.rest <;> rfl

theorem members_follows (h : ahead tokens p = ts) (hlimit : 8 * ts.length + 9 < limit) :
    Follows tokens p (Steps.members limit) (allRead (parseMembers ts)) := by
  induction limit generalizing p ts with
  | zero => omega
  | succ limit ih =>
    rw [Steps.members]
    refine (looks_atEnd h).follows ?_
    cases ts with
    | nil =>
      rw [parseMembers]
      exact .pure rfl h
    | cons t rest =>
      rw [allRead_parseMembers_cons]
      refine looks_save.follows ?_
      refine (member_follows h (by omega)).bind fun q₁ a₁ h₁ => ?_
      have := a₁.shorter
      refine (looks_leave (ne_of_ahead_shorter h h₁)).follows ?_
      refine (ih h₁ (by omega)).bind fun q₂ a₂ h₂ => ?_
      exact .pure rfl h₂

end

end TodLang
