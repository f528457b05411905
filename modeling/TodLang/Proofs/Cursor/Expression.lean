import TodLang.Proofs.Cursor.Follows
import TodLang.Proofs.Grammar.Expression
/-!
The readers of written types and of expressions with a cursor do what the readers of lists do, if
their limit is large enough for the tokens ahead. The lemmas go call by call. Only two places need
more: where a reader looks beyond the end mark and cannot go on, and where it goes back.
-/

namespace TodLang

/-! ### Written types -/

section

variable {tokens ts : List Token} {p limit : Nat}

/-- At the end mark it does not matter that `::` is looked for behind it: a name is missing. -/
theorem qualifiedName_follows (h : ahead tokens p = ts) :
    Follows tokens p Steps.qualifiedName (parseQualifiedName ts) := by
  unfold Steps.qualifiedName
  match ts, h with
  | [], h =>
    obtain ⟨kind, hkind⟩ := looks_kind 1
    refine hkind.follows ?_
    split
    · exact (ident_follows h).stop
    · exact (ident_follows h).stop
  | t :: rest, h =>
    unfold parseQualifiedName
    refine (looks_kindAhead? h (Nat.succ_le_succ (Nat.zero_le _))).follows ?_
    simp only [isQualified, decide_eq_true_eq]
    split
    · refine (ident_follows h).bind fun q₁ a₁ h₁ => ?_
      refine (sign_follows _ h₁).after.bind fun q₂ a₂ h₂ => ?_
      refine (ident_follows h₂).after.bind fun q₃ a₃ h₃ => ?_
      exact .pure rfl h₃
    · refine (ident_follows h).bind fun q₁ a₁ h₁ => ?_
      exact .pure rfl h₁

theorem tryQualifiedName_tries (h : ahead tokens p = ts) :
    Tries tokens p Steps.tryQualifiedName (tryQualifiedName? ts) := by
  unfold Steps.tryQualifiedName
  match ts, h with
  | [], h =>
    have heat : Tries tokens p (Steps.eat .identifier) (accept? .identifier []) :=
      eat_tries h (by decide)
    obtain ⟨kind, hkind⟩ := looks_kind 1
    refine hkind.tries ?_
    split
    · exact heat.stop rfl
    · exact heat.stop rfl
  | t :: rest, h =>
    unfold tryQualifiedName?
    refine (looks_kindAhead? h (Nat.succ_le_succ (Nat.zero_le _))).tries ?_
    simp only [isQualified, decide_eq_true_eq]
    split
    · refine (eat_tries h (by decide)).bind rfl fun q₁ a₁ h₁ => ?_
      refine (eat_tries_after h₁ (by decide) _).bind rfl fun q₂ a₂ h₂ => ?_
      refine (eat_tries_after h₂ (by decide) _).bind rfl fun q₃ a₃ h₃ => ?_
      exact .pure rfl h₃
    · refine (eat_tries h (by decide)).bind rfl fun q₁ a₁ h₁ => ?_
      exact .pure rfl h₁

mutual

theorem typeClause_follows {tokens ts : List Token} {p limit : Nat} (h : ahead tokens p = ts)
    (hlimit : 2 * ts.length < limit) :
    Follows tokens p (Steps.typeClause limit) (parseTypeClause ts) := by
  obtain ⟨limit, rfl⟩ := Nat.exists_eq_add_one_of_ne_zero (Nat.ne_zero_of_lt hlimit)
  rw [Steps.typeClause, parseTypeClause]
  refine (qualifiedName_follows h).bind fun q₁ a₁ h₁ => ?_
  dsimp only
  obtain ⟨hfound, heat⟩ | ⟨a₂, hfound, heat, h₂⟩ :=
    eat_cases_after (.sign .lbrack) h₁ (by decide) a₁.shorter
  · rw [hfound]
    exact heat.follows (.pure rfl h₁)
  · rw [hfound]
    have := a₂.shorter
    refine heat.follows ?_
    refine (typeArguments_follows h₂ (by omega)).after.bind fun q₃ a₃ h₃ => ?_
    refine (sign_follows _ h₃).after.bind fun q₄ a₄ h₄ => ?_
    exact .pure rfl h₄
termination_by limit
decreasing_by all_goals omega

theorem typeArguments_follows {tokens ts : List Token} {p limit : Nat} (h : ahead tokens p = ts)
    (hlimit : 2 * ts.length + 1 < limit) :
    Follows tokens p (Steps.typeArguments limit) (parseTypeArguments ts) := by
  obtain ⟨limit, rfl⟩ := Nat.exists_eq_add_one_of_ne_zero (Nat.ne_zero_of_lt hlimit)
  rw [Steps.typeArguments, parseTypeArguments]
  refine (typeClause_follows h (by omega)).bind fun q₁ a₁ h₁ => ?_
  dsimp only
  obtain ⟨hfound, heat⟩ | ⟨a₂, hfound, heat, h₂⟩ :=
    eat_cases_after (.sign .comma) h₁ (by decide) a₁.shorter
  · rw [hfound]
    exact heat.follows (.pure rfl h₁)
  · rw [hfound]
    have := a₂.shorter
    refine heat.follows ?_
    refine (typeArguments_follows h₂ (by omega)).after.bind fun q₃ a₃ h₃ => ?_
    exact .pure rfl h₃
termination_by limit
decreasing_by all_goals omega

end

theorem optionalTypeClause_follows (h : ahead tokens p = ts) (hlimit : 2 * ts.length < limit) :
    Follows tokens p (Steps.optionalTypeClause limit) (parseOptionalTypeClause ts) := by
  unfold Steps.optionalTypeClause parseOptionalTypeClause
  refine (looks_check h (by decide)).follows ?_
  simp only [decide_eq_true_eq]
  split
  · refine (typeClause_follows h hlimit).bind fun q₁ a₁ h₁ => ?_
    exact .pure rfl h₁
  · exact .pure rfl h

/-- Without a name there is no type to be found. -/
theorem tryTypeClause?_eq_none {ts : List Token} (h : nextKind ts ≠ some .identifier) :
    tryTypeClause? ts = none := by
  have hname : tryQualifiedName? ts = none := by
    unfold tryQualifiedName?
    rw [accept?_eq_none_iff.2 h]
    split <;> rfl
  rw [tryTypeClause?, hname]
  rfl

mutual

theorem tryTypeClause_tries {tokens ts : List Token} {p limit : Nat} (h : ahead tokens p = ts)
    (hlimit : 2 * ts.length < limit) :
    Tries tokens p (Steps.tryTypeClause limit) (tryTypeClause? ts) := by
  obtain ⟨limit, rfl⟩ := Nat.exists_eq_add_one_of_ne_zero (Nat.ne_zero_of_lt hlimit)
  rw [Steps.tryTypeClause, tryTypeClause?]
  refine (tryQualifiedName_tries h).bind rfl fun q₁ a₁ h₁ => ?_
  dsimp only
  obtain ⟨hfound, heat⟩ | ⟨a₂, hfound, heat, h₂⟩ :=
    eat_cases_after (.sign .lbrack) h₁ (by decide) a₁.shorter
  · rw [hfound]
    exact heat.tries (.pure rfl h₁)
  · rw [hfound]
    have := a₂.shorter
    refine heat.tries ?_
    refine (tryTypeArguments_tries h₂ (by omega)).findAfter?.bind rfl fun q₃ a₃ h₃ => ?_
    refine (eat_tries_after h₃ (by decide) _).bind rfl fun q₄ a₄ h₄ => ?_
    exact .pure rfl h₄
termination_by limit
decreasing_by all_goals omega

theorem tryTypeArguments_tries {tokens ts : List Token} {p limit : Nat} (h : ahead tokens p = ts)
    (hlimit : 2 * ts.length + 1 < limit) :
    Tries tokens p (Steps.tryTypeArguments limit) (tryTypeArguments? ts) := by
  obtain ⟨limit, rfl⟩ := Nat.exists_eq_add_one_of_ne_zero (Nat.ne_zero_of_lt hlimit)
  rw [Steps.tryTypeArguments, tryTypeArguments?]
  refine (looks_check h (by decide)).tries ?_
  simp only [decide_eq_true_eq]
  split
  · refine (tryTypeClause_tries h (by omega)).bind rfl fun q₁ a₁ h₁ => ?_
    dsimp only
    obtain ⟨hfound, heat⟩ | ⟨a₂, hfound, heat, h₂⟩ :=
      eat_cases_after (.sign .comma) h₁ (by decide) a₁.shorter
    · rw [hfound]
      exact heat.tries (.pure rfl h₁)
    · rw [hfound]
      have := a₂.shorter
      refine heat.tries ?_
      refine (tryTypeArguments_tries h₂ (by omega)).findAfter?.bind rfl fun q₃ a₃ h₃ => ?_
      exact .pure rfl h₃
  · next hnext =>
    rw [tryTypeClause?_eq_none hnext]
    exact .none
termination_by limit
decreasing_by all_goals omega

end

theorem tryCastHead_tries (h : ahead tokens p = ts) (hlimit : 2 * ts.length < limit) :
    Tries tokens p (Steps.tryCastHead limit) (tryCastHead? ts) := by
  unfold Steps.tryCastHead tryCastHead?
  refine (tryTypeClause_tries h hlimit).bind rfl fun q₁ a₁ h₁ => ?_
  refine (eat_tries_after h₁ (by decide) _).bind rfl fun q₂ a₂ h₂ => ?_
  exact .pure rfl h₂

end

/-! ### Expressions -/

/-- Behind the name in front of an edit or a step stands the sign. -/
theorem nextKind_of_opening {ts : List Token} {s : Sign} {a : Parsed Ident ts.length}
    (h : opening ts = .edit s ∨ opening ts = .step s) (hident : takeIdent ts = .ok a) :
    nextKind a.rest = some (.sign s) := by
  have hshape : ∃ target sign others, ts = target :: sign :: others ∧
      target.kind = .identifier ∧ sign.kind = .sign s := by
    unfold opening at h
    split at h
    · next target sign others =>
      split at h
      · next htarget hsign =>
        refine ⟨target, sign, others, rfl, htarget, ?_⟩
        rw [hsign]
        split at h
        · simp at h
        · split at h
          · simpa using h
          · split at h
            · simpa using h
            · simp at h
      · simp at h
    · simp at h
  obtain ⟨target, sign, others, rfl, htarget, hsign⟩ := hshape
  rw [takeIdent_cons htarget] at hident
  cases hident
  exact congrArg some hsign

/-- Where `main` stands in front of a name, a token follows it. -/
theorem length_pos_of_atMain {ts : List Token} {a : Parsed Ident ts.length}
    (h : atMain ts = true) (hident : takeIdent ts = .ok a) : 0 < a.rest.length := by
  match ts, h with
  | [], h | [_], h => cases h
  | word :: name :: rest, h =>
    have hword : word.kind = .identifier := by
      simp only [atMain, Bool.and_eq_true, decide_eq_true_eq] at h
      exact h.1.1.1
    rw [takeIdent_cons hword] at hident
    cases hident
    exact Nat.succ_pos _

/-- If the end mark comes right behind a package and `::`, it does not matter that a bracket is
looked for beyond it: no written type can be read there. -/
theorem fourth_cases {tokens ts : List Token} {p : Nat} (h : ahead tokens p = ts)
    (hsecond : kindAt ts 1 = some (.sign .pathSep)) :
    Looks tokens p (Steps.kindAhead? 3) (kindAt ts 3) ∨
      kindAt ts 3 = none ∧ tryCastHead? ts = none := by
  match ts, h with
  | [], _ | [_], _ => cases hsecond
  | _ :: _ :: _ :: _, h => exact .inl (looks_kindAhead? h (by simp))
  | [package, separator], _ =>
    refine .inr ⟨rfl, ?_⟩
    have hname : tryQualifiedName? [package, separator] = none := by
      have hsign : separator.kind = .sign .pathSep := Option.some.inj hsecond
      rw [tryQualifiedName?, if_pos (by simp [isQualified, hsecond])]
      by_cases hpackage : package.kind = .identifier
      · simp [accept?, acceptAfter?, findAfter?, Parsed.below, hpackage, hsign]
      · simp [accept?, hpackage]
    rw [tryCastHead?, tryTypeClause?, hname]
    rfl

mutual

theorem expression_follows {tokens ts : List Token} {p limit : Nat} (h : ahead tokens p = ts)
    (hlimit : 8 * ts.length + 5 < limit) :
    Follows tokens p (Steps.expression limit) (parseExpression ts) := by
  obtain ⟨limit, rfl⟩ := Nat.exists_eq_add_one_of_ne_zero (Nat.ne_zero_of_lt hlimit)
  rw [Steps.expression, parseExpression]
  refine looks_triple.follows ?_
  rw [opening_window h]
  cases hopening : opening ts with
  | assignment => exact assignment_follows h (by omega)
  | edit s =>
    refine (ident_follows h).bind_of fun q₁ a₁ hident h₁ => ?_
    have hnext := nextKind_of_opening (.inl hopening) hident
    refine (operator_follows h₁ hnext).after.bind fun q₂ a₂ h₂ => ?_
    have := a₂.shorter
    refine (expression_follows h₂ (by omega)).after.bind fun q₃ a₃ h₃ => ?_
    exact .pure rfl h₃
  | step s =>
    refine (ident_follows h).bind_of fun q₁ a₁ hident h₁ => ?_
    have hnext := nextKind_of_opening (.inr hopening) hident
    refine (place_sign_follows h₁ hnext).after.bind fun q₂ a₂ h₂ => ?_
    refine (sign_follows _ h₂).after.bind fun q₃ a₃ h₃ => ?_
    exact .pure rfl h₃
  | operand => exact operation_follows 0 h (by omega)
termination_by limit
decreasing_by all_goals omega

theorem assignment_follows {tokens ts : List Token} {p limit : Nat} (h : ahead tokens p = ts)
    (hlimit : 8 * ts.length < limit) :
    Follows tokens p (Steps.assignment limit) (parseAssignment ts) := by
  obtain ⟨limit, rfl⟩ := Nat.exists_eq_add_one_of_ne_zero (Nat.ne_zero_of_lt hlimit)
  rw [Steps.assignment, parseAssignment]
  refine (ident_follows h).bind fun q₁ a₁ h₁ => ?_
  refine (sign_follows _ h₁).after.bind fun q₂ a₂ h₂ => ?_
  have := a₂.shorter
  refine (expression_follows h₂ (by omega)).after.bind fun q₃ a₃ h₃ => ?_
  exact .pure rfl h₃
termination_by limit
decreasing_by all_goals omega

theorem operation_follows (parent : Nat) {tokens ts : List Token} {p limit : Nat}
    (h : ahead tokens p = ts) (hlimit : 8 * ts.length + 4 < limit) :
    Follows tokens p (Steps.operation parent limit) (parseOperation parent ts) := by
  obtain ⟨limit, rfl⟩ := Nat.exists_eq_add_one_of_ne_zero (Nat.ne_zero_of_lt hlimit)
  rw [Steps.operation, parseOperation]
  refine looks_current.follows ?_
  rw [leadingOperator?_current h]
  cases hsign : leadingOperator? parent ts with
  | some s =>
    refine (operator_follows h (nextKind_of_leadingOperator? hsign)).bind fun q₁ a₁ h₁ => ?_
    have := a₁.shorter
    refine (operation_follows _ h₁ (by omega)).after.bind fun q₂ a₂ h₂ => ?_
    have := a₂.shorter
    exact (joined_follows parent _ h₂ (by omega)).afterOptional
  | none =>
    refine (postfixed_follows h (by omega)).bind fun q₁ a₁ h₁ => ?_
    have := a₁.shorter
    exact (joined_follows parent _ h₁ (by omega)).afterOptional
termination_by limit
decreasing_by all_goals omega

theorem joined_follows (parent : Nat) (left : Expression) {tokens ts : List Token} {p limit : Nat}
    (h : ahead tokens p = ts) (hlimit : 8 * ts.length < limit) :
    Follows tokens p (Steps.joined parent left limit) (parseJoined parent left ts) := by
  obtain ⟨limit, rfl⟩ := Nat.exists_eq_add_one_of_ne_zero (Nat.ne_zero_of_lt hlimit)
  rw [Steps.joined, parseJoined]
  refine looks_current.follows ?_
  rw [joiningOperator?_current h]
  cases hsign : joiningOperator? parent ts with
  | none => exact .pure rfl h
  | some s =>
    refine (operator_follows h (joiningOperator?_eq_some hsign).1).bind fun q₁ a₁ h₁ => ?_
    have := a₁.shorter
    refine (operation_follows _ h₁ (by omega)).after.bind fun q₂ a₂ h₂ => ?_
    have := a₂.shorter
    exact (joined_follows parent _ h₂ (by omega)).afterOptional.optional
termination_by limit
decreasing_by all_goals omega

theorem postfixed_follows {tokens ts : List Token} {p limit : Nat} (h : ahead tokens p = ts)
    (hlimit : 8 * ts.length + 3 < limit) :
    Follows tokens p (Steps.postfixed limit) (parsePostfix ts) := by
  obtain ⟨limit, rfl⟩ := Nat.exists_eq_add_one_of_ne_zero (Nat.ne_zero_of_lt hlimit)
  rw [Steps.postfixed, parsePostfix]
  refine (primary_follows h (by omega)).bind fun q₁ a₁ h₁ => ?_
  have := a₁.shorter
  exact (suffixes_follows _ h₁ (by omega)).afterOptional
termination_by limit
decreasing_by all_goals omega

theorem suffixes_follows (array : Expression) {tokens ts : List Token} {p limit : Nat}
    (h : ahead tokens p = ts) (hlimit : 8 * ts.length + 1 < limit) :
    Follows tokens p (Steps.suffixes array limit) (parseSuffixes array ts) := by
  obtain ⟨limit, rfl⟩ := Nat.exists_eq_add_one_of_ne_zero (Nat.ne_zero_of_lt hlimit)
  rw [Steps.suffixes, parseSuffixes]
  refine (looks_check h (by decide)).follows ?_
  simp only [decide_eq_true_eq]
  split
  · refine (suffix_follows array h (by omega)).bind fun q₁ a₁ h₁ => ?_
    split
    · exact .pure rfl h₁
    · have := a₁.shorter
      exact (suffixes_follows _ h₁ (by omega)).afterOptional.optional
  · exact .pure rfl h
termination_by limit
decreasing_by all_goals omega

theorem suffix_follows (array : Expression) {tokens ts : List Token} {p limit : Nat}
    (h : ahead tokens p = ts) (hlimit : 8 * ts.length < limit) :
    Follows tokens p (Steps.suffix array limit) (parseSuffix array ts) := by
  obtain ⟨limit, rfl⟩ := Nat.exists_eq_add_one_of_ne_zero (Nat.ne_zero_of_lt hlimit)
  rw [Steps.suffix, parseSuffix]
  refine (sign_follows _ h).bind fun q₁ a₁ h₁ => ?_
  have := a₁.shorter
  refine (expression_follows h₁ (by omega)).after.bind fun q₂ a₂ h₂ => ?_
  refine (sign_follows _ h₂).after.bind fun q₃ a₃ h₃ => ?_
  dsimp only
  obtain ⟨hfound, heat⟩ | ⟨a₄, hfound, heat, h₄⟩ :=
    eat_cases_after (.sign .assign) h₃ (by decide) a₃.shorter
  · rw [hfound]
    exact heat.follows (.pure rfl h₃)
  · rw [hfound]
    have := a₄.shorter
    refine heat.follows ?_
    refine (expression_follows h₄ (by omega)).after.bind fun q₅ a₅ h₅ => ?_
    exact .pure rfl h₅
termination_by limit
decreasing_by all_goals omega

theorem primary_follows {tokens ts : List Token} {p limit : Nat} (h : ahead tokens p = ts)
    (hlimit : 8 * ts.length + 2 < limit) :
    Follows tokens p (Steps.primary limit) (parsePrimary ts) := by
  obtain ⟨limit, rfl⟩ := Nat.exists_eq_add_one_of_ne_zero (Nat.ne_zero_of_lt hlimit)
  rw [Steps.primary]
  refine (looks_nextKind h).follows ?_
  generalize hnext : nextKind ts = next
  split <;> rw [parsePrimary, hnext]
  · refine (sign_follows _ h).bind fun q₁ a₁ h₁ => ?_
    have := a₁.shorter
    refine (expression_follows h₁ (by omega)).after.bind fun q₂ a₂ h₂ => ?_
    refine (sign_follows _ h₂).after.bind fun q₃ a₃ h₃ => ?_
    exact .pure rfl h₃
  · refine (place_keyword_follows h hnext).bind fun q₁ a₁ h₁ => ?_
    exact .pure rfl h₁
  · exact made_follows h (by omega)
  · refine (sign_follows _ h).bind fun q₁ a₁ h₁ => ?_
    refine (ident_follows h₁).after.bind fun q₂ a₂ h₂ => ?_
    exact .pure rfl h₂
  · refine (sign_follows _ h).bind fun q₁ a₁ h₁ => ?_
    have := a₁.shorter
    refine (primary_follows h₁ (by omega)).after.bind fun q₂ a₂ h₂ => ?_
    exact .pure rfl h₂
  · refine looks_pair.follows ?_
    rw [atMain_window h]
    split
    · next hmain => exact ofMain_follows h hmain (by omega)
    · exact named_follows h hnext (by omega)
  · split
    · next hliteral =>
      split <;> rename_i heq <;> cases heq <;> try contradiction
      rw [if_pos hliteral]
      refine (advance_follows h hnext).bind fun q₁ a₁ h₁ => ?_
      exact .pure rfl h₁
    · next hliteral =>
      split <;> rename_i heq <;> cases heq <;> try contradiction
      rw [if_neg hliteral]
      exact .unexpected _ h
  · exact .unexpected _ h
termination_by limit
decreasing_by all_goals omega

theorem ofMain_follows {tokens ts : List Token} {p limit : Nat} (h : ahead tokens p = ts)
    (hmain : atMain ts = true) (hlimit : 8 * ts.length < limit) :
    Follows tokens p (Steps.ofMain limit) (parseMain ts) := by
  obtain ⟨limit, rfl⟩ := Nat.exists_eq_add_one_of_ne_zero (Nat.ne_zero_of_lt hlimit)
  rw [Steps.ofMain, parseMain]
  refine (ident_follows h).bind_of fun q₁ a₁ hident h₁ => ?_
  have := a₁.shorter
  refine (looks_kindAhead? h₁ (length_pos_of_atMain hmain hident)).follows ?_
  dsimp only
  by_cases hparen : kindAt a₁.rest 1 = some (.sign .lparen)
  · rw [hparen]
    refine (call_follows h₁ (by omega)).after.bind fun q₂ a₂ h₂ => ?_
    exact .pure rfl h₂
  by_cases hassign : kindAt a₁.rest 1 = some (.sign .assign)
  · rw [hassign]
    refine (assignment_follows h₁ (by omega)).after.bind fun q₂ a₂ h₂ => ?_
    exact .pure rfl h₂
  · -- to both readers anything else means a plain name
    simp only []
    refine (ident_follows h₁).after.bind fun q₂ a₂ h₂ => ?_
    exact .pure rfl h₂
termination_by limit
decreasing_by all_goals omega

theorem named_follows {tokens ts : List Token} {p limit : Nat} (h : ahead tokens p = ts)
    (hnext : nextKind ts = some .identifier) (hlimit : 8 * ts.length + 1 < limit) :
    Follows tokens p (Steps.named limit) (parseNamed ts) := by
  obtain ⟨limit, rfl⟩ := Nat.exists_eq_add_one_of_ne_zero (Nat.ne_zero_of_lt hlimit)
  match ts, h, hnext with
  | word :: rest, h, hnext =>
  have hword : word.kind = .identifier := Option.some.inj hnext
  rw [Steps.named]
  refine (looks_kindAhead? h (Nat.succ_le_succ (Nat.zero_le _))).follows ?_
  generalize hsecond : kindAt (word :: rest) 1 = second
  have hlength : (word :: rest).length = rest.length + 1 := rfl
  obtain ⟨-, -, -, hrest⟩ := ahead_eq_cons h
  have hident := passes_ident h hword
  have htry : Tries tokens p (Steps.tryCastHead limit) (tryCastHead? (word :: rest)) :=
    tryCastHead_tries h (by omega)
  split <;> rw [parseNamed, hsecond]
  · exact call_follows h (by omega)
  · have hcall : Follows tokens (p + 1) (Steps.callOf word.ident limit)
        (parsePackageCall (word :: rest)) := by
      rw [parsePackageCall, takeIdent_cons hword]
      exact callOf_follows word.ident hrest (Nat.lt_succ_self rest.length) (by omega)
    obtain hlooks | ⟨hfourth, hfound⟩ := fourth_cases h hsecond
    · refine hlooks.follows ?_
      by_cases hbracket : kindAt (word :: rest) 3 = some (.sign .lbrack)
      · rw [if_pos hbracket, if_pos hbracket]
        refine looks_save.follows ?_
        cases hfound : tryCastHead? (word :: rest) with
        | some a =>
          rw [hfound] at htry
          have := a.shorter
          exact htry.follows fun q h₁ => cast_follows h₁ a.value a.shorter (by omega)
        | none =>
          rw [hfound] at htry
          exact htry.retry rfl hident hcall
      · rw [if_neg hbracket, if_neg hbracket]
        exact hident.follows hcall
    · obtain ⟨kind, hlooks⟩ := looks_kind 3
      rw [hfound] at htry
      rw [if_neg (by simp [hfourth])]
      refine hlooks.follows ?_
      split
      · exact looks_save.follows (htry.retry rfl hident hcall)
      · exact hident.follows hcall
  · exact memberOf_follows h (by omega)
  · refine looks_save.follows ?_
    cases hfound : tryCastHead? (word :: rest) with
    | some a =>
      rw [hfound] at htry
      have := a.shorter
      exact htry.follows fun q h₁ => cast_follows h₁ a.value a.shorter (by omega)
    | none =>
      rw [hfound] at htry
      rw [takeIdent_cons hword]
      exact htry.retry rfl hident (suffix_follows _ hrest (by omega)).after
  · split <;> try contradiction
    refine (ident_follows h).bind fun q₁ a₁ h₁ => ?_
    exact .pure rfl h₁
termination_by limit
decreasing_by all_goals omega

theorem cast_follows {tokens ts : List Token} {p limit n : Nat} (h : ahead tokens p = ts)
    (type : TypeClause) (hn : ts.length < n) (hlimit : 8 * ts.length + 7 < limit) :
    Follows tokens p (Steps.cast type limit)
      (after hn (parseArguments .rparen ts) >>= fun a =>
        (return ⟨.cast type a.value.1 a.value.2, a.rest, a.shorter⟩ : Parse _ n)) := by
  obtain ⟨limit, rfl⟩ := Nat.exists_eq_add_one_of_ne_zero (Nat.ne_zero_of_lt hlimit)
  rw [Steps.cast]
  refine (arguments_follows .rparen h (by omega)).after.bind fun q₁ a₁ h₁ => ?_
  exact .pure rfl h₁
termination_by limit
decreasing_by all_goals omega

theorem callOf_follows (package : Ident) {tokens ts : List Token} {p limit n : Nat}
    (h : ahead tokens p = ts) (hn : ts.length < n) (hlimit : 8 * n < limit) :
    Follows tokens p (Steps.callOf package limit)
      (after hn (takeSign .pathSep ts) >>= fun a =>
        after a.shorter (takeIdent a.rest) >>= fun b =>
          after b.shorter (takeSign .lparen b.rest) >>= fun c =>
            after c.shorter (parseArguments .rparen c.rest) >>= fun d =>
              (return ⟨.packageCall package b.value d.value.1 d.value.2, d.rest, d.shorter⟩ :
                Parse Expression n)) := by
  obtain ⟨limit, rfl⟩ := Nat.exists_eq_add_one_of_ne_zero (Nat.ne_zero_of_lt hlimit)
  rw [Steps.callOf]
  refine (sign_follows _ h).after.bind fun q₁ a₁ h₁ => ?_
  refine (ident_follows h₁).after.bind fun q₂ a₂ h₂ => ?_
  refine (sign_follows _ h₂).after.bind fun q₃ a₃ h₃ => ?_
  have := a₃.shorter
  refine (arguments_follows .rparen h₃ (by omega)).after.bind fun q₄ a₄ h₄ => ?_
  exact .pure rfl h₄
termination_by limit
decreasing_by all_goals omega

theorem call_follows {tokens ts : List Token} {p limit : Nat} (h : ahead tokens p = ts)
    (hlimit : 8 * ts.length < limit) :
    Follows tokens p (Steps.call limit) (parseCall ts) := by
  obtain ⟨limit, rfl⟩ := Nat.exists_eq_add_one_of_ne_zero (Nat.ne_zero_of_lt hlimit)
  rw [Steps.call, parseCall]
  refine (ident_follows h).bind fun q₁ a₁ h₁ => ?_
  refine (sign_follows _ h₁).after.bind fun q₂ a₂ h₂ => ?_
  have := a₂.shorter
  refine (arguments_follows .rparen h₂ (by omega)).after.bind fun q₃ a₃ h₃ => ?_
  exact .pure rfl h₃
termination_by limit
decreasing_by all_goals omega

theorem memberOf_follows {tokens ts : List Token} {p limit : Nat} (h : ahead tokens p = ts)
    (hlimit : 8 * ts.length < limit) :
    Follows tokens p (Steps.memberOf limit) (parseMemberOf ts) := by
  obtain ⟨limit, rfl⟩ := Nat.exists_eq_add_one_of_ne_zero (Nat.ne_zero_of_lt hlimit)
  rw [Steps.memberOf, parseMemberOf]
  refine (ident_follows h).bind fun q₁ a₁ h₁ => ?_
  refine (sign_follows _ h₁).after.bind fun q₂ a₂ h₂ => ?_
  refine (ident_follows h₂).after.bind fun q₃ a₃ h₃ => ?_
  have := a₃.shorter
  dsimp only
  obtain ⟨hparen, heat⟩ | ⟨a₄, hparen, heat, h₄⟩ :=
    eat_cases (.sign .lparen) h₃ (by decide)
  · refine heat.follows ?_
    obtain ⟨hassign, heat⟩ | ⟨a₄, hassign, heat, h₄⟩ :=
      eat_cases (.sign .assign) h₃ (by decide)
    · refine heat.follows ?_
      have hnoparen := accept?_eq_none_iff.1 hparen
      have hnoassign := accept?_eq_none_iff.1 hassign
      generalize nextKind a₃.rest = next at hnoparen hnoassign
      dsimp only
      split <;> try contradiction
      exact .pure rfl h₃
    · rw [nextKind_of_accept? hassign, takeSign_of_accept? hassign]
      have := a₄.shorter
      refine heat.follows ?_
      refine (expression_follows h₄ (by omega)).after.bind fun q₅ a₅ h₅ => ?_
      exact .pure rfl h₅
  · rw [nextKind_of_accept? hparen, takeSign_of_accept? hparen]
    have := a₄.shorter
    refine heat.follows ?_
    refine (arguments_follows .rparen h₄ (by omega)).after.bind fun q₅ a₅ h₅ => ?_
    exact .pure rfl h₅
termination_by limit
decreasing_by all_goals omega

theorem made_follows {tokens ts : List Token} {p limit : Nat} (h : ahead tokens p = ts)
    (hlimit : 8 * ts.length < limit) :
    Follows tokens p (Steps.made limit) (parseMake ts) := by
  obtain ⟨limit, rfl⟩ := Nat.exists_eq_add_one_of_ne_zero (Nat.ne_zero_of_lt hlimit)
  rw [Steps.made, parseMake]
  refine (keyword_follows _ h).bind fun q₁ a₁ h₁ => ?_
  have := a₁.shorter
  refine (typeClause_follows h₁ (by omega)).after.bind fun q₂ a₂ h₂ => ?_
  have := a₂.shorter
  dsimp only
  obtain ⟨hfound, heat⟩ | ⟨a₃, hfound, heat, h₃⟩ :=
    eat_cases_after (.sign .lbrace) h₂ (by decide) a₂.shorter
  · rw [hfound]
    refine heat.follows ?_
    refine (sign_follows _ h₂).after.bind fun q₃ a₃ h₃ => ?_
    have := a₃.shorter
    split
    · refine (expression_follows h₃ (by omega)).after.bind fun q₄ a₄ h₄ => ?_
      refine (sign_follows _ h₄).after.bind fun q₅ a₅ h₅ => ?_
      exact .pure rfl h₅
    · refine (arguments_follows .rparen h₃ (by omega)).after.bind fun q₄ a₄ h₄ => ?_
      exact .pure rfl h₄
  · rw [hfound]
    have := a₃.shorter
    refine heat.follows ?_
    refine (arguments_follows .rbrace h₃ (by omega)).after.bind fun q₄ a₄ h₄ => ?_
    split
    · exact .pure rfl h₄
    · exact .pure rfl h₄
termination_by limit
decreasing_by all_goals omega

theorem arguments_follows (closing : Sign) {tokens ts : List Token} {p limit : Nat}
    (h : ahead tokens p = ts) (hlimit : 8 * ts.length + 6 < limit) :
    Follows tokens p (Steps.arguments closing limit) (parseArguments closing ts) := by
  obtain ⟨limit, rfl⟩ := Nat.exists_eq_add_one_of_ne_zero (Nat.ne_zero_of_lt hlimit)
  rw [Steps.arguments, parseArguments]
  obtain ⟨a₁, hfound, hlooks, hpasses, h₁⟩ | ⟨hfound, rfl, hlooks⟩ | ⟨hfound, hempty, hlooks⟩ :=
    closing_cases closing h
  · rw [hfound]
    exact hlooks.follows (hpasses.follows (.pure rfl h₁))
  · rw [hfound]
    exact hlooks.follows (sign_follows closing h).stop
  · rw [hfound, hempty]
    refine hlooks.follows ?_
    refine (expression_follows h (by omega)).bind fun q₁ a₁ h₁ => ?_
    dsimp only
    obtain ⟨hcomma, heat⟩ | ⟨a₂, hcomma, heat, h₂⟩ :=
      eat_cases_after (.sign .comma) h₁ (by decide) a₁.shorter
    · rw [hcomma]
      refine heat.follows ?_
      refine (sign_follows _ h₁).after.bind fun q₂ a₂ h₂ => ?_
      exact .pure rfl h₂
    · rw [hcomma]
      have := a₂.shorter
      refine heat.follows ?_
      refine (arguments_follows closing h₂ (by omega)).after.bind fun q₃ a₃ h₃ => ?_
      exact .pure rfl h₃
termination_by limit
decreasing_by all_goals omega

end

end TodLang
