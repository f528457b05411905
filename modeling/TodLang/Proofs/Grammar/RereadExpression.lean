import TodLang.Proofs.Grammar.Reread
/-!
What is written for an expression that was read is read as that expression again, at no place. The
lemmas go by induction on how it was read. For operators and for brackets, which go on behind what
was read so far, they say what a reader adds to the written form.
-/

namespace TodLang

/-! ### What is written -/

section

variable {ts rest : List Token} {e : Expression}

theorem ExpressionReading.nextKind_written (h : ExpressionReading ts e rest) (back : List Token) :
    nextKind (e.written ++ back) = nextKind ts := by
  obtain ⟨_, rfl, hspelling⟩ := h.spells
  exact SpellsExpression.nextKind_written hspelling (by simp) rest back

theorem PostfixReading.nextKind_written (h : PostfixReading ts e rest) (back : List Token) :
    nextKind (e.written ++ back) = nextKind ts := by
  obtain ⟨_, rfl, hspelling⟩ := h.spells
  exact hspelling.nextKind_written (by simp) rest back

theorem ExpressionReading.balanced_written (h : ExpressionReading ts e rest) :
    Balanced e.written := by
  obtain ⟨_, -, hspelling⟩ := h.spells
  exact SpellsExpression.balanced_written hspelling

theorem OperationReading.opening_written {parent : Nat} (h : OperationReading parent ts e rest)
    {back : List Token} (hback : Quiet back) : opening (e.written ++ back) = .operand := by
  obtain ⟨_, -, hspelling⟩ := h.spells
  exact hspelling.opening_written rfl hback

/-- A bracket behind a name is written with what is balanced in it, and no parenthesis behind it. -/
theorem SuffixReading.exists_index {array : Expression} {back extra : List Token}
    (h : SuffixReading array ts e rest) (hback : Resumes rest back)
    (hwritten : e.written = array.written ++ Sign.lbrack.written :: extra) :
    ∃ index tail, extra ++ back = index ++ Sign.rbrack.written :: tail ∧ Balanced index ∧
      nextKind tail ≠ some (.sign .lparen) := by
  cases h with
  | @access _ index _ _ _ _ _ _ _ hindex _ _ =>
    simp only [Expression.written, List.append_assoc, List.append_cancel_left_eq,
      List.cons.injEq, true_and, List.cons_append] at hwritten
    exact ⟨index.written, back, by simp [← hwritten], hindex.balanced_written,
      hback.nextKind_ne _ rfl rfl (by decide)⟩
  | @assignment _ index value _ _ _ _ _ _ _ _ _ _ hindex _ _ _ =>
    simp only [Expression.written, List.append_assoc, List.append_cancel_left_eq,
      List.cons.injEq, true_and, List.cons_append] at hwritten
    exact ⟨index.written, Sign.assign.written :: (value.written ++ back), by simp [← hwritten],
      hindex.balanced_written, by simp⟩

theorem beginsNamed_of_takeIdent {name : Ident} {sign : Sign}
    (hname : ReadsAs takeIdent ts name rest) (hsign : nextKind rest = some (.sign sign)) :
    BeginsNamed ts := by
  refine ⟨hname.nextKind_identifier, ?_⟩
  obtain ⟨t, rfl, -⟩ := takeIdent_iff.1 hname
  cases rest with
  | nil => rfl
  | cons u rest =>
    rw [nextKind_cons, Option.some.injEq] at hsign
    simp [atMain, hsign]

theorem CallReading.beginsNamed (h : CallReading ts e rest) : BeginsNamed ts := by
  obtain ⟨hcallee, hopening, -⟩ := h
  exact beginsNamed_of_takeIdent hcallee hopening.nextKind_sign

theorem PackageCallReading.beginsNamed (h : PackageCallReading ts e rest) : BeginsNamed ts := by
  obtain ⟨hpackage, hseparator, -⟩ := h
  exact beginsNamed_of_takeIdent hpackage hseparator.nextKind_sign

theorem MemberOfReading.beginsNamed (h : MemberOfReading ts e rest) : BeginsNamed ts := by
  cases h with
  | call hobject hperiod _ _ _ | assignment hobject hperiod _ _ _
  | access hobject hperiod _ _ _ => exact beginsNamed_of_takeIdent hobject hperiod.nextKind_sign

theorem atMain_written (name : Ident) (tokens : List Token) :
    atMain (mainWritten :: name.written :: tokens) = true := by
  simp [atMain, mainWritten, Ident.written, mainWord, Span.none]

/-- `make` and a type are read again in front of a sign that goes on with no type. -/
theorem MakeHeadReading.rereads {keyword : Span} {type : TypeClause}
    (h : MakeHeadReading keyword type ts rest) (back : List Token)
    (hback : goesOnType back = false) :
    MakeHeadReading Span.none type.bare (Keyword.makeWord.written :: (type.written ++ back))
      back := by
  obtain ⟨-, htype⟩ := h
  exact ⟨takeKeyword_written .makeWord _, ((parseTypeClause_iff.1 htype).rereads back hback).reads⟩

end

namespace TypeClause

/-- Behind the name that a type with brackets begins with stands a bracket, or a package separator
and, behind the name after that, a bracket. -/
theorem bracketAhead_written {type : TypeClause} (hgeneric : type.isGeneric = true)
    (rest : List Token) : BracketAhead (type.written ++ rest) := by
  obtain ⟨package, name, types, closing⟩ := type
  cases types with
  | nil => cases hgeneric
  | cons first others => cases package <;> simp [BracketAhead, written, packageWritten]

theorem beginsNamed_written {type : TypeClause} {rest : List Token}
    (hrest : nextKind rest ≠ some .identifier) : BeginsNamed (type.written ++ rest) := by
  obtain ⟨package, name, types, closing⟩ := type
  cases package <;> cases types <;>
    exact beginsNamed_cons (by simp [hrest])

theorem isGeneric_bare (c : TypeClause) : c.bare.isGeneric = c.isGeneric := by
  obtain ⟨package, name, arguments, closing⟩ := c
  cases arguments <;> rfl

end TypeClause

/-! ### What is read again -/

/-- One expression alone is read again in front of the sign that closes it. -/
theorem ArgumentsReading.rereads_singleton {closing : Sign} {ts r₁ rest : List Token}
    {e : Expression} (hcomma : closing ≠ .comma) (hkind : nextKind ts ≠ some (.sign closing))
    (h : ExpressionReading ts e r₁)
    (hback : ExpressionReading (e.written ++ closing.written :: rest) e.bare
      (closing.written :: rest)) :
    ArgumentsReading closing (Expression.writtenAll [e] ++ closing.written :: rest)
      (Expression.bareAll [e]) Span.none rest := by
  rw [← h.nextKind_written] at hkind
  simp only [Expression.writtenAll, Expression.writtenTail, Expression.bareAll, List.append_nil]
  exact .last hkind hback (by simpa using hcomma) (takeSign_written closing rest)

mutual

theorem ExpressionReading.rereads {ts back rest : List Token} {e : Expression}
    (h : ExpressionReading ts e back) (hrest : Resumes back rest) :
    ExpressionReading (e.written ++ rest) e.bare rest := by
  match h with
  | .assignment _ h =>
    have hwhole := h.rereads hrest
    obtain ⟨-, -, -⟩ := h
    exact .assignment (opening_assignment_written _ _) hwhole
  | @ExpressionReading.edit _ _ _ _ sign target _ value hopening _ hoperator hvalue =>
    have hback := hvalue.rereads hrest
    have hopening' := opening_edit_written target (opening_edit hopening) (value.written ++ rest)
    obtain ⟨t, -, -, rfl⟩ := takeOperator_iff.1 hoperator
    exact .edit hopening' (takeIdent_written _ _) (takeOperator_written ⟨sign, t.span⟩ _) hback
  | .step hopening _ _ _ =>
    obtain ⟨_, _, _, -, hstep, -⟩ := opening_step hopening
    exact .step (opening_step_written _ hstep rest) (takeIdent_written _ _)
      (takeSign_of_kind rfl) (takeSign_written _ rest)
  | .operand _ h => exact .operand (h.opening_written hrest.quiet) (h.rereads hrest)
termination_by structural h

theorem AssignmentReading.rereads {ts back rest : List Token} {e : Expression}
    (h : AssignmentReading ts e back) (hrest : Resumes back rest) :
    AssignmentReading (e.written ++ rest) e.bare rest := by
  match h with
  | .intro _ _ hvalue =>
    exact .intro (takeIdent_written _ _) (takeSign_written .assign _) (hvalue.rereads hrest)
termination_by structural h

theorem OperationReading.rereads {parent : Nat} {ts back rest : List Token} {e : Expression}
    (h : OperationReading parent ts e back) (hrest : Resumes back rest) :
    OperationReading parent (e.written ++ rest) e.bare rest := by
  match h with
  | @OperationReading.leading _ _ _ _ _ sign _ operand _ hleading hoperator hoperand hjoined =>
    obtain ⟨extra, hwritten, hbehind, hback⟩ := hjoined.rereads hrest
    have hmiddle := hoperand.rereads hbehind
    obtain ⟨hunary, hlevel⟩ := leadingOperator?_eq_some hleading
    have hleading' : leadingOperator? parent
        (sign.written :: (operand.written ++ (extra ++ rest))) = some sign := by
      simp [leadingOperator?, hunary, hlevel]
    obtain ⟨t, -, -, rfl⟩ := takeOperator_iff.1 hoperator
    rw [hwritten]
    simp only [Expression.written, List.cons_append, List.append_assoc]
    exact .leading hleading' (takeOperator_written ⟨sign, t.span⟩ _) hmiddle hback
  | @OperationReading.plain _ _ _ _ operand _ hleading hoperand hjoined =>
    obtain ⟨extra, hwritten, hbehind, hback⟩ := hjoined.rereads hrest
    have hfront := hoperand.rereads hbehind
    have hleading' : leadingOperator? parent (operand.written ++ (extra ++ rest)) = none := by
      rw [leadingOperator?, hoperand.nextKind_written]
      exact hleading
    rw [hwritten, List.append_assoc]
    exact .plain hleading' hfront hback
termination_by structural h

/-- Operators that join more to what was read so far add their own tokens and those of their right
operands to its written form. -/
theorem JoinedReading.rereads {parent : Nat} {left : Expression} {ts back rest : List Token}
    {e : Expression} (h : JoinedReading parent left ts e back) (hrest : Resumes back rest) :
    ∃ extra, e.written = left.written ++ extra ∧ Resumes ts (extra ++ rest) ∧
      JoinedReading parent left.bare (extra ++ rest) e.bare rest := by
  match h with
  | .done hjoins =>
    exact ⟨[], (List.append_nil _).symm, hrest, .done (hrest.joiningOperator?_eq_none hjoins)⟩
  | @JoinedReading.joins _ _ right _ _ _ _ _ sign _ hjoins hoperator hright hjoined =>
    obtain ⟨extra, hwritten, hbehind, hback⟩ := hjoined.rereads hrest
    have hmiddle := hright.rereads hbehind
    obtain ⟨hkind, hlevel⟩ := joiningOperator?_eq_some hjoins
    have hjoins' : joiningOperator? parent
        (sign.written :: (right.written ++ (extra ++ rest))) = some sign := by
      simp [joiningOperator?, hlevel]
    obtain ⟨t, -, -, rfl⟩ := takeOperator_iff.1 hoperator
    refine ⟨sign.written :: (right.written ++ extra), ?_, ?_, ?_⟩
    · simpa [Expression.written] using hwritten
    · exact .joins hkind (by omega)
    · rw [List.cons_append, List.append_assoc]
      exact .joins hjoins' (takeOperator_written ⟨sign, t.span⟩ _) hmiddle hback
termination_by structural h

theorem PostfixReading.rereads {ts back rest : List Token} {e : Expression}
    (h : PostfixReading ts e back) (hrest : Resumes back rest) :
    PostfixReading (e.written ++ rest) e.bare rest := by
  match h with
  | .intro hoperand hsuffixes =>
    obtain ⟨extra, hwritten, hbehind, hback⟩ := hsuffixes.rereads hrest
    rw [hwritten, List.append_assoc]
    exact .intro (hoperand.rereads hbehind) hback
termination_by structural h

/-- Brackets behind an array add their own tokens to its written form. -/
theorem SuffixesReading.rereads {array : Expression} {ts back rest : List Token} {e : Expression}
    (h : SuffixesReading array ts e back) (hrest : Resumes back rest) :
    ∃ extra, e.written = array.written ++ extra ∧ Resumes ts (extra ++ rest) ∧
      SuffixesReading array.bare (extra ++ rest) e.bare rest := by
  match h with
  | .done hbracket =>
    exact ⟨[], (List.append_nil _).symm, hrest, .done (hrest.nextKind_lbrack hbracket)⟩
  | .last hsuffix hlast =>
    obtain ⟨extra, hwritten, hbehind, hback⟩ := hsuffix.rereads hrest
    rw [← Expression.isArrayAssignment_bare] at hlast
    exact ⟨Sign.lbrack.written :: extra, hwritten, hbehind, .last hback hlast⟩
  | .more hsuffix hmore hsuffixes =>
    obtain ⟨others, hothers, hnext, hback⟩ := hsuffixes.rereads hrest
    obtain ⟨extra, hwritten, hbehind, hfront⟩ := hsuffix.rereads hnext
    rw [← Expression.isArrayAssignment_bare] at hmore
    refine ⟨Sign.lbrack.written :: extra ++ others, ?_, ?_, ?_⟩
    · rw [hothers, hwritten, List.append_assoc]
    · rw [List.append_assoc]
      exact hbehind
    · rw [List.append_assoc]
      exact .more hfront hmore hback
termination_by structural h

/-- A bracket behind an array adds its own tokens to the written form. -/
theorem SuffixReading.rereads {array : Expression} {ts back rest : List Token} {e : Expression}
    (h : SuffixReading array ts e back) (hrest : Resumes back rest) :
    ∃ extra, e.written = array.written ++ Sign.lbrack.written :: extra ∧
      Resumes ts (Sign.lbrack.written :: extra ++ rest) ∧
      SuffixReading array.bare (Sign.lbrack.written :: extra ++ rest) e.bare rest := by
  match h with
  | @SuffixReading.access _ index _ _ _ _ _ _ hopening hindex _ _ =>
    have hinside := hindex.rereads (.written .rbrack rfl _ rest)
    refine ⟨index.written ++ [Sign.rbrack.written], ?_, .indexes hopening.nextKind_sign, ?_⟩
    · simp [Expression.written]
    · rw [List.cons_append, List.append_assoc]
      exact .access (takeSign_written .lbrack _) hinside (takeSign_written .rbrack _)
        (hrest.nextKind_ne _ rfl rfl (by decide))
  | @SuffixReading.assignment _ index value _ _ _ _ _ _ _ _ _ hopening hindex _ _ hvalue =>
    have hinside := hindex.rereads
      (.written .rbrack rfl _ (Sign.assign.written :: (value.written ++ rest)))
    have hback := hvalue.rereads hrest
    refine ⟨index.written ++ Sign.rbrack.written :: Sign.assign.written :: value.written, ?_,
      .indexes hopening.nextKind_sign, ?_⟩
    · simp [Expression.written]
    · rw [List.cons_append, List.append_assoc]
      exact .assignment (takeSign_written .lbrack _) hinside (takeSign_written .rbrack _)
        (takeSign_written .assign _) hback
termination_by structural h

theorem PrimaryReading.rereads {ts back rest : List Token} {e : Expression}
    (h : PrimaryReading ts e back) (hrest : Resumes back rest) :
    PrimaryReading (e.written ++ rest) e.bare rest := by
  match h with
  | .parenthesized _ hinner _ =>
    have hinside := hinner.rereads (.written .rparen rfl _ rest)
    rw [Expression.written, List.cons_append, List.cons_append, List.append_assoc]
    exact .parenthesized (takeSign_written .lparen _) hinside (takeSign_written .rparen _)
  | .this _ => exact .this (takeKeyword_written .thisWord rest)
  | .make h => exact .make (h.rereads rest)
  | .reference _ _ => exact .reference (takeSign_written .and _) (takeIdent_written _ rest)
  | .dereference _ hoperand => exact .dereference (takeSign_written .mul _) (hoperand.rereads hrest)
  | .main _ h =>
    obtain ⟨hback, hmain⟩ := h.rereads hrest
    exact .main hmain hback
  | .named _ _ h =>
    obtain ⟨hback, hkind, hmain⟩ := h.rereads hrest
    exact .named hkind hmain hback
  | .literal hliteral => exact .literal (by rwa [Token.bare_kind])
termination_by structural h

theorem MainReading.rereads {ts back rest : List Token} {e : Expression}
    (h : MainReading ts e back) (hrest : Resumes back rest) :
    MainReading (e.written ++ rest) e.bare rest ∧ atMain (e.written ++ rest) = true := by
  have hword (tokens : List Token) := takeIdent_written ⟨mainWord, Span.none⟩ tokens
  match h with
  | .call _ hcall =>
    have hback := hcall.rereads rest
    obtain ⟨-, -, -⟩ := hcall
    exact ⟨.call (hword _) hback, atMain_written _ _⟩
  | .assignment _ hassignment =>
    have hback := hassignment.rereads hrest
    obtain ⟨-, -, -⟩ := hassignment
    exact ⟨.assignment (hword _) hback, atMain_written _ _⟩
  | .name _ _ _ _ =>
    exact ⟨.name (hword _) (takeIdent_written _ rest) (hrest.nextKind_ne _ rfl rfl (by decide))
      (hrest.nextKind_ne _ rfl rfl (by decide)), atMain_written _ _⟩
termination_by structural h

theorem NamedReading.rereads {ts back rest : List Token} {e : Expression}
    (h : NamedReading ts e back) (hrest : Resumes back rest) :
    NamedReading (e.written ++ rest) e.bare rest ∧ BeginsNamed (e.written ++ rest) := by
  match h with
  | .call h =>
    have hback := h.rereads rest
    exact ⟨.call hback, hback.beginsNamed⟩
  | .packageCall h =>
    have hback := h.rereads rest
    exact ⟨.packageCall hback, hback.beginsNamed⟩
  | .member h =>
    have hback := h.rereads hrest
    exact ⟨.member hback, hback.beginsNamed⟩
  | @NamedReading.cast _ _ _ type arguments _ _ hbracket hhead harguments =>
    have hinside := harguments.rereads rfl (by decide) rest
    -- The type ends in a bracket, so the look-ahead finds the cast again.
    obtain ⟨clause, opened, htokens, htype, hopening⟩ := tryCastHead?_spells hhead
    have hgeneric := htype.isGeneric hopening (htokens ▸ hbracket)
    obtain ⟨_, hhead'⟩ :=
      htype.tryCastHead?_eq (Expression.writtenAll arguments ++ Sign.rparen.written :: rest)
    simp only [Expression.written, List.cons_append, List.append_assoc, List.nil_append]
    exact ⟨.cast (type.bracketAhead_written hgeneric _) hhead' hinside,
      TypeClause.beginsNamed_written (by simp)⟩
  | @NamedReading.element _ _ _ array _ _ _ hsuffix =>
    obtain ⟨extra, hwritten, -, hback⟩ := hsuffix.rereads hrest
    obtain ⟨index, tail, hextra, hindex, htail⟩ := hsuffix.exists_index hrest hwritten
    rw [hwritten]
    rw [List.cons_append, hextra] at hback
    simp only [Expression.written, List.cons_append, List.nil_append, hextra]
    exact ⟨.element (tryCastHead?_eq_none array hindex htail) (takeIdent_written array _) hback,
      beginsNamed_cons (by simp)⟩
  | .name _ hother =>
    have hother' : ∀ sign ∈ [Sign.lparen, .pathSep, .period, .lbrack],
        nextKind rest ≠ some (.sign sign) := by
      simp only [List.forall_mem_cons, List.not_mem_nil, false_imp_iff, implies_true, and_true]
      exact ⟨hrest.nextKind_ne _ rfl rfl (by decide), hrest.nextKind_ne _ rfl rfl (by decide),
        hrest.nextKind_ne _ rfl rfl (by decide), hrest.nextKind_lbrack (hother .lbrack (by simp))⟩
    exact ⟨.name (takeIdent_written _ rest) hother', beginsNamed_cons hrest.nextKind_ne_identifier⟩
termination_by structural h

theorem CallReading.rereads {ts back : List Token} {e : Expression} (h : CallReading ts e back)
    (rest : List Token) : CallReading (e.written ++ rest) e.bare rest := by
  match h with
  | .intro _ _ harguments =>
    have hinside := harguments.rereads rfl (by decide) rest
    simp only [Expression.written, List.cons_append, List.append_assoc, List.nil_append]
    exact .intro (takeIdent_written _ _) (takeSign_written .lparen _) hinside
termination_by structural h

theorem PackageCallReading.rereads {ts back : List Token} {e : Expression}
    (h : PackageCallReading ts e back) (rest : List Token) :
    PackageCallReading (e.written ++ rest) e.bare rest := by
  match h with
  | .intro _ _ _ _ harguments =>
    have hinside := harguments.rereads rfl (by decide) rest
    simp only [Expression.written, List.cons_append, List.append_assoc, List.nil_append]
    exact .intro (takeIdent_written _ _) (takeSign_written .pathSep _) (takeIdent_written _ _)
      (takeSign_written .lparen _) hinside
termination_by structural h

theorem MemberOfReading.rereads {ts back rest : List Token} {e : Expression}
    (h : MemberOfReading ts e back) (hrest : Resumes back rest) :
    MemberOfReading (e.written ++ rest) e.bare rest := by
  match h with
  | .call _ _ _ _ harguments =>
    have hinside := harguments.rereads rfl (by decide) rest
    simp only [Expression.written, List.cons_append, List.append_assoc, List.nil_append]
    exact .call (takeIdent_written _ _) (takeSign_written .period _) (takeIdent_written _ _)
      (takeSign_written .lparen _) hinside
  | .assignment _ _ _ _ hvalue =>
    exact .assignment (takeIdent_written _ _) (takeSign_written .period _) (takeIdent_written _ _)
      (takeSign_written .assign _) (hvalue.rereads hrest)
  | .access _ _ _ _ _ =>
    exact .access (takeIdent_written _ _) (takeSign_written .period _) (takeIdent_written _ rest)
      (hrest.nextKind_ne _ rfl rfl (by decide)) (hrest.nextKind_ne _ rfl rfl (by decide))
termination_by structural h

theorem MakeReading.rereads {ts back : List Token} {e : Expression} (h : MakeReading ts e back)
    (rest : List Token) : MakeReading (e.written ++ rest) e.bare rest := by
  match h with
  | .array hhead hgeneric _ hparts =>
    have hinside := hparts.rereads rfl (by decide) rest
    rw [← TypeClause.isGeneric_bare] at hgeneric
    simp only [Expression.written, List.cons_append, List.append_assoc, List.nil_append]
    exact .array (hhead.rereads _ (by simp [goesOnType])) hgeneric (takeSign_written .lbrace _)
      hinside
  | .struct hhead hgeneric _ hparts =>
    have hinside := hparts.rereads rfl (by decide) rest
    rw [← TypeClause.isGeneric_bare] at hgeneric
    simp only [Expression.written, List.cons_append, List.append_assoc, List.nil_append]
    exact .struct (hhead.rereads _ (by simp [goesOnType])) hgeneric (takeSign_written .lbrace _)
      hinside
  | .sized hhead hgeneric _ hlength _ =>
    have hinside := hlength.rereads (.written .rparen rfl _ rest)
    rw [← TypeClause.isGeneric_bare] at hgeneric
    simp only [Expression.written, List.cons_append, List.append_assoc, List.nil_append]
    exact .sized (hhead.rereads _ (by simp [goesOnType])) hgeneric (takeSign_written .lparen _)
      hinside (takeSign_written .rparen _)
  | .called hhead hgeneric _ harguments =>
    have hinside := harguments.rereads rfl (by decide) rest
    rw [← TypeClause.isGeneric_bare] at hgeneric
    simp only [Expression.written, List.cons_append, List.append_assoc, List.nil_append]
    exact .called (hhead.rereads _ (by simp [goesOnType])) hgeneric (takeSign_written .lparen _)
      hinside
termination_by structural h

theorem ArgumentsReading.rereads {closing : Sign} (hclosing : closing.isClosing = true)
    (hcomma : closing ≠ .comma) {ts back : List Token} {arguments : List Expression} {stop : Span}
    (h : ArgumentsReading closing ts arguments stop back) (rest : List Token) :
    ArgumentsReading closing (Expression.writtenAll arguments ++ closing.written :: rest)
      (Expression.bareAll arguments) Span.none rest := by
  match h with
  | .none _ => exact .none (takeSign_written closing rest)
  | .last hkind hfirst _ _ =>
    exact .rereads_singleton hcomma hkind hfirst (hfirst.rereads (.written _ hclosing _ rest))
  | @ArgumentsReading.more _ _ _ _ _ first others _ _ hkind hfirst _ hothers =>
    have hmore := hothers.rereads hclosing hcomma rest
    cases others with
    | nil =>
      exact .rereads_singleton hcomma hkind hfirst (hfirst.rereads (.written _ hclosing _ rest))
    | cons second others =>
      have hback := hfirst.rereads (.written .comma rfl _
        (Expression.writtenAll (second :: others) ++ closing.written :: rest))
      rw [← hfirst.nextKind_written] at hkind
      simp only [Expression.writtenAll, Expression.writtenTail, List.append_assoc,
        List.cons_append] at hback hmore hkind ⊢
      exact .more hkind hback (takeSign_written .comma _) hmore
termination_by structural h

end

section

variable {ts back : List Token} {e : Expression}

/-- What is written for an expression is read as that expression, at no place. -/
theorem parseExpression_rereads (h : ReadsAs parseExpression ts e back) {rest : List Token}
    (hrest : Resumes back rest) : ReadsAs parseExpression (e.written ++ rest) e.bare rest :=
  ((parseExpression_iff.1 h).rereads hrest).reads

theorem nextKind_written_of_parseExpression (h : ReadsAs parseExpression ts e back)
    (rest : List Token) : nextKind (e.written ++ rest) = nextKind ts :=
  (parseExpression_iff.1 h).nextKind_written rest

end

end TodLang
