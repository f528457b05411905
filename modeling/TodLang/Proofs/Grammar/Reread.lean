import TodLang.Proofs.Grammar.Layout
import TodLang.Proofs.Grammar.Expression
import TodLang.Proofs.Grammar.TypeReadings
import TodLang.Proofs.Tree.Written
/-!
What is written for an expression that was read is read as that expression again, at no place. The
tokens behind it may be others than before, as long as they end the expression where it ended. The
lemmas follow the readers, call by call. For operators and for brackets, which go on behind what
was read so far, they say what a reader adds to the written form.
-/

namespace TodLang

/-! ### Written tokens -/

theorem takeIdent_written (name : Ident) (rest : List Token) :
    ReadsAs takeIdent (name.written :: rest) name.bare rest :=
  takeIdent_of_kind name.written_kind

theorem takeSign_written (sign : Sign) (rest : List Token) :
    ReadsAs (takeSign sign) (sign.written :: rest) Span.none rest :=
  takeSign_of_kind sign.written_kind

theorem takeOperator_written (operator : Operator) (rest : List Token) :
    ReadsAs (takeOperator operator.sign) (operator.sign.written :: rest) operator.bare rest :=
  takeOperator_iff.2 ⟨operator.sign.written, rfl, rfl, rfl⟩

theorem takeKeyword_written (word : Keyword) (rest : List Token) :
    ReadsAs (takeKeyword word) (word.written :: rest) Span.none rest :=
  takeKeyword_of_kind word.written_kind

/-! ### Spelled types -/

/-- What behind a name belongs to a type that begins with it. -/
def goesOnType (tokens : List Token) : Bool :=
  nextKind tokens = some (.sign .lbrack) || nextKind tokens = some (.sign .pathSep)

theorem NameSpelling.takes {name : Ident} {tokens : List Token} (h : NameSpelling name tokens)
    (rest : List Token) : ReadsAs takeIdent (tokens ++ rest) name rest := by
  obtain ⟨hkind⟩ := h
  exact takeIdent_of_kind hkind

theorem QualifiedSpelling.parses {package : Option Ident} {name : Ident} {tokens rest : List Token}
    (h : QualifiedSpelling package name tokens) (hrest : nextKind rest ≠ some (.sign .pathSep)) :
    QualifiedNameReading (tokens ++ rest) ⟨package, name⟩ rest := by
  cases h with
  | plain hname => exact .plain (hname.takes rest) hrest
  | qualified hpackage hseparator hname =>
    obtain ⟨hseparator⟩ := hseparator
    simp only [List.append_assoc, List.cons_append, List.nil_append]
    exact .qualified (hpackage.takes _) (takeSign_of_kind hseparator) (hname.takes rest)

/-- What has to be read from some tokens that spell a part of a written type. -/
def TypePart.Parses (tokens : List Token) : TypePart → Prop
  | clause c => ∀ rest, goesOnType rest = false → TypeReading (tokens ++ rest) c rest
  | clauses cs => ∀ rest, goesOnType rest = false → nextKind rest ≠ some (.sign .comma) →
      TypeArgumentsReading (tokens ++ rest) cs rest

/-- The tokens that spell a written type are read as it, and so are those of types with commas
between them. -/
theorem SpellsType.parses {part : TypePart} {tokens : List Token} (h : SpellsType part tokens) :
    part.Parses tokens := by
  induction h with
  | plain hname =>
    intro rest hrest
    simp only [goesOnType, Bool.or_eq_false_iff, decide_eq_false_iff_not] at hrest
    exact .plain (hname.parses hrest.2) hrest.1
  | generic hname hopening _ hclosing ih =>
    intro rest hrest
    obtain ⟨hopening⟩ := hopening
    obtain ⟨hclosing⟩ := hclosing
    simp only [List.append_assoc, List.cons_append, List.nil_append]
    exact .generic (hname.parses (by simp [hopening])) (takeSign_of_kind hopening)
      (ih _ (by simp [goesOnType, hclosing]) (by simp [hclosing])) (takeSign_of_kind hclosing)
  | last _ ih =>
    intro rest hrest hcomma
    exact .last (ih rest hrest) hcomma
  | more _ hcomma _ ih ihothers =>
    intro rest hrest hnext
    obtain ⟨hcomma⟩ := hcomma
    simp only [List.append_assoc, List.cons_append, List.nil_append]
    exact .more (ih _ (by simp [goesOnType, hcomma])) (takeSign_of_kind hcomma)
      (ihothers rest hrest hnext)

theorem TypeSpelling.parses {type : TypeClause} {tokens : List Token}
    (h : TypeSpelling type tokens) (rest : List Token) (hrest : goesOnType rest = false) :
    TypeReading (tokens ++ rest) type rest :=
  SpellsType.parses h rest hrest

/-! ### Written types -/

theorem QualifiedNameReading.rereads {ts back rest : List Token} {name : QualifiedName}
    (h : QualifiedNameReading ts name back) (hrest : nextKind rest ≠ some (.sign .pathSep)) :
    QualifiedNameReading (TypeClause.packageWritten name.package ++ name.name.written :: rest)
      ⟨name.package.map Ident.bare, name.name.bare⟩ rest := by
  cases h with
  | plain _ _ => exact .plain (takeIdent_written _ rest) hrest
  | qualified _ _ _ =>
    exact .qualified (takeIdent_written _ _) (takeSign_written .pathSep _)
      (takeIdent_written _ rest)

mutual

theorem TypeReading.rereads {ts back : List Token} {type : TypeClause}
    (h : TypeReading ts type back) (rest : List Token) (hrest : goesOnType rest = false) :
    TypeReading (type.written ++ rest) type.bare rest := by
  match h with
  | .plain hname _ =>
    simp only [goesOnType, Bool.or_eq_false_iff, decide_eq_false_iff_not] at hrest
    rw [TypeClause.written, List.append_assoc]
    exact .plain (hname.rereads hrest.2) hrest.1
  | @TypeReading.generic _ _ _ _ _ _ _ arguments _ _ hname _ harguments _ =>
    obtain ⟨first, others, rfl, hback⟩ := harguments.rereads (Sign.rbrack.written :: rest) rfl
    simp only [TypeClause.written, List.append_assoc, List.cons_append, List.nil_append]
    exact .generic (hname.rereads (by simp)) (takeSign_written .lbrack _) hback
      (takeSign_written .rbrack rest)
termination_by structural h

/-- Types in brackets are read again, and there is one at least. -/
theorem TypeArgumentsReading.rereads {ts back : List Token} {types : List TypeClause}
    (h : TypeArgumentsReading ts types back) (rest : List Token)
    (hrest : nextKind rest = some (.sign .rbrack)) :
    ∃ first others, types = first :: others ∧
      TypeArgumentsReading (first.written ++ (TypeClause.writtenTail others ++ rest))
        (TypeClause.bareAll (first :: others)) rest := by
  match h with
  | .last hfirst _ =>
    have hback := hfirst.rereads rest (by simp [goesOnType, hrest])
    exact ⟨_, [], rfl, .last hback (by simp [hrest])⟩
  | .more hfirst _ hothers =>
    obtain ⟨second, others, rfl, hback⟩ := hothers.rereads rest hrest
    have hfront := hfirst.rereads (Sign.comma.written ::
      (second.written ++ (TypeClause.writtenTail others ++ rest))) (by simp [goesOnType])
    refine ⟨_, _, rfl, ?_⟩
    simp only [TypeClause.writtenTail, List.append_assoc, List.cons_append]
    exact .more hfront (takeSign_written .comma _) hback
termination_by structural h

end

theorem TypeSpelling.rereads {type : TypeClause} {tokens : List Token}
    (h : TypeSpelling type tokens) (rest : List Token) (hrest : goesOnType rest = false) :
    TypeReading (type.written ++ rest) type.bare rest :=
  (h.parses [] rfl).rereads rest hrest

theorem TypeSpelling.tryCastHead?_eq {type : TypeClause} {tokens : List Token}
    (h : TypeSpelling type tokens) (rest : List Token) :
    ∃ hlt, tryCastHead? (type.written ++ Sign.lparen.written :: rest) =
      some ⟨type.bare, rest, hlt⟩ :=
  tryCastHead?_iff.2 ⟨_, h.rereads _ (by simp [goesOnType]), Sign.written_kind .lparen⟩

/-! ### What may stand behind an expression -/

/-- A sign that ends an expression wherever it stands. -/
def Sign.isClosing : Sign → Bool
  | comma | rparen | rbrace | rbrack | semicolon => true
  | _ => false

theorem Sign.quiet_of_isClosing {sign : Sign} (h : sign.isClosing = true) :
    sign ≠ .assign ∧ sign.isEdit = false ∧ sign.isStep = false := by
  cases sign <;> first | decide | cases h

theorem Sign.binaryPrecedence_of_isClosing {sign : Sign} (h : sign.isClosing = true) :
    sign.binaryPrecedence = 0 := by
  cases sign <;> first | rfl | cases h

/-- What may stand behind a written expression in place of what stood behind it when it was read:
a sign that ends it, or the operator or the bracket that stood there. -/
inductive Resumes (rest : List Token) : List Token → Prop
  | closes {t : Token} {tokens : List Token} {sign : Sign} (hkind : t.kind = .sign sign)
      (hclosing : sign.isClosing = true) : Resumes rest (t :: tokens)
  | joins {tokens : List Token} {sign : Sign} (hsame : nextKind rest = some (.sign sign))
      (hbinary : sign.binaryPrecedence ≠ 0) : Resumes rest (sign.written :: tokens)
  | indexes {tokens : List Token} (hsame : nextKind rest = some (.sign .lbrack)) :
      Resumes rest (Sign.lbrack.written :: tokens)

namespace Resumes

variable {rest rest' : List Token}

theorem written (sign : Sign) (hclosing : sign.isClosing = true) (rest tokens : List Token) :
    Resumes rest (sign.written :: tokens) :=
  .closes rfl hclosing

/-- A sign that neither ends an expression nor goes on with it does not stand there. -/
theorem nextKind_ne (h : Resumes rest rest') (sign : Sign)
    (hclosing : sign.isClosing = false) (hbinary : sign.binaryPrecedence = 0)
    (hsign : sign ≠ .lbrack) : nextKind rest' ≠ some (.sign sign) := by
  rintro hkind
  cases h with
  | closes ht hc =>
    rw [nextKind_cons, ht] at hkind
    cases hkind
    rw [hc] at hclosing
    cases hclosing
  | joins _ hb =>
    cases hkind
    exact hb hbinary
  | indexes _ =>
    cases hkind
    exact hsign rfl

theorem nextKind_ne_identifier (h : Resumes rest rest') :
    nextKind rest' ≠ some .identifier := by
  cases h with
  | closes ht _ => simp [ht]
  | joins _ _ | indexes _ => simp

theorem nextKind_lbrack (h : Resumes rest rest') (hkind : nextKind rest ≠ some (.sign .lbrack)) :
    nextKind rest' ≠ some (.sign .lbrack) := by
  rintro hlbrack
  cases h with
  | closes ht hclosing =>
    rw [nextKind_cons, ht] at hlbrack
    cases hlbrack
    cases hclosing
  | joins _ hbinary =>
    cases hlbrack
    exact hbinary rfl
  | indexes hsame => exact hkind hsame

theorem quiet (h : Resumes rest rest') : Quiet rest' := by
  cases h with
  | @closes t tokens sign ht hclosing =>
    obtain ⟨hassign, hedit, hstep⟩ := Sign.quiet_of_isClosing hclosing
    rw [quiet_cons, ht]
    rintro _ ⟨⟩
    exact ⟨hassign, hedit, fun hsign => by rw [hstep] at hsign; cases hsign⟩
  | joins _ hbinary => exact Sign.quiet_of_binaryPrecedence (Nat.pos_of_ne_zero hbinary) _
  | indexes _ => exact Sign.quiet_written (by decide) rfl _

/-- An operator that joins the operand in front of it is the one that stood there. -/
theorem joiningOperator?_eq_none {parent : Nat} (h : Resumes rest rest')
    (hnone : joiningOperator? parent rest = none) : joiningOperator? parent rest' = none := by
  cases h with
  | closes ht hclosing =>
    simp [joiningOperator?, ht, Sign.binaryPrecedence_of_isClosing hclosing]
  | joins hsame _ => simpa [joiningOperator?, hsame] using hnone
  | indexes _ => simp [joiningOperator?, Sign.binaryPrecedence]

end Resumes

/-! ### Look-ahead in what is written -/

/-- What is written for an expression begins as the tokens do that spell it. -/
theorem SpellsExpression.nextKind_written {part : ExpressionPart} {front : List Token}
    (h : SpellsExpression part front) (hpart : ∀ es, part ≠ .arguments es)
    (rest back : List Token) :
    nextKind (part.written ++ back) = nextKind (front ++ rest) := by
  obtain ⟨kind, hkind, hwritten⟩ := h.exists_nextKind hpart
  rw [nextKind_append_of_eq_some hkind, nextKind_append_of_eq_some hwritten]

theorem opening_assignment_written (target : Ident) (tokens : List Token) :
    opening (target.written :: Sign.assign.written :: tokens) = .assignment := by
  simp [opening]

theorem opening_edit_written (target : Ident) {sign : Sign} (hedit : sign.isEdit = true)
    (tokens : List Token) : opening (target.written :: sign.written :: tokens) = .edit sign := by
  have hassign : sign ≠ .assign := by
    rintro rfl
    cases hedit
  simp [opening, hassign, hedit]

theorem opening_step_written (target : Ident) {sign : Sign} (hstep : sign.isStep = true)
    (tokens : List Token) :
    opening (target.written :: sign.writtenTight :: sign.written :: tokens) = .step sign := by
  have hassign : sign ≠ .assign := by
    rintro rfl
    cases hstep
  have hedit : sign.isEdit = false := by
    cases sign <;> first | rfl | cases hstep
  have hspace : sign.writtenTight.spaceAfter = false := rfl
  simp [opening, hassign, hedit, hstep, hspace]

/-- A name that does not stand behind `main`. -/
def BeginsNamed (tokens : List Token) : Prop :=
  nextKind tokens = some .identifier ∧ atMain tokens = false

theorem beginsNamed_cons {name : Ident} {tokens : List Token}
    (h : nextKind tokens ≠ some .identifier) : BeginsNamed (name.written :: tokens) := by
  refine ⟨by simp, ?_⟩
  cases tokens with
  | nil => rfl
  | cons t tokens =>
    rw [nextKind_cons, ne_eq, Option.some.injEq] at h
    simp [atMain, h]

/-- What stands in brackets behind a name is no written type with a parenthesis behind it, if no
parenthesis follows the closing bracket. -/
theorem tryCastHead?_eq_none (name : Ident) {index tail : List Token} (hindex : Balanced index)
    (htail : nextKind tail ≠ some (.sign .lparen)) :
    tryCastHead? (name.written :: Sign.lbrack.written :: (index ++ Sign.rbrack.written :: tail)) =
      none := by
  cases hfound : tryCastHead? (name.written :: Sign.lbrack.written ::
    (index ++ Sign.rbrack.written :: tail)) with
  | none => rfl
  | some q =>
    obtain ⟨clause, opened, htokens, htype, hopening⟩ := tryCastHead?_spells hfound
    obtain ⟨type, behind, hlt⟩ := q
    obtain ⟨lparen, rfl, hlparen⟩ := hopening.exists_token
    cases htype with
    | plain hname =>
      cases hname with
      | plain hname =>
        obtain ⟨t, rfl, -⟩ := hname.exists_token
        simp only [List.cons_append, List.nil_append, List.cons.injEq] at htokens
        rw [← htokens.2.1, Sign.written_kind] at hlparen
        cases hlparen
      | qualified hpackage hseparator hname =>
        obtain ⟨t, rfl, -⟩ := hpackage.exists_token
        obtain ⟨u, rfl, hu⟩ := hseparator.exists_token
        simp only [List.cons_append, List.nil_append, List.cons.injEq] at htokens
        rw [← htokens.2.1, Sign.written_kind] at hu
        cases hu
    | @generic _ _ _ _ front opened inside closed hname hbracket harguments hclosing =>
      cases hname with
      | plain hname =>
        obtain ⟨t, rfl, -⟩ := hname.exists_token
        obtain ⟨u, rfl, -⟩ := hbracket.exists_token
        obtain ⟨v, rfl, hv, -⟩ := hclosing.exists_token
        simp only [List.cons_append, List.nil_append, List.append_assoc, List.cons.injEq] at htokens
        have hbehind := congrArg (behindBracket 0) htokens.2.2
        rw [hindex, harguments.balanced, behindBracket_zero (Sign.written_kind .rbrack),
          behindBracket_zero hv] at hbehind
        rw [hbehind, nextKind_cons, hlparen] at htail
        exact absurd rfl htail
      | qualified hpackage hseparator hname =>
        obtain ⟨t, rfl, -⟩ := hpackage.exists_token
        obtain ⟨u, rfl, hu⟩ := hseparator.exists_token
        simp only [List.cons_append, List.nil_append, List.append_assoc, List.cons.injEq] at htokens
        rw [← htokens.2.1, Sign.written_kind] at hu
        cases hu

end TodLang
