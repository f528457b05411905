import TodLang.Grammar.Member
import TodLang.Proofs.Grammar.TypeReadings
import TodLang.Tree.Written
/-!
What reading a part of a statement or of a member comes to: a declaration, a condition, parameters
or fields. For each of them there is a proposition on the tokens that are read and those that are
left, and it holds just if the reader gives the part and leaves these tokens.
-/

namespace TodLang

/-! ### Ways to read -/

/-- How what may be missing is read: something in the tokens says whether it is there. -/
def OptionalReading {α : Type} (present : Prop)
    (reader : (tokens : List Token) → Parse α tokens.length) (value : Option α)
    (ts rest : List Token) : Prop :=
  match value with
  | none => ¬present ∧ rest = ts
  | some value => present ∧ ReadsAs reader ts value rest

/-- How the value of a declaration is read, if it has one. -/
def InitialValueReading (value : Option Expression) (ts rest : List Token) : Prop :=
  match value with
  | none => nextKind ts ≠ some (.sign .assign) ∧ rest = ts
  | some value => ∃ r₁, ∃ sign, ReadsAs (takeSign .assign) ts sign r₁ ∧
      ReadsAs parseExpression r₁ value rest

/-- How a declaration is read. -/
def DeclarationReading (d : VariableDeclaration) (ts rest : List Token) : Prop :=
  ∃ r₁ r₂ r₃, ReadsAs (takeKeyword (VariableDeclaration.keywordOf d.readOnly)) ts d.keyword r₁ ∧
    OptionalReading (atDeclaredType r₁ = true) parseTypeClause d.type r₁ r₂ ∧
    ReadsAs takeIdent r₂ d.name r₃ ∧ InitialValueReading d.value r₃ rest

/-- How a condition is read. -/
def ConditionReading (condition : Expression) (ts rest : List Token) : Prop :=
  ∃ r₁ r₂, ∃ opening closing, ReadsAs (takeSign .lparen) ts opening r₁ ∧
    ReadsAs parseExpression r₁ condition r₂ ∧ ReadsAs (takeSign .rparen) r₂ closing rest

/-- How a parameter is read. -/
def ParameterReading (p : Parameter) (ts rest : List Token) : Prop :=
  ∃ r₁, ReadsAs takeIdent ts p.name r₁ ∧ ReadsAs parseTypeClause r₁ p.type rest

/-- How parameters with commas between them are read. -/
inductive ParametersReading : List Token → List Parameter → List Token → Prop
  | last {ts rest : List Token} {first : Parameter} (hfirst : ReadsAs parseParameter ts first rest)
      (hcomma : nextKind rest ≠ some (.sign .comma)) : ParametersReading ts [first] rest
  | more {ts r₁ r₂ rest : List Token} {first : Parameter} {others : List Parameter} {comma : Span}
      (hfirst : ReadsAs parseParameter ts first r₁)
      (hcomma : ReadsAs (takeSign .comma) r₁ comma r₂)
      (hothers : ParametersReading r₂ others rest) : ParametersReading ts (first :: others) rest

/-- How parameters between parentheses are read. -/
inductive ParameterListReading : List Token → List Parameter → Span → List Token → Prop
  | none {ts r₁ rest : List Token} {opening closing : Span}
      (hopening : ReadsAs (takeSign .lparen) ts opening r₁)
      (hclosing : ReadsAs (takeSign .rparen) r₁ closing rest) :
      ParameterListReading ts [] closing rest
  | some {ts r₁ r₂ rest : List Token} {ps : List Parameter} {opening closing : Span}
      (hopening : ReadsAs (takeSign .lparen) ts opening r₁)
      (hkind : nextKind r₁ ≠ some (.sign .rparen)) (hps : ParametersReading r₁ ps r₂)
      (hclosing : ReadsAs (takeSign .rparen) r₂ closing rest) :
      ParameterListReading ts ps closing rest

/-- How the fields in front of a closing brace are read, and the brace. -/
inductive FieldsReading : List Token → List Parameter → Span → List Token → Prop
  | none {ts rest : List Token} {closing : Span}
      (hclosing : ReadsAs (takeSign .rbrace) ts closing rest) : FieldsReading ts [] closing rest
  | last {ts r₁ rest : List Token} {first : Parameter} {closing : Span}
      (hkind : nextKind ts ≠ some (.sign .rbrace)) (hfirst : ReadsAs parseParameter ts first r₁)
      (hcomma : nextKind r₁ ≠ some (.sign .comma))
      (hclosing : ReadsAs (takeSign .rbrace) r₁ closing rest) :
      FieldsReading ts [first] closing rest
  | more {ts r₁ r₂ rest : List Token} {first : Parameter} {others : List Parameter}
      {comma closing : Span} (hkind : nextKind ts ≠ some (.sign .rbrace))
      (hfirst : ReadsAs parseParameter ts first r₁)
      (hcomma : ReadsAs (takeSign .comma) r₁ comma r₂)
      (hothers : FieldsReading r₂ others closing rest) :
      FieldsReading ts (first :: others) closing rest

/-- What ends a statement that gives back no value. -/
def endsReturn (ts : List Token) : Bool :=
  [none, some (.sign .semicolon), some (.sign .rbrace)].contains (nextKind ts)

/-! ### What may be missing -/

section

variable {ts rest : List Token}

theorem optional_iff {α : Type} {present : Prop} [Decidable present]
    {reader : (tokens : List Token) → Parse α tokens.length} {value : Option α} :
    Gives (if present then do
        let ⟨value, r₁, h₁⟩ ← reader ts
        return Parsed.optional ⟨some value, r₁, h₁⟩
      else return Parsed.unread none ts) value rest ↔
      OptionalReading present reader value ts rest := by
  constructor
  · intro h
    split at h
    · next hpresent =>
      obtain ⟨found, r₁, _, hfound, h⟩ := h.of_bind
      obtain ⟨rfl, rfl⟩ := h.of_optional
      exact ⟨hpresent, hfound⟩
    · next hmissing =>
      obtain ⟨rfl, rfl⟩ := h.of_unread
      exact ⟨hmissing, rfl⟩
  · intro h
    cases value with
    | none =>
      obtain ⟨hmissing, rfl⟩ := h
      rw [if_neg hmissing]
      exact gives_return
    | some value =>
      obtain ⟨hpresent, hfound⟩ := h
      rw [if_pos hpresent]
      refine hfound.bind fun _ => ?_
      exact gives_return

end

/-! ### Types, declarations and conditions -/

section

variable {ts rest : List Token}

theorem parseOptionalTypeClause_iff {type : Option TypeClause} :
    ReadsAs parseOptionalTypeClause ts type rest ↔
      OptionalReading (nextKind ts = some .identifier) parseTypeClause type ts rest :=
  optional_iff

theorem parseDeclaredType_iff {type : Option TypeClause} :
    ReadsAs parseDeclaredType ts type rest ↔
      OptionalReading (atDeclaredType ts = true) parseTypeClause type ts rest :=
  optional_iff

theorem parseReturnValue_iff {value : Option Expression} :
    ReadsAs parseReturnValue ts value rest ↔
      OptionalReading (¬endsReturn ts = true) parseExpression value ts rest := by
  rw [ReadsAs, parseReturnValue, ← endsReturn, ← ite_not]
  exact optional_iff

theorem parseInitialValue_iff {value : Option Expression} :
    ReadsAs parseInitialValue ts value rest ↔ InitialValueReading value ts rest := by
  rw [ReadsAs, parseInitialValue]
  constructor
  · intro h
    split at h
    · next t r₁ _ hfound =>
      obtain ⟨value, r₂, _, _, hvalue, h⟩ := h.of_bind_after
      obtain ⟨rfl, rfl⟩ := h.of_optional
      obtain ⟨heq, hkind⟩ := accept?_eq_some hfound
      exact ⟨r₁, t.span, takeSign_iff.2 ⟨t, heq, hkind, rfl⟩, hvalue⟩
    · next hnone =>
      obtain ⟨rfl, rfl⟩ := h.of_unread
      exact ⟨accept?_eq_none_iff.1 hnone, rfl⟩
  · intro h
    cases value with
    | none =>
      obtain ⟨hsign, rfl⟩ := h
      rw [accept?_eq_none_iff.2 hsign]
      exact gives_return
    | some value =>
      obtain ⟨r₁, _, hsign, hvalue⟩ := h
      obtain ⟨t, rfl, hkind, -⟩ := takeSign_iff.1 hsign
      rw [accept?_of_kind hkind]
      refine hvalue.after.bind fun _ => ?_
      exact gives_return

theorem parseVariableWord_iff {keyword : Span} {readOnly : Bool} :
    ReadsAs parseVariableWord ts (keyword, readOnly) rest ↔
      ReadsAs (takeKeyword (VariableDeclaration.keywordOf readOnly)) ts keyword rest := by
  rw [ReadsAs, parseVariableWord]
  constructor
  · intro h
    split at h
    · obtain ⟨word, r₁, _, hword, h⟩ := h.of_bind
      obtain ⟨heq, rfl⟩ := h.of_return
      cases heq
      exact hword
    · obtain ⟨word, r₁, _, hword, h⟩ := h.of_bind
      obtain ⟨heq, rfl⟩ := h.of_return
      cases heq
      exact hword
    · obtain ⟨_, h⟩ := h
      cases h
  · intro h
    rw [h.nextKind_keyword]
    cases readOnly with
    | false =>
      refine ReadsAs.bind h fun _ => ?_
      exact gives_return
    | true =>
      refine ReadsAs.bind h fun _ => ?_
      exact gives_return

theorem parseVariableDeclaration_iff {d : VariableDeclaration} :
    ReadsAs parseVariableDeclaration ts d rest ↔ DeclarationReading d ts rest := by
  unfold ReadsAs parseVariableDeclaration
  constructor
  · intro h
    obtain ⟨⟨keyword, readOnly⟩, r₁, _, hword, h⟩ := h.of_bind
    obtain ⟨type, r₂, _, _, htype, h⟩ := h.of_bind_afterOptional
    obtain ⟨name, r₃, _, _, hname, h⟩ := h.of_bind_after
    obtain ⟨value, r₄, _, _, hvalue, h⟩ := h.of_bind_afterOptional
    obtain ⟨rfl, rfl⟩ := h.of_return
    exact ⟨r₁, r₂, r₃, parseVariableWord_iff.1 hword, parseDeclaredType_iff.1 htype, hname,
      parseInitialValue_iff.1 hvalue⟩
  · rintro ⟨r₁, r₂, r₃, hword, htype, hname, hvalue⟩
    refine (parseVariableWord_iff.2 hword).bind fun _ => ?_
    refine (parseDeclaredType_iff.2 htype).afterOptional.bind fun _ => ?_
    refine hname.after.bind fun _ => ?_
    refine (parseInitialValue_iff.2 hvalue).afterOptional.bind fun _ => ?_
    exact gives_return

theorem parseCondition_iff {condition : Expression} :
    ReadsAs parseCondition ts condition rest ↔ ConditionReading condition ts rest := by
  unfold ReadsAs parseCondition
  constructor
  · intro h
    obtain ⟨opening, r₁, _, hopening, h⟩ := h.of_bind
    obtain ⟨condition, r₂, _, _, hcondition, h⟩ := h.of_bind_after
    obtain ⟨closing, r₃, _, _, hclosing, h⟩ := h.of_bind_after
    obtain ⟨rfl, rfl⟩ := h.of_return
    exact ⟨r₁, r₂, opening, closing, hopening, hcondition, hclosing⟩
  · rintro ⟨r₁, r₂, opening, closing, hopening, hcondition, hclosing⟩
    refine hopening.bind fun _ => ?_
    refine hcondition.after.bind fun _ => ?_
    refine hclosing.after.bind fun _ => ?_
    exact gives_return

end

/-! ### Parameters and fields -/

section

variable {ts rest : List Token}

theorem parseParameter_iff {p : Parameter} :
    ReadsAs parseParameter ts p rest ↔ ParameterReading p ts rest := by
  unfold ReadsAs parseParameter
  constructor
  · intro h
    obtain ⟨name, r₁, _, hname, h⟩ := h.of_bind
    obtain ⟨type, r₂, _, _, htype, h⟩ := h.of_bind_after
    obtain ⟨rfl, rfl⟩ := h.of_return
    exact ⟨r₁, hname, htype⟩
  · rintro ⟨r₁, hname, htype⟩
    refine hname.bind fun _ => ?_
    refine htype.after.bind fun _ => ?_
    exact gives_return

theorem parseParameters_reading {ts rest : List Token} {ps : List Parameter}
    (h : ReadsAs parseParameters ts ps rest) : ParametersReading ts ps rest := by
  rw [ReadsAs, parseParameters] at h
  obtain ⟨first, r₁, hlt₁, hfirst, h⟩ := h.of_bind
  dsimp only at h
  split at h
  · next hcomma =>
    obtain ⟨rfl, rfl⟩ := h.of_return
    exact .last hfirst (nextKind_of_acceptAfter? hcomma)
  · next hcomma =>
    obtain ⟨others, r₃, _, _, hothers, h⟩ := h.of_bind_after
    have hothers := parseParameters_reading hothers
    obtain ⟨rfl, rfl⟩ := h.of_return
    obtain ⟨rfl, hkind⟩ := eq_cons_of_acceptAfter? hcomma
    exact .more hfirst (takeSign_of_kind hkind) hothers
termination_by ts.length
decreasing_by grind

theorem ParametersReading.reads {ps : List Parameter} (h : ParametersReading ts ps rest) :
    ReadsAs parseParameters ts ps rest := by
  induction h with
  | last hfirst hcomma =>
    rw [ReadsAs, parseParameters]
    refine hfirst.bind fun _ => ?_
    dsimp only
    rw [acceptAfter?_eq_none hcomma]
    exact gives_return
  | more hfirst hcomma _ ih =>
    obtain ⟨_, rfl, hkind, -⟩ := takeSign_iff.1 hcomma
    rw [ReadsAs, parseParameters]
    refine hfirst.bind fun hlt => ?_
    obtain ⟨_, hfound⟩ := acceptAfter?_of_kind hlt hkind
    dsimp only
    rw [hfound]
    refine ih.after.bind fun _ => ?_
    exact gives_return

theorem parseParameters_iff {ps : List Parameter} :
    ReadsAs parseParameters ts ps rest ↔ ParametersReading ts ps rest :=
  ⟨parseParameters_reading, ParametersReading.reads⟩

theorem parseParameterList_iff {ps : List Parameter} {closing : Span} :
    ReadsAs parseParameterList ts (ps, closing) rest ↔
      ParameterListReading ts ps closing rest := by
  unfold ReadsAs parseParameterList
  constructor
  · intro h
    obtain ⟨opening, r₁, _, hopening, h⟩ := h.of_bind
    dsimp only at h
    split at h
    · next hfound =>
      obtain ⟨heq, rfl⟩ := h.of_return
      cases heq
      obtain ⟨rfl, hkind⟩ := eq_cons_of_acceptAfter? hfound
      exact .none hopening (takeSign_of_kind hkind)
    · next hnone =>
      obtain ⟨ps, r₂, _, _, hps, h⟩ := h.of_bind_after
      obtain ⟨closing, r₃, _, _, hclosing, h⟩ := h.of_bind_after
      obtain ⟨heq, rfl⟩ := h.of_return
      cases heq
      exact .some hopening (nextKind_of_acceptAfter? hnone) (parseParameters_iff.1 hps) hclosing
  · intro h
    cases h with
    | none hopening hclosing =>
      obtain ⟨_, rfl, hkind, rfl⟩ := takeSign_iff.1 hclosing
      refine hopening.bind fun hlt => ?_
      obtain ⟨_, hfound⟩ := acceptAfter?_of_kind hlt hkind
      dsimp only
      rw [hfound]
      exact gives_return
    | some hopening hkind hps hclosing =>
      refine hopening.bind fun _ => ?_
      dsimp only
      rw [acceptAfter?_eq_none hkind]
      refine hps.reads.after.bind fun _ => ?_
      refine hclosing.after.bind fun _ => ?_
      exact gives_return

theorem parseFields_reading {ts rest : List Token} {fields : List Parameter} {closing : Span}
    (h : ReadsAs parseFields ts (fields, closing) rest) : FieldsReading ts fields closing rest := by
  rw [ReadsAs, parseFields] at h
  split at h
  · next hfound =>
    obtain ⟨heq, rfl⟩ := h.of_return
    cases heq
    obtain ⟨heq, hkind⟩ := accept?_eq_some hfound
    exact .none (takeSign_iff.2 ⟨_, heq, hkind, rfl⟩)
  · next hnone =>
    have hkind := accept?_eq_none_iff.1 hnone
    split at h
    · obtain ⟨_, h⟩ := h
      cases h
    · obtain ⟨first, r₁, _, hfirst, h⟩ := h.of_bind
      dsimp only at h
      split at h
      · next hfound =>
        obtain ⟨⟨others, stop⟩, r₃, _, _, hothers, h⟩ := h.of_bind_after
        have hothers := parseFields_reading hothers
        obtain ⟨heq, rfl⟩ := h.of_return
        cases heq
        obtain ⟨rfl, hcomma⟩ := eq_cons_of_acceptAfter? hfound
        exact .more hkind hfirst (takeSign_of_kind hcomma) hothers
      · next hnone =>
        obtain ⟨stop, r₂, _, _, hclosing, h⟩ := h.of_bind_after
        obtain ⟨heq, rfl⟩ := h.of_return
        cases heq
        exact .last hkind hfirst (nextKind_of_acceptAfter? hnone) hclosing
termination_by ts.length
decreasing_by grind

theorem FieldsReading.reads {fields : List Parameter} {closing : Span}
    (h : FieldsReading ts fields closing rest) :
    ReadsAs parseFields ts (fields, closing) rest := by
  induction h with
  | none hclosing =>
    obtain ⟨_, rfl, hkind, rfl⟩ := takeSign_iff.1 hclosing
    rw [ReadsAs, parseFields, accept?_of_kind hkind]
    exact gives_return
  | last hkind hfirst hcomma hclosing =>
    rw [ReadsAs, parseFields, accept?_eq_none_iff.2 hkind, if_neg hfirst.isEmpty_eq_false]
    refine hfirst.bind fun _ => ?_
    dsimp only
    rw [acceptAfter?_eq_none hcomma]
    refine hclosing.after.bind fun _ => ?_
    exact gives_return
  | more hkind hfirst hcomma _ ih =>
    obtain ⟨_, rfl, hsign, -⟩ := takeSign_iff.1 hcomma
    rw [ReadsAs, parseFields, accept?_eq_none_iff.2 hkind, if_neg hfirst.isEmpty_eq_false]
    refine hfirst.bind fun hlt => ?_
    obtain ⟨_, hfound⟩ := acceptAfter?_of_kind hlt hsign
    dsimp only
    rw [hfound]
    refine ih.after.bind fun _ => ?_
    exact gives_return

theorem parseFields_iff {fields : List Parameter} {closing : Span} :
    ReadsAs parseFields ts (fields, closing) rest ↔ FieldsReading ts fields closing rest :=
  ⟨parseFields_reading, FieldsReading.reads⟩

end

end TodLang
