import TodLang.Grammar.Expression
import TodLang.Proofs.Grammar.Outcome
/-!
What reading a written type comes to. For each reader of a part of a type there is a relation
between the tokens that are read, the part and the tokens that are left, and it holds just if the
reader gives that part and leaves these tokens. A reader that only tries a type finds what the other
one reads.
-/

namespace TodLang

/-! ### Ways to read -/

/-- How the name that a written type begins with is read. -/
inductive QualifiedNameReading : List Token → QualifiedName → List Token → Prop
  | plain {ts rest : List Token} {name : Ident} (hname : ReadsAs takeIdent ts name rest)
      (hseparator : nextKind rest ≠ some (.sign .pathSep)) :
      QualifiedNameReading ts ⟨none, name⟩ rest
  | qualified {ts r₁ r₂ rest : List Token} {package name : Ident} {separator : Span}
      (hpackage : ReadsAs takeIdent ts package r₁)
      (hseparator : ReadsAs (takeSign .pathSep) r₁ separator r₂)
      (hname : ReadsAs takeIdent r₂ name rest) : QualifiedNameReading ts ⟨some package, name⟩ rest

mutual

/-- How a written type is read. -/
inductive TypeReading : List Token → TypeClause → List Token → Prop
  | plain {ts rest : List Token} {package : Option Ident} {name : Ident}
      (hname : QualifiedNameReading ts ⟨package, name⟩ rest)
      (hopening : nextKind rest ≠ some (.sign .lbrack)) :
      TypeReading ts ⟨package, name, [], none⟩ rest
  | generic {ts r₁ r₂ r₃ rest : List Token} {package : Option Ident} {name : Ident}
      {arguments : List TypeClause} {opening closing : Span}
      (hname : QualifiedNameReading ts ⟨package, name⟩ r₁)
      (hopening : ReadsAs (takeSign .lbrack) r₁ opening r₂)
      (harguments : TypeArgumentsReading r₂ arguments r₃)
      (hclosing : ReadsAs (takeSign .rbrack) r₃ closing rest) :
      TypeReading ts ⟨package, name, arguments, some closing⟩ rest

/-- How written types with commas between them are read. -/
inductive TypeArgumentsReading : List Token → List TypeClause → List Token → Prop
  | last {ts rest : List Token} {first : TypeClause} (hfirst : TypeReading ts first rest)
      (hcomma : nextKind rest ≠ some (.sign .comma)) : TypeArgumentsReading ts [first] rest
  | more {ts r₁ r₂ rest : List Token} {first : TypeClause} {others : List TypeClause}
      {comma : Span} (hfirst : TypeReading ts first r₁)
      (hcomma : ReadsAs (takeSign .comma) r₁ comma r₂)
      (hothers : TypeArgumentsReading r₂ others rest) :
      TypeArgumentsReading ts (first :: others) rest

end

/-! ### What is read is read in one of these ways -/

section

variable {ts rest : List Token}

theorem parseQualifiedName_iff {name : QualifiedName} :
    ReadsAs parseQualifiedName ts name rest ↔ QualifiedNameReading ts name rest := by
  unfold ReadsAs parseQualifiedName
  constructor
  · intro h
    split at h
    · obtain ⟨package, r₁, _, hpackage, h⟩ := h.of_bind
      obtain ⟨separator, r₂, _, _, hseparator, h⟩ := h.of_bind_after
      obtain ⟨name, r₃, _, _, hname, h⟩ := h.of_bind_after
      obtain ⟨rfl, rfl⟩ := h.of_return
      exact .qualified hpackage hseparator hname
    · next hqualified =>
      obtain ⟨name, r₁, _, hname, h⟩ := h.of_bind
      obtain ⟨rfl, rfl⟩ := h.of_return
      have hname : ReadsAs takeIdent ts name r₁ := hname
      rw [isQualified, hname.kindAt_succ, kindAt_zero, decide_eq_true_eq] at hqualified
      exact .plain hname hqualified
  · intro h
    cases h with
    | plain hname hseparator =>
      rw [isQualified, hname.kindAt_succ, kindAt_zero, if_neg (by simpa using hseparator)]
      refine hname.bind fun _ => ?_
      exact gives_return
    | qualified hpackage hseparator hname =>
      rw [isQualified, hpackage.kindAt_succ, kindAt_zero, hseparator.nextKind_sign]
      refine hpackage.bind fun _ => ?_
      refine hseparator.after.bind fun _ => ?_
      refine hname.after.bind fun _ => ?_
      exact gives_return

mutual

theorem parseTypeClause_reading {ts rest : List Token} {type : TypeClause}
    (h : ReadsAs parseTypeClause ts type rest) : TypeReading ts type rest := by
  rw [ReadsAs, parseTypeClause] at h
  obtain ⟨⟨package, name⟩, r₁, hlt₁, hname, h⟩ := h.of_bind
  have hname := parseQualifiedName_iff.1 hname
  dsimp only at h
  split at h
  · next hopening =>
    obtain ⟨rfl, rfl⟩ := h.of_return
    exact .plain hname (nextKind_of_acceptAfter? hopening)
  · next r₂ _ hopening =>
    obtain ⟨arguments, r₃, _, _, harguments, h⟩ := h.of_bind_after
    obtain ⟨closing, r₄, _, _, hclosing, h⟩ := h.of_bind_after
    obtain ⟨rfl, rfl⟩ := h.of_return
    have harguments := parseTypeArguments_reading harguments
    obtain ⟨rfl, hkind⟩ := eq_cons_of_acceptAfter? hopening
    exact .generic hname (takeSign_of_kind hkind) harguments hclosing
termination_by 2 * ts.length
decreasing_by grind

theorem parseTypeArguments_reading {ts rest : List Token} {types : List TypeClause}
    (h : ReadsAs parseTypeArguments ts types rest) : TypeArgumentsReading ts types rest := by
  rw [ReadsAs, parseTypeArguments] at h
  obtain ⟨first, r₁, hlt₁, hfirst, h⟩ := h.of_bind
  have hfirst := parseTypeClause_reading hfirst
  dsimp only at h
  split at h
  · next hcomma =>
    obtain ⟨rfl, rfl⟩ := h.of_return
    exact .last hfirst (nextKind_of_acceptAfter? hcomma)
  · next hcomma =>
    obtain ⟨others, r₃, _, _, hothers, h⟩ := h.of_bind_after
    obtain ⟨rfl, rfl⟩ := h.of_return
    have hothers := parseTypeArguments_reading hothers
    obtain ⟨rfl, hkind⟩ := eq_cons_of_acceptAfter? hcomma
    exact .more hfirst (takeSign_of_kind hkind) hothers
termination_by 2 * ts.length + 1
decreasing_by all_goals grind

end

mutual

theorem TypeReading.reads {ts rest : List Token} {type : TypeClause}
    (h : TypeReading ts type rest) : ReadsAs parseTypeClause ts type rest := by
  rw [ReadsAs, parseTypeClause]
  match h with
  | .plain hname hopening =>
    refine (parseQualifiedName_iff.2 hname).bind fun _ => ?_
    dsimp only
    rw [acceptAfter?_eq_none hopening]
    exact gives_return
  | .generic hname hopening harguments hclosing =>
    have hinside := harguments.reads
    obtain ⟨_, rfl, hkind, -⟩ := takeSign_iff.1 hopening
    refine (parseQualifiedName_iff.2 hname).bind fun hlt => ?_
    obtain ⟨_, hfound⟩ := acceptAfter?_of_kind hlt hkind
    dsimp only
    rw [hfound]
    refine hinside.after.bind fun _ => ?_
    refine hclosing.after.bind fun _ => ?_
    exact gives_return
termination_by structural h

theorem TypeArgumentsReading.reads {ts rest : List Token} {types : List TypeClause}
    (h : TypeArgumentsReading ts types rest) : ReadsAs parseTypeArguments ts types rest := by
  rw [ReadsAs, parseTypeArguments]
  match h with
  | .last hfirst hcomma =>
    refine hfirst.reads.bind fun _ => ?_
    dsimp only
    rw [acceptAfter?_eq_none hcomma]
    exact gives_return
  | .more hfirst hcomma hothers =>
    have hback := hothers.reads
    have hfront := hfirst.reads
    obtain ⟨_, rfl, hkind, -⟩ := takeSign_iff.1 hcomma
    refine hfront.bind fun hlt => ?_
    obtain ⟨_, hfound⟩ := acceptAfter?_of_kind hlt hkind
    dsimp only
    rw [hfound]
    refine hback.after.bind fun _ => ?_
    exact gives_return
termination_by structural h

end

theorem parseTypeClause_iff {type : TypeClause} :
    ReadsAs parseTypeClause ts type rest ↔ TypeReading ts type rest :=
  ⟨parseTypeClause_reading, TypeReading.reads⟩

@[grind →]
theorem QualifiedNameReading.length_lt {name : QualifiedName}
    (h : QualifiedNameReading ts name rest) : rest.length < ts.length :=
  (parseQualifiedName_iff.2 h).length_lt

@[grind →]
theorem TypeReading.length_lt {type : TypeClause} (h : TypeReading ts type rest) :
    rest.length < ts.length :=
  h.reads.length_lt

@[grind →]
theorem TypeArgumentsReading.length_lt {types : List TypeClause}
    (h : TypeArgumentsReading ts types rest) : rest.length < ts.length :=
  h.reads.length_lt

end

/-! ### Types that are only tried -/

section

variable {α β : Type} {m n : Nat}

theorem toOption_bind {ε : Type} (x : Except ε α) (next : α → Except ε β) :
    (x >>= next).toOption = x.toOption >>= fun a => (next a).toOption := by
  cases x <;> rfl

theorem toOption_after {h : m < n} (x : Parse α m) :
    (after h x).toOption = findAfter? h x.toOption := by
  cases x <;> rfl

theorem toOption_take (kind : TokenKind) (tokens : List Token) :
    (take kind tokens).toOption = accept? kind tokens := by
  unfold take
  cases accept? kind tokens <;> rfl

end

theorem toOption_takeIdent (tokens : List Token) :
    (takeIdent tokens).toOption =
      (accept? .identifier tokens).map fun p => ⟨p.value.ident, p.rest, p.shorter⟩ := by
  rw [takeIdent, toOption_bind, toOption_take]
  cases accept? .identifier tokens <;> rfl

theorem toOption_takeSign (sign : Sign) (tokens : List Token) :
    (takeSign sign tokens).toOption =
      (accept? (.sign sign) tokens).map fun p => ⟨p.value.span, p.rest, p.shorter⟩ := by
  rw [takeSign, toOption_bind, toOption_take]
  cases accept? (.sign sign) tokens <;> rfl

theorem tryQualifiedName?_eq (tokens : List Token) :
    tryQualifiedName? tokens = (parseQualifiedName tokens).toOption := by
  unfold tryQualifiedName? parseQualifiedName acceptAfter?
  split
  · simp only [toOption_bind, toOption_after, toOption_takeIdent, toOption_takeSign]
    cases accept? .identifier tokens with
    | none => rfl
    | some p₁ =>
      cases h₂ : accept? (.sign .pathSep) p₁.rest with
      | none => simp [findAfter?, h₂]
      | some p₂ =>
        cases h₃ : accept? .identifier p₂.rest with
        | none => simp [findAfter?, h₂, h₃, Parsed.below]
        | some p₃ =>
          simp only [findAfter?, h₂, h₃, Parsed.below, Option.map_some, Option.bind_eq_bind,
            Option.bind_some]
          rfl
  · simp only [toOption_bind, toOption_takeIdent]
    cases accept? .identifier tokens <;> rfl

mutual

theorem tryTypeClause?_eq (tokens : List Token) :
    tryTypeClause? tokens = (parseTypeClause tokens).toOption := by
  rw [tryTypeClause?, parseTypeClause, tryQualifiedName?_eq, toOption_bind]
  congr 1
  funext p
  dsimp only
  cases acceptAfter? p.shorter (.sign .lbrack) with
  | none => rfl
  | some p₂ =>
    have := p₂.shorter
    simp only [toOption_bind, toOption_after, toOption_takeSign, ← tryTypeArguments?_eq p₂.rest]
    cases tryTypeArguments? p₂.rest with
    | none => rfl
    | some p₃ =>
      cases h₄ : accept? (.sign .rbrack) p₃.rest with
      | none => simp [findAfter?, acceptAfter?, h₄, Parsed.below]
      | some p₄ => simp [findAfter?, acceptAfter?, h₄, Parsed.below]; rfl
termination_by 2 * tokens.length

theorem tryTypeArguments?_eq (tokens : List Token) :
    tryTypeArguments? tokens = (parseTypeArguments tokens).toOption := by
  rw [tryTypeArguments?, parseTypeArguments, tryTypeClause?_eq, toOption_bind]
  congr 1
  funext p
  dsimp only
  cases acceptAfter? p.shorter (.sign .comma) with
  | none => rfl
  | some p₂ =>
    have := p₂.shorter
    simp only [toOption_bind, toOption_after, ← tryTypeArguments?_eq p₂.rest]
    rfl
termination_by 2 * tokens.length + 1

end

/-- A written type with a parenthesis behind it, both of which have to be there. -/
def parseCastHead (tokens : List Token) : Parse TypeClause tokens.length := do
  let ⟨type, r₁, h₁⟩ ← parseTypeClause tokens
  let ⟨_, r₂, h₂⟩ ← after h₁ (takeSign .lparen r₁)
  return ⟨type, r₂, h₂⟩

/-- What is tried is found if and only if it could be read if it had to be there. -/
theorem tryCastHead?_eq (tokens : List Token) :
    tryCastHead? tokens = (parseCastHead tokens).toOption := by
  rw [tryCastHead?, parseCastHead, tryTypeClause?_eq, toOption_bind]
  congr 1
  funext p
  simp only [toOption_bind, toOption_after, toOption_takeSign, acceptAfter?]
  cases accept? (.sign .lparen) p.rest <;> rfl

section

variable {ts rest : List Token} {type : TypeClause}

theorem parseCastHead_iff :
    ReadsAs parseCastHead ts type rest ↔
      ∃ t, TypeReading ts type (t :: rest) ∧ t.kind = .sign .lparen := by
  unfold ReadsAs parseCastHead
  constructor
  · intro h
    obtain ⟨type, r₁, _, htype, h⟩ := h.of_bind
    obtain ⟨opening, r₂, _, _, hopening, h⟩ := h.of_bind_after
    obtain ⟨rfl, rfl⟩ := h.of_return
    obtain ⟨t, rfl, hkind, -⟩ := takeSign_iff.1 hopening
    exact ⟨t, parseTypeClause_iff.1 htype, hkind⟩
  · rintro ⟨t, htype, hkind⟩
    refine htype.reads.bind fun _ => ?_
    refine (takeSign_of_kind hkind).after.bind fun _ => ?_
    exact gives_return

theorem tryCastHead?_iff :
    (∃ hlt, tryCastHead? ts = some ⟨type, rest, hlt⟩) ↔
      ∃ t, TypeReading ts type (t :: rest) ∧ t.kind = .sign .lparen := by
  rw [← parseCastHead_iff, tryCastHead?_eq, ReadsAs, Gives]
  cases parseCastHead ts with
  | error mismatch => simp [Except.toOption]
  | ok head => simp [Except.toOption]

end

end TodLang
