import TodLang.Tree.Relocation
import TodLang.Proofs.Grammar.TypeReadings
/-!
What the readers of the grammar take notice of. Layout counts in two places only: where two signs
may be a step, and where `main` may stand in front of a name. Rows of tokens that become the same
row when each is relocated, and have no difference in those two, are congruent. The lemmas here say
of the readers of single tokens and of written types that they agree on such rows: what they read
becomes the same when it is relocated with the tokens.
-/

namespace TodLang

/-! ### Tokens that are congruent -/

/-- Two rows of tokens that become the same where two relocations put them, and look the same from
each of their tokens on to the two readers that take notice of layout. -/
inductive Congruent (g g' : Relocation) : List Token → List Token → Prop
  | nil : Congruent g g' [] []
  | cons {t u : Token} {ts us : List Token} (hmoved : t.relocate g = u.relocate g')
      (hopening : opening (t :: ts) = opening (u :: us))
      (hmain : atMain (t :: ts) = atMain (u :: us)) (hrest : Congruent g g' ts us) :
      Congruent g g' (t :: ts) (u :: us)

section

variable {g g' : Relocation} {t u : Token}

theorem Token.kind_eq_of_relocate_eq (h : t.relocate g = u.relocate g') : t.kind = u.kind := by
  have hkind := congrArg Token.kind h
  exact hkind

theorem Token.span_eq_of_relocate_eq (h : t.relocate g = u.relocate g') :
    g.span t.span = g'.span u.span := by
  have hspan := congrArg Token.span h
  exact hspan

theorem Token.ident_relocate_eq (h : t.relocate g = u.relocate g') :
    t.ident.relocate g = u.ident.relocate g' := by
  have hliteral := congrArg Token.literal h
  have hspan := Token.span_eq_of_relocate_eq h
  simp only [Token.relocate] at hliteral
  simp only [Token.ident, Ident.relocate, hliteral, hspan]

end

namespace Congruent

variable {g g' : Relocation} {ts us : List Token}

theorem kindAt_eq (h : Congruent g g' ts us) (distance : Nat) :
    kindAt ts distance = kindAt us distance := by
  induction h generalizing distance with
  | nil => rfl
  | cons hmoved _ _ _ ih =>
    cases distance with
    | zero => simp [kindAt, Token.kind_eq_of_relocate_eq hmoved]
    | succ distance => simpa [kindAt] using ih distance

theorem nextKind_eq (h : Congruent g g' ts us) : nextKind ts = nextKind us :=
  h.kindAt_eq 0

theorem opening_eq (h : Congruent g g' ts us) : opening ts = opening us := by
  cases h with
  | nil => rfl
  | cons _ hopening _ _ => exact hopening

theorem atMain_eq (h : Congruent g g' ts us) : atMain ts = atMain us := by
  cases h with
  | nil => rfl
  | cons _ _ hmain _ => exact hmain

theorem isEmpty_eq (h : Congruent g g' ts us) : ts.isEmpty = us.isEmpty := by
  cases h <;> rfl

theorem leadingOperator?_eq (h : Congruent g g' ts us) (parent : Nat) :
    leadingOperator? parent ts = leadingOperator? parent us := by
  simp only [leadingOperator?, h.nextKind_eq]

theorem joiningOperator?_eq (h : Congruent g g' ts us) (parent : Nat) :
    joiningOperator? parent ts = joiningOperator? parent us := by
  simp only [joiningOperator?, h.nextKind_eq]

end Congruent

/-! ### Outcomes that agree -/

section

variable {α β : Type} {γ δ : Type} {m n m' n' : Nat} {g g' : Relocation} {ts us : List Token}
  {move : Relocation → α → γ} {move' : Relocation → β → δ}

/-- Two readers that both find a value, the same one where it is moved, with rows behind it that are
congruent, or that both stop for one reason at rows that are congruent. -/
def Agrees (g g' : Relocation) (move : Relocation → α → γ) : Parse α m → Parse α n → Prop
  | .ok p, .ok q => move g p.value = move g' q.value ∧ Congruent g g' p.rest q.rest
  | .error a, .error b => a.wanted = b.wanted ∧ Congruent g g' a.rest b.rest
  | _, _ => False

theorem agrees_return {p : Parsed α m} {q : Parsed α n} (hvalue : move g p.value = move g' q.value)
    (hrest : Congruent g g' p.rest q.rest) :
    Agrees g g' move (pure p : Parse α m) (pure q : Parse α n) :=
  ⟨hvalue, hrest⟩

theorem agrees_error {wanted : Wanted} (h : Congruent g g' ts us) :
    Agrees g g' move (.error ⟨wanted, ts⟩ : Parse α m) (.error ⟨wanted, us⟩ : Parse α n) :=
  ⟨rfl, h⟩

/-- Readers that go on in the same way where two others agree agree as well. -/
theorem Agrees.bind {x : Parse α m} {y : Parse α n} {next : Parsed α m → Parse β m'}
    {next' : Parsed α n → Parse β n'} (h : Agrees g g' move x y)
    (hnext : ∀ p q, move g p.value = move g' q.value → Congruent g g' p.rest q.rest →
      Agrees g g' move' (next p) (next' q)) :
    Agrees g g' move' (x >>= next) (y >>= next') := by
  match x, y, h with
  | .ok p, .ok q, ⟨hvalue, hrest⟩ => exact hnext p q hvalue hrest
  | .error _, .error _, h => exact h

theorem Agrees.after {x : Parse α m} {y : Parse α n} (h : Agrees g g' move x y) {hm : m < m'}
    {hn : n < n'} : Agrees g g' move (TodLang.after hm x) (TodLang.after hn y) := by
  match x, y, h with
  | .ok _, .ok _, h => exact h
  | .error _, .error _, h => exact h

theorem Agrees.afterOptional {x : Parse α (m + 1)} {y : Parse α (n + 1)}
    (h : Agrees g g' move x y) {hm : m < m'} {hn : n < n'} :
    Agrees g g' move (TodLang.afterOptional hm x) (TodLang.afterOptional hn y) := by
  match x, y, h with
  | .ok _, .ok _, h => exact h
  | .error _, .error _, h => exact h

/-- What one of two readers finds, the other finds as well. -/
def AgreesFound (g g' : Relocation) (move : Relocation → α → γ) :
    Option (Parsed α m) → Option (Parsed α n) → Prop
  | some p, some q => move g p.value = move g' q.value ∧ Congruent g g' p.rest q.rest
  | none, none => True
  | _, _ => False

theorem Agrees.toOption {x : Parse α m} {y : Parse α n} (h : Agrees g g' move x y) :
    AgreesFound g g' move x.toOption y.toOption := by
  match x, y, h with
  | .ok _, .ok _, h => exact h
  | .error _, .error _, _ => trivial

theorem AgreesFound.findAfter? {x : Option (Parsed α m)} {y : Option (Parsed α n)}
    (h : AgreesFound g g' move x y) {hm : m < m'} {hn : n < n'} :
    AgreesFound g g' move (findAfter? hm x) (findAfter? hn y) := by
  match x, y, h with
  | some _, some _, h => exact h
  | none, none, h => exact h

theorem AgreesFound.cases {x : Option (Parsed α m)} {y : Option (Parsed α n)}
    (h : AgreesFound g g' move x y) :
    (x = none ∧ y = none) ∨
      ∃ p q, x = some p ∧ y = some q ∧ move g p.value = move g' q.value ∧
        Congruent g g' p.rest q.rest := by
  match x, y, h with
  | some p, some q, ⟨hvalue, hrest⟩ => exact .inr ⟨p, q, rfl, rfl, hvalue, hrest⟩
  | none, none, _ => exact .inl ⟨rfl, rfl⟩

end

/-! ### Single tokens -/

section

variable {g g' : Relocation} {ts us : List Token}

theorem Congruent.accept? (h : Congruent g g' ts us) (kind : TokenKind) :
    AgreesFound g g' Token.relocate (accept? kind ts) (TodLang.accept? kind us) := by
  cases h with
  | nil => trivial
  | @cons t u ts us hmoved _ _ hrest =>
    have hkind := Token.kind_eq_of_relocate_eq hmoved
    by_cases ht : t.kind = kind
    · have hu : u.kind = kind := hkind.symm.trans ht
      simp only [TodLang.accept?, if_pos ht, if_pos hu]
      exact ⟨hmoved, hrest⟩
    · have hu : u.kind ≠ kind := fun hu => ht (hkind.trans hu)
      simp only [TodLang.accept?, if_neg ht, if_neg hu]
      trivial

theorem Congruent.acceptAfter? (h : Congruent g g' ts us) {m n : Nat} (hm : ts.length < m)
    (hn : us.length < n) (kind : TokenKind) :
    AgreesFound g g' Token.relocate (acceptAfter? hm kind) (TodLang.acceptAfter? hn kind) :=
  (h.accept? kind).findAfter?

theorem take_agrees (h : Congruent g g' ts us) (kind : TokenKind) :
    Agrees g g' Token.relocate (take kind ts) (take kind us) := by
  unfold take
  obtain ⟨hts, hus⟩ | ⟨p, q, hts, hus, hvalue, hrest⟩ := (h.accept? kind).cases
  · rw [hts, hus]
    exact agrees_error h
  · rw [hts, hus]
    exact ⟨hvalue, hrest⟩

theorem takeOptional_agrees (h : Congruent g g' ts us) (kind : TokenKind) :
    Agrees g g' (fun _ _ => ()) (takeOptional kind ts) (takeOptional kind us) := by
  unfold takeOptional
  obtain ⟨hts, hus⟩ | ⟨p, q, hts, hus, -, hrest⟩ := (h.accept? kind).cases
  · rw [hts, hus]
    exact ⟨rfl, h⟩
  · rw [hts, hus]
    exact ⟨rfl, hrest⟩

theorem takeIdent_agrees (h : Congruent g g' ts us) :
    Agrees g g' Ident.relocate (takeIdent ts) (takeIdent us) :=
  (take_agrees h _).bind fun _ _ hvalue hrest =>
    agrees_return (Token.ident_relocate_eq hvalue) hrest

theorem takeOperator_agrees (h : Congruent g g' ts us) (sign : Sign) :
    Agrees g g' Operator.relocate (takeOperator sign ts) (takeOperator sign us) := by
  refine (take_agrees h _).bind fun _ _ hvalue hrest => agrees_return ?_ hrest
  simp only [Operator.relocate, Token.span_eq_of_relocate_eq hvalue]

theorem takeSign_agrees (h : Congruent g g' ts us) (sign : Sign) :
    Agrees g g' Relocation.span (takeSign sign ts) (takeSign sign us) :=
  (take_agrees h _).bind fun _ _ hvalue hrest =>
    agrees_return (Token.span_eq_of_relocate_eq hvalue) hrest

theorem takeKeyword_agrees (h : Congruent g g' ts us) (word : Keyword) :
    Agrees g g' Relocation.span (takeKeyword word ts) (takeKeyword word us) :=
  (take_agrees h _).bind fun _ _ hvalue hrest =>
    agrees_return (Token.span_eq_of_relocate_eq hvalue) hrest

end

/-! ### Written types -/

/-- The name that a type begins with, where a relocation puts it. -/
def QualifiedName.relocate (g : Relocation) (name : QualifiedName) : QualifiedName :=
  ⟨name.package.map (Ident.relocate g), name.name.relocate g⟩

section

variable {g g' : Relocation}

theorem TypeClause.isGeneric_eq_of_relocate_eq {c d : TypeClause}
    (h : c.relocate g = d.relocate g') : c.isGeneric = d.isGeneric := by
  have hgeneric := congrArg TypeClause.isGeneric h
  rwa [relocate_isGeneric, relocate_isGeneric] at hgeneric

theorem parseQualifiedName_agrees {ts us : List Token} (h : Congruent g g' ts us) :
    Agrees g g' QualifiedName.relocate (parseQualifiedName ts) (parseQualifiedName us) := by
  unfold parseQualifiedName
  have hqualified : isQualified ts = isQualified us := by
    simp only [isQualified, h.kindAt_eq]
  rw [hqualified]
  split
  · refine (takeIdent_agrees h).bind fun p₁ q₁ hpackage h₁ => ?_
    refine (takeSign_agrees h₁ _).after.bind fun p₂ q₂ _ h₂ => ?_
    refine (takeIdent_agrees h₂).after.bind fun p₃ q₃ hname h₃ => ?_
    exact agrees_return (by simp [QualifiedName.relocate, hpackage, hname]) h₃
  · refine (takeIdent_agrees h).bind fun p₁ q₁ hname h₁ => ?_
    exact agrees_return (by simp [QualifiedName.relocate, hname]) h₁

mutual

theorem parseTypeClause_agrees {ts us : List Token} (h : Congruent g g' ts us) :
    Agrees g g' TypeClause.relocate (parseTypeClause ts) (parseTypeClause us) := by
  rw [parseTypeClause, parseTypeClause]
  refine (parseQualifiedName_agrees h).bind fun p₁ q₁ hname h₁ => ?_
  simp only [QualifiedName.relocate, QualifiedName.mk.injEq] at hname
  dsimp only
  obtain ⟨hp, hq⟩ | ⟨p₂, q₂, hp, hq, -, h₂⟩ :=
    (h₁.acceptAfter? p₁.shorter q₁.shorter (.sign .lbrack)).cases
  · rw [hp, hq]
    exact agrees_return (by simp [TypeClause.relocate, TypeClause.relocateAll, hname]) h₁
  · rw [hp, hq]
    have := p₂.shorter
    refine (parseTypeArguments_agrees h₂).after.bind fun p₃ q₃ harguments h₃ => ?_
    refine (takeSign_agrees h₃ _).after.bind fun p₄ q₄ hclosing h₄ => ?_
    exact agrees_return (by simp [TypeClause.relocate, hname, harguments, hclosing]) h₄
termination_by 2 * ts.length

theorem parseTypeArguments_agrees {ts us : List Token} (h : Congruent g g' ts us) :
    Agrees g g' TypeClause.relocateAll (parseTypeArguments ts) (parseTypeArguments us) := by
  rw [parseTypeArguments, parseTypeArguments]
  refine (parseTypeClause_agrees h).bind fun p₁ q₁ hfirst h₁ => ?_
  dsimp only
  obtain ⟨hp, hq⟩ | ⟨p₂, q₂, hp, hq, -, h₂⟩ :=
    (h₁.acceptAfter? p₁.shorter q₁.shorter (.sign .comma)).cases
  · rw [hp, hq]
    exact agrees_return (by simp [TypeClause.relocateAll, hfirst]) h₁
  · rw [hp, hq]
    have := p₂.shorter
    refine (parseTypeArguments_agrees h₂).after.bind fun p₃ q₃ hothers h₃ => ?_
    exact agrees_return (by simp [TypeClause.relocateAll, hfirst, hothers]) h₃
termination_by 2 * ts.length + 1

end

end

/-! ### Written types that may be missing -/

section

variable {g g' : Relocation} {ts us : List Token}

theorem parseOptionalTypeClause_agrees (h : Congruent g g' ts us) :
    Agrees g g' (fun g => Option.map (TypeClause.relocate g)) (parseOptionalTypeClause ts)
      (parseOptionalTypeClause us) := by
  unfold parseOptionalTypeClause
  rw [h.nextKind_eq]
  split
  · refine (parseTypeClause_agrees h).bind fun p q htype hrest => ?_
    exact agrees_return (congrArg some htype) hrest
  · exact agrees_return rfl h

theorem tryTypeClause?_agrees (h : Congruent g g' ts us) :
    AgreesFound g g' TypeClause.relocate (tryTypeClause? ts) (tryTypeClause? us) := by
  rw [tryTypeClause?_eq, tryTypeClause?_eq]
  exact (parseTypeClause_agrees h).toOption

theorem tryCastHead?_agrees (h : Congruent g g' ts us) :
    AgreesFound g g' TypeClause.relocate (tryCastHead? ts) (tryCastHead? us) := by
  unfold tryCastHead?
  obtain ⟨hp, hq⟩ | ⟨p₁, q₁, hp, hq, htype, h₁⟩ := (tryTypeClause?_agrees h).cases
  · rw [hp, hq]
    trivial
  · rw [hp, hq]
    obtain ⟨hp₂, hq₂⟩ | ⟨p₂, q₂, hp₂, hq₂, -, h₂⟩ :=
      (h₁.acceptAfter? p₁.shorter q₁.shorter (.sign .lparen)).cases
    · simp [hp₂, hq₂, AgreesFound]
    · simp only [Option.bind_eq_bind, Option.bind_some, hp₂, hq₂]
      exact ⟨htype, h₂⟩

end

end TodLang
