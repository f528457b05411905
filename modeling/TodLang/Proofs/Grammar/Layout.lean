import TodLang.Proofs.Grammar.Lockstep
/-!
Sources that differ in their layout. Rows of tokens that differ in their places at most are alike if
they look the same to the two readers that take notice of layout. They are congruent, with all
places forgotten, and so they are read as the same program.
-/

namespace TodLang

/-! ### Tokens that are alike -/

/-- Two rows of tokens that differ in their places at most, and look the same from each of their
tokens on to the two readers that take notice of layout. -/
inductive Alike : List Token → List Token → Prop
  | nil : Alike [] []
  | cons {t u : Token} {ts us : List Token} (hbare : t.bare = u.bare)
      (hopening : opening (t :: ts) = opening (u :: us))
      (hmain : atMain (t :: ts) = atMain (u :: us)) (hrest : Alike ts us) :
      Alike (t :: ts) (u :: us)

theorem Token.kind_eq_of_bare_eq {t u : Token} (h : t.bare = u.bare) : t.kind = u.kind := by
  have hkind := congrArg Token.kind h
  exact hkind

theorem Token.literal_eq_of_bare_eq {t u : Token} (h : t.bare = u.bare) :
    t.literal = u.literal := by
  have hliteral := congrArg Token.literal h
  exact hliteral

namespace Alike

variable {ts us : List Token}

theorem congruent (h : Alike ts us) : Congruent .nowhere .nowhere ts us := by
  induction h with
  | nil => exact .nil
  | cons hbare hopening hmain _ ih => exact .cons hbare hopening hmain ih

theorem of_congruent (h : Congruent .nowhere .nowhere ts us) : Alike ts us := by
  induction h with
  | nil => exact .nil
  | cons hmoved hopening hmain _ ih => exact .cons hmoved hopening hmain ih

theorem length_eq (h : Alike ts us) : ts.length = us.length := by
  induction h with
  | nil => rfl
  | cons _ _ _ _ ih => simp [ih]

theorem nextKind_eq (h : Alike ts us) : nextKind ts = nextKind us :=
  h.congruent.nextKind_eq

theorem opening_eq (h : Alike ts us) : opening ts = opening us :=
  h.congruent.opening_eq

theorem atMain_eq (h : Alike ts us) : atMain ts = atMain us :=
  h.congruent.atMain_eq

end Alike

/-- The name that a type begins with, at no place. -/
def QualifiedName.bare (name : QualifiedName) : QualifiedName :=
  ⟨name.package.map Ident.bare, name.name.bare⟩

theorem Expression.isArrayAssignment_bare (e : Expression) :
    e.bare.isArrayAssignment = e.isArrayAssignment := by
  cases e <;> rfl

/-- Two readings of whole programs that come to the same: the same members but for their places, or
the same thing wanted at rows of tokens that are alike. -/
def AgreeAsPrograms : Except Mismatch (List Member) → Except Mismatch (List Member) → Prop
  | .ok members, .ok members' => members.map Member.bare = members'.map Member.bare
  | .error a, .error b => a.wanted = b.wanted ∧ Alike a.rest b.rest
  | _, _ => False

/-- Rows of tokens that are alike are read as the same program. -/
theorem parseMembers_agrees {ts us : List Token} (h : Alike ts us) :
    AgreeAsPrograms (parseMembers ts) (parseMembers us) := by
  have hmembers := parseMembers_congruent h.congruent
  match parseMembers ts, parseMembers us, hmembers with
  | .ok _, .ok _, hmembers =>
    rw [MembersAgree, Member.relocate_nowhere] at hmembers
    exact hmembers
  | .error _, .error _, ⟨hwanted, hrest⟩ => exact ⟨hwanted, .of_congruent hrest⟩

theorem beforeEnding_append {ts : List Token} (h : ∀ t ∈ ts, t.isEnding = false) (mark : Span) :
    beforeEnding (ts ++ [Token.ending mark]) = ts := by
  have hall : ∀ t ∈ ts, (!t.isEnding) = true := fun t ht => by rw [h t ht]; rfl
  rw [beforeEnding, List.takeWhile_append_of_pos hall]
  simp [Token.ending, Token.isEnding]

end TodLang
