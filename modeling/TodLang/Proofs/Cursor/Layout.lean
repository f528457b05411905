import TodLang.Proofs.Cursor.Reading
import TodLang.Proofs.Grammar.Layout
/-!
What layout means to the reading of a program. Programs whose tokens differ in their places and in
the white space behind them only are read alike, but for two things: whether the signs of a step
stand together, and whether a name stands on the line where `main` stops. The reading comes to the
same members but for their places, or stops at the same token for the same reason
(`readsTo_of_sameButLayout`).
-/

namespace TodLang

/-! ### Tokens that differ in their layout -/

/-- Tokens that are the same one by one but for their places, with the same white space behind `+`
and `-`, and with names behind `main` that are on the line where it stops in both or in neither. -/
structure SameButLayout (ts us : List Token) : Prop where
  length_eq : ts.length = us.length
  same : ∀ (i : Nat) (t u : Token), ts[i]? = some t → us[i]? = some u →
    t.kind = u.kind ∧ t.literal = u.literal ∧ t.value = u.value
  signs : ∀ (i : Nat) (t u : Token), ts[i]? = some t → us[i]? = some u →
    t.kind = .sign .add ∨ t.kind = .sign .sub → t.spaceAfter = u.spaceAfter
  mains : ∀ (i : Nat) (t u name name' : Token), ts[i]? = some t → us[i]? = some u →
    ts[i + 1]? = some name → us[i + 1]? = some name' →
    t.kind = .identifier → t.literal = mainWord → name.kind = .identifier →
    (name.span.startLine = t.span.stopLine ↔ name'.span.startLine = u.span.stopLine)

namespace SameButLayout

variable {t u : Token} {ts us : List Token}

theorem tail (h : SameButLayout (t :: ts) (u :: us)) : SameButLayout ts us where
  length_eq := Nat.succ.inj h.length_eq
  same i := h.same (i + 1)
  signs i := h.signs (i + 1)
  mains i := h.mains (i + 1)

theorem head_kind (h : SameButLayout (t :: ts) (u :: us)) : t.kind = u.kind :=
  (h.same 0 t u rfl rfl).1

theorem head_bare (h : SameButLayout (t :: ts) (u :: us)) : t.bare = u.bare := by
  obtain ⟨hkind, hliteral, hvalue⟩ := h.same 0 t u rfl rfl
  rw [Token.bare, Token.bare, hkind, hliteral, hvalue]

theorem getElem?_zero_of_beforeEnding {others : List Token} (h : beforeEnding ts = t :: others) :
    ts[0]? = some t := by
  obtain ⟨behind, hts⟩ : beforeEnding ts <+: ts := List.takeWhile_prefix _
  rw [← hts, h]
  rfl

/-- The two signs of a step stand together in both, or in neither. -/
theorem opening_eq (h : SameButLayout (t :: ts) (u :: us))
    (hrest : Alike (beforeEnding ts) (beforeEnding us)) :
    opening (t :: beforeEnding ts) = opening (u :: beforeEnding us) := by
  generalize hts : beforeEnding ts = front at hrest
  generalize hus : beforeEnding us = front' at hrest
  cases hrest with
  | nil => rfl
  | @cons first first' others others' hbare _ _ hothers =>
    have hfirst := Token.kind_eq_of_bare_eq hbare
    have hspace := h.signs 1 first first' (getElem?_zero_of_beforeEnding hts)
      (getElem?_zero_of_beforeEnding hus)
    simp only [opening, h.head_kind, ← hfirst, ← hothers.nextKind_eq]
    split
    · next sign _ hsign =>
      have hstep : (sign.isStep = true ∧ first.spaceAfter = false ∧
          nextKind others = some (.sign sign)) ↔
            (sign.isStep = true ∧ first'.spaceAfter = false ∧
              nextKind others = some (.sign sign)) := by
        refine and_congr_right fun hs => ?_
        rw [hspace (by rw [hsign]; cases sign <;> simp_all [Sign.isStep])]
      simp only [hstep]
    · rfl

/-- A name stands on the line where `main` stops in both, or in neither. -/
theorem atMain_eq (h : SameButLayout (t :: ts) (u :: us))
    (hrest : Alike (beforeEnding ts) (beforeEnding us)) :
    atMain (t :: beforeEnding ts) = atMain (u :: beforeEnding us) := by
  generalize hts : beforeEnding ts = front at hrest
  generalize hus : beforeEnding us = front' at hrest
  cases hrest with
  | nil => rfl
  | @cons name name' others others' hbare _ _ _ =>
    have hline := h.mains 0 t u name name' rfl rfl (getElem?_zero_of_beforeEnding hts)
      (getElem?_zero_of_beforeEnding hus)
    rw [Bool.eq_iff_iff]
    simp only [atMain, Bool.and_eq_true, decide_eq_true_eq, ← h.head_kind,
      ← Token.literal_eq_of_bare_eq h.head_bare, ← Token.kind_eq_of_bare_eq hbare]
    refine and_congr_right fun hfront => ?_
    obtain ⟨⟨ht, hmain⟩, hname⟩ := hfront
    exact hline ht hmain hname

/-- Up to the end mark they are alike to the readers of the grammar. -/
theorem alike (h : SameButLayout ts us) : Alike (beforeEnding ts) (beforeEnding us) := by
  induction ts generalizing us with
  | nil =>
    obtain rfl : us = [] := List.length_eq_zero_iff.1 h.length_eq.symm
    exact .nil
  | cons t ts ih =>
    cases us with
    | nil => cases h.length_eq
    | cons u us =>
      have hrest := ih h.tail
      have hending : u.isEnding = t.isEnding := by
        rw [Token.isEnding, Token.isEnding, h.head_kind]
      cases ht : t.isEnding with
      | true => simpa [beforeEnding, ht, hending] using Alike.nil
      | false =>
        have hwhole := Alike.cons h.head_bare (h.opening_eq hrest) (h.atMain_eq hrest) hrest
        simpa [beforeEnding, ht, hending] using hwhole

theorem tokenAt_eq (h : SameButLayout ts us) (position : Nat) :
    (tokenAt ts position).kind = (tokenAt us position).kind ∧
      (tokenAt ts position).literal = (tokenAt us position).literal := by
  by_cases hlt : position < ts.length
  · have hlt' : position < us.length := h.length_eq ▸ hlt
    obtain ⟨hkind, hliteral, -⟩ := h.same position _ _ (List.getElem?_eq_getElem hlt)
      (List.getElem?_eq_getElem hlt')
    rw [tokenAt_of_lt hlt, tokenAt_of_lt hlt']
    exact ⟨hkind, hliteral⟩
  · rw [tokenAt_of_le (Nat.not_lt.1 hlt), tokenAt_of_le (h.length_eq ▸ Nat.not_lt.1 hlt)]
    exact ⟨rfl, rfl⟩

end SameButLayout

/-! ### Outcomes that differ in their places -/

/-- The same members but for their places, or errors of which the same is told but for their
places. -/
def SameButPlaces : Except SyntaxError (List Member) → Except SyntaxError (List Member) → Prop
  | .ok members, .ok members' => members.map Member.bare = members'.map Member.bare
  | .error a, .error b =>
    a.message = b.message ∧ a.found.kind = b.found.kind ∧ a.expected? = b.expected?
  | _, _ => False

/-- What is told of a syntax error but for its place depends on the kind and the spelling of the
token that was found. -/
theorem sameButPlaces_error {t u : Token} (hkind : t.kind = u.kind)
    (hliteral : t.literal = u.literal) {wanted wanted' : Wanted} (hwanted : wanted = wanted') :
    SameButPlaces (.error ⟨t, wanted⟩) (.error ⟨u, wanted'⟩) := by
  subst hwanted
  have hdescribe : t.describe = u.describe := by simp only [Token.describe, hkind, hliteral]
  refine ⟨?_, hkind, rfl⟩
  simp only [SyntaxError.message, hdescribe, hkind, hliteral]

/-- Where outcomes are told of in the same way, they have the same members, or errors of which the
same is told. -/
theorem report_cases {x y : Except SyntaxError (List Member)}
    (h : x.mapError SyntaxError.report = y.mapError SyntaxError.report) :
    (∃ members, x = .ok members ∧ y = .ok members) ∨
      ∃ a b, x = .error a ∧ y = .error b ∧ a.message = b.message ∧
        a.found.kind = b.found.kind ∧ a.expected? = b.expected? := by
  cases x with
  | ok members =>
    cases y with
    | ok members' => exact .inl ⟨members, rfl, congrArg _ (Except.ok.inj h).symm⟩
    | error b => cases h
  | error a =>
    cases y with
    | ok members' => cases h
    | error b =>
      have hreport := Except.error.inj h
      exact .inr ⟨a, b, rfl, rfl, congrArg SyntaxReport.message hreport,
        congrArg SyntaxReport.found hreport, congrArg SyntaxReport.expected hreport⟩

theorem SameButPlaces.of_report {x y x' y' : Except SyntaxError (List Member)}
    (h : SameButPlaces x y) (hx : x.mapError SyntaxError.report = x'.mapError SyntaxError.report)
    (hy : y.mapError SyntaxError.report = y'.mapError SyntaxError.report) :
    SameButPlaces x' y' := by
  obtain ⟨_, rfl, rfl⟩ | ⟨_, _, rfl, rfl, hmessage, hfound, hexpected⟩ := report_cases hx
  · obtain ⟨_, rfl, rfl⟩ | ⟨_, _, rfl, rfl, -⟩ := report_cases hy
    · exact h
    · exact h.elim
  · obtain ⟨_, rfl, rfl⟩ | ⟨_, _, rfl, rfl, hmessage', hfound', hexpected'⟩ := report_cases hy
    · exact h.elim
    · exact ⟨hmessage.symm.trans (h.1.trans hmessage'), hfound.symm.trans (h.2.1.trans hfound'),
        hexpected.symm.trans (h.2.2.trans hexpected')⟩

/-! ### The outcome of reading -/

section

variable {ts us : List Token}

theorem AgreeAsPrograms.cases {x y : Except Mismatch (List Member)} (h : AgreeAsPrograms x y) :
    (∃ members members', x = .ok members ∧ y = .ok members' ∧
      members.map Member.bare = members'.map Member.bare) ∨
      ∃ a b, x = .error a ∧ y = .error b ∧ a.wanted = b.wanted ∧ Alike a.rest b.rest := by
  cases x with
  | ok members =>
    cases y with
    | ok members' => exact .inl ⟨members, members', rfl, rfl, h⟩
    | error b => exact h.elim
  | error a =>
    cases y with
    | ok members' => exact h.elim
    | error b => exact .inr ⟨a, b, rfl, rfl, h⟩

theorem SameButLayout.readingEnd_eq (h : SameButLayout ts us) : readingEnd ts = readingEnd us := by
  rw [readingEnd, readingEnd, h.alike.length_eq]
  obtain ⟨_, _, hts, hus, -⟩ | ⟨a, b, hts, hus, -, hrest⟩ := (parseMembers_agrees h.alike).cases
  · rw [hts, hus]
  · rw [hts, hus]
    simp only [hrest.length_eq]

theorem SameButLayout.readingOutcome_same (h : SameButLayout ts us) :
    SameButPlaces (readingOutcome ts) (readingOutcome us) := by
  rw [readingOutcome, readingOutcome, h.readingEnd_eq]
  obtain ⟨_, _, hts, hus, hmembers⟩ | ⟨a, b, hts, hus, hwanted, -⟩ :=
    (parseMembers_agrees h.alike).cases
  · rw [hts, hus]
    exact hmembers
  · obtain ⟨hkind, hliteral⟩ := h.tokenAt_eq (readingEnd us)
    rw [hts, hus]
    exact sameButPlaces_error hkind hliteral hwanted

/-- The token that a reading stops at is the one at the cursor. -/
theorem found_of_readingOutcome {e : SyntaxError} (h : readingOutcome ts = .error e) :
    e.found = tokenAt ts (readingEnd ts) := by
  unfold readingOutcome at h
  cases hparse : parseMembers (beforeEnding ts) with
  | ok members =>
    rw [hparse] at h
    cases h
  | error mismatch =>
    rw [hparse] at h
    cases h
    rfl

end

/-- Programs that differ in their layout only are read to the same place: to the same members but
for their places, or to a token that does not fit, for the same reason. -/
theorem readsTo_of_sameButLayout {ts us : List Token} (h : SameButLayout ts us) :
    (∃ outcome outcome' position,
      ReadsTo ts outcome position ∧ ReadsTo us outcome' position ∧
      SameButPlaces outcome outcome' ∧
      (∀ e, outcome = .error e → e.found = tokenAt ts position) ∧
      ∀ e, outcome' = .error e → e.found = tokenAt us position) ∧
    SameButPlaces (parseProgram ts) (parseProgram us) := by
  have hsame := h.readingOutcome_same
  refine ⟨⟨readingOutcome ts, readingOutcome us, readingEnd ts, readsTo_readingOutcome ts, ?_,
    hsame, fun _ => found_of_readingOutcome, ?_⟩,
    hsame.of_report (report_readingOutcome ts) (report_readingOutcome us)⟩
  · rw [h.readingEnd_eq]
    exact readsTo_readingOutcome us
  · rw [h.readingEnd_eq]
    exact fun _ => found_of_readingOutcome

/-- `main a` on one line, with `a` at a column and white space behind it or not. -/
def mainName (column : Nat) (spaceAfter : Bool) : List Token :=
  [{ kind := .identifier, literal := mainWord, span := Span.point 0 ⟨0, 1, 1⟩, spaceAfter := true },
    { kind := .identifier, literal := "a", span := Span.point 0 ⟨column, 1, column⟩, spaceAfter }]

theorem mainName_sameButLayout (column column' : Nat) (spaceAfter spaceAfter' : Bool) :
    SameButLayout (mainName column spaceAfter) (mainName column' spaceAfter') where
  length_eq := rfl
  same i t u ht hu := by
    match i, ht, hu with
    | 0, ht, hu | 1, ht, hu =>
      cases ht
      cases hu
      exact ⟨rfl, rfl, rfl⟩
  signs i t u ht hu hsign := by
    match i, ht, hu with
    | 0, ht, hu | 1, ht, hu =>
      cases ht
      simp at hsign
  mains i t u name name' ht hu hname hname' _ _ _ := by
    match i, ht, hu, hname, hname' with
    | 0, ht, hu, hname, hname' =>
      cases ht
      cases hu
      cases hname
      cases hname'
      exact Iff.rfl

/-- White space in front of the name behind `main`, and behind it, does not matter. -/
theorem readsTo_of_sameButLayout_mainName :
    SameButLayout (mainName 5 false) (mainName 9 true) ∧
    (∃ outcome outcome' position,
      ReadsTo (mainName 5 false) outcome position ∧ ReadsTo (mainName 9 true) outcome' position ∧
      SameButPlaces outcome outcome' ∧
      (∀ e, outcome = .error e → e.found = tokenAt (mainName 5 false) position) ∧
      ∀ e, outcome' = .error e → e.found = tokenAt (mainName 9 true) position) ∧
    SameButPlaces (parseProgram (mainName 5 false)) (parseProgram (mainName 9 true)) :=
  ⟨mainName_sameButLayout 5 9 false true,
    readsTo_of_sameButLayout (mainName_sameButLayout 5 9 false true)⟩

end TodLang
