import TodLang.Proofs.Grammar.Spelling
import TodLang.Proofs.Grammar.TypeReadings
/-!
What a reader of a single token or of a written type has gone over spells what it gives: the tokens
are those that spell the value and, behind them, those that are left.
-/

namespace TodLang

section

variable {ts rest : List Token}

/-! ### Single tokens -/

theorem takeIdent_spells {name : Ident} (h : ReadsAs takeIdent ts name rest) :
    ∃ front, ts = front ++ rest ∧ NameSpelling name front := by
  obtain ⟨t, rfl, hkind, rfl⟩ := takeIdent_iff.1 h
  exact ⟨[t], rfl, .token hkind⟩

theorem takeSign_spells {sign : Sign} {span : Span} (h : ReadsAs (takeSign sign) ts span rest) :
    ∃ front, ts = front ++ rest ∧ Marks (.sign sign) span front := by
  obtain ⟨t, rfl, hkind, rfl⟩ := takeSign_iff.1 h
  exact ⟨[t], rfl, .token hkind⟩

theorem takeKeyword_spells {word : Keyword} {span : Span}
    (h : ReadsAs (takeKeyword word) ts span rest) :
    ∃ front, ts = front ++ rest ∧ Marks (.keyword word) span front := by
  obtain ⟨t, rfl, hkind, rfl⟩ := takeKeyword_iff.1 h
  exact ⟨[t], rfl, .token hkind⟩

theorem takeOperator_spells {sign : Sign} {operator : Operator}
    (h : ReadsAs (takeOperator sign) ts operator rest) :
    ∃ front, ts = front ++ rest ∧ OperatorSpelling operator front ∧ operator.sign = sign := by
  obtain ⟨t, rfl, hkind, rfl⟩ := takeOperator_iff.1 h
  exact ⟨[t], rfl, .token hkind, rfl⟩

theorem takeOptional_spells {kind : TokenKind} {found : Option Token}
    (h : ReadsAs (takeOptional kind) ts found rest) :
    ∃ front, ts = front ++ rest ∧ AtMostOne kind front := by
  rw [takeOptional_iff] at h
  cases found with
  | none =>
    obtain ⟨-, rfl⟩ := h
    exact ⟨[], rfl, .missing⟩
  | some t =>
    obtain ⟨rfl, hkind⟩ := h
    exact ⟨[t], rfl, .present (.token hkind)⟩

/-! ### Written types -/

theorem QualifiedNameReading.spells {name : QualifiedName} (h : QualifiedNameReading ts name rest) :
    ∃ front, ts = front ++ rest ∧ QualifiedSpelling name.package name.name front := by
  cases h with
  | plain hname _ =>
    obtain ⟨front, heq, hname⟩ := takeIdent_spells hname
    exact ⟨front, heq, .plain hname⟩
  | qualified hpackage hseparator hname =>
    obtain ⟨front, heq₁, hpackage⟩ := takeIdent_spells hpackage
    obtain ⟨separator, heq₂, hseparator⟩ := takeSign_spells hseparator
    obtain ⟨back, heq₃, hname⟩ := takeIdent_spells hname
    refine ⟨_, ?_, .qualified hpackage hseparator.fixed hname⟩
    simp [heq₁, heq₂, heq₃]

end

mutual

theorem TypeReading.spells {ts rest : List Token} {type : TypeClause}
    (h : TypeReading ts type rest) : ∃ front, ts = front ++ rest ∧ TypeSpelling type front := by
  match h with
  | .plain hname _ =>
    obtain ⟨front, heq, hname⟩ := hname.spells
    exact ⟨front, heq, SpellsType.plain hname⟩
  | .generic hname hopening harguments hclosing =>
    obtain ⟨front, heq₁, hname⟩ := hname.spells
    obtain ⟨opened, heq₂, hopening⟩ := takeSign_spells hopening
    obtain ⟨inside, heq₃, harguments⟩ := harguments.spells
    obtain ⟨closed, heq₄, hclosing⟩ := takeSign_spells hclosing
    refine ⟨_, ?_, SpellsType.generic hname hopening.fixed harguments hclosing⟩
    simp [heq₁, heq₂, heq₃, heq₄]
termination_by structural h

theorem TypeArgumentsReading.spells {ts rest : List Token} {types : List TypeClause}
    (h : TypeArgumentsReading ts types rest) :
    ∃ front, ts = front ++ rest ∧ SpellsType (.clauses types) front := by
  match h with
  | .last hfirst _ =>
    obtain ⟨front, heq, hfirst⟩ := hfirst.spells
    exact ⟨front, heq, SpellsType.last hfirst⟩
  | .more hfirst hcomma hothers =>
    obtain ⟨front, heq₁, hfirst⟩ := hfirst.spells
    obtain ⟨comma, heq₂, hcomma⟩ := takeSign_spells hcomma
    obtain ⟨back, heq₃, hothers⟩ := hothers.spells
    refine ⟨_, ?_, SpellsType.more hfirst hcomma.fixed hothers⟩
    simp [heq₁, heq₂, heq₃]
termination_by structural h

end

theorem parseTypeClause_spells {ts rest : List Token} {type : TypeClause}
    (h : ReadsAs parseTypeClause ts type rest) :
    ∃ front, ts = front ++ rest ∧ TypeSpelling type front :=
  (parseTypeClause_iff.1 h).spells

/-- A written type that is found in front of a parenthesis, and the parenthesis. -/
theorem tryCastHead?_spells {ts rest : List Token} {type : TypeClause}
    {hlt : rest.length < ts.length} (h : tryCastHead? ts = some ⟨type, rest, hlt⟩) :
    ∃ clause opened, ts = clause ++ opened ++ rest ∧ TypeSpelling type clause ∧
      Fixed (.sign .lparen) opened := by
  obtain ⟨t, hclause, hkind⟩ := tryCastHead?_iff.1 ⟨hlt, h⟩
  obtain ⟨clause, rfl, htype⟩ := hclause.spells
  exact ⟨clause, [t], by simp, htype, .token hkind⟩

end TodLang
