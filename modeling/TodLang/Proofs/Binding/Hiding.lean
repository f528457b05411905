import TodLang.Proofs.Binding.Signing
/-!
Names of types that are hidden. In a scope where a name stands for no type any more
(`Scope.Obscures`), a written type that looks it up has a fault that names it, and a scope where the
name stands for a type gives no such fault. So the faults that name it tell how many signatures of a
walk the name was hidden from (`Walk.undefined_sign`, `Walk.undefined_lt_sign`).
-/

namespace TodLang

/-! ### The prelude -/

/-- The symbols of the prelude, before they are put in order. -/
def preludeSymbols (last : Nat) : List Symbol :=
  Ty.builtinNames.map (Symbol.type ∘ Ty.builtin) ++ (preludeFunctions last).map Symbol.function

theorem mem_preludeSymbols {last : Nat} {symbol : Symbol} :
    symbol ∈ (prelude last).symbols ↔ symbol ∈ preludeSymbols last := by
  unfold prelude preludeSymbols
  rw [Region.mem_foldr_insertSorted, List.mem_nil_iff, or_false]

/-- The symbols of the prelude have different names. -/
theorem preludeSymbols_nodup (last : Nat) : ((preludeSymbols last).map Symbol.name).Nodup := by
  have hnames : (preludeSymbols last).map Symbol.name =
      Ty.builtinNames ++ ["print", "input", "len"] := rfl
  rw [hnames]
  decide

/-- Around a program, the name of a built-in type stands for it. -/
theorem lookup?_prelude {name : String} (h : name ∈ Ty.builtinNames) (last : Nat) :
    (prelude last).lookup? name = some (.type (.builtin name)) := by
  have hmem : Symbol.type (.builtin name) ∈ preludeSymbols last :=
    List.mem_append.2 (.inl (List.mem_map.2 ⟨name, h, rfl⟩))
  unfold Region.lookup?
  cases hfind : (prelude last).symbols.find? (·.name == name) with
  | none =>
    have hnone := List.find?_eq_none.1 hfind _ (mem_preludeSymbols.2 hmem)
    exact absurd (beq_self_eq_true name) hnone
  | some symbol =>
    have hname : symbol.name = name := by simpa using List.find?_some hfind
    have hsymbol := mem_preludeSymbols.1 (List.mem_of_find?_eq_some hfind)
    rw [List.inj_on_of_nodup_map (preludeSymbols_nodup last) hsymbol hmem hname]

namespace Scope

/-! ### Hidden names -/

/-- Whether a name stands for no type in the second of two scopes, while all other names stand for
the same types and all names for the same packages. -/
structure Obscures (s s' : Scope) (name : String) : Prop where
  packages : ∀ other, s'.lookupPackage? other = s.lookupPackage? other
  types : ∀ other, other ≠ name → s'.namedType? other = s.namedType? other
  hidden : s'.namedType? name = none

/-- A function that is declared hides what has its name. -/
theorem obscures_addAll_function {s : Scope} {f : FunctionSymbol}
    (hfree : s.inner.lookup? f.name = none) (hs : s.Packageless) :
    s.Obscures (s.addAll [.function f]) f.name := by
  have htakes : s.inner.Takes [.function f] :=
    ⟨List.nodup_singleton _, List.forall_mem_singleton.2 hfree⟩
  refine ⟨lookupPackage?_addAll htakes hs (by simp [Symbol.asPackage?]), ?_, ?_⟩
  · intro other hother
    have hfind : [Symbol.function f].find? (·.name == other) = none := by
      simp [Symbol.name, hother.symm]
    unfold namedType?
    rw [lookup?_addAll htakes, hfind, Option.none_or]
  · have hfind : [Symbol.function f].find? (·.name == f.name) = some (.function f) := by
      simp [Symbol.name]
    unfold namedType?
    rw [lookup?_addAll htakes, hfind]
    rfl

namespace Obscures

variable {s s' : Scope} {name : String}

theorem alike (h : s.Obscures s' name) {names : List Ident} (hnames : ∀ n ∈ names, n.name ≠ name) :
    s.Alike s' names :=
  ⟨h.packages, fun n hn => h.types n.name (hnames n hn)⟩

mutual

/-- A written type that looks a hidden name up has a fault that names it. -/
theorem lookupType (h : s.Obscures s' name) {clause : TypeClause}
    (hsought : ∃ n ∈ s.sought clause, n.name = name) :
    ∃ span, s'.lookupType clause = .error ⟨.undefinedType name, span⟩ := by
  cases clause with
  | mk package head arguments closing =>
    unfold Scope.lookupType
    by_cases hinside : ∃ n ∈ s.soughtAll arguments, n.name = name
    · obtain ⟨span, hspan⟩ := lookupTypes h hinside
      rw [hspan]
      exact ⟨span, rfl⟩
    · obtain ⟨n, hn, hname⟩ := hsought
      rw [sought, List.mem_append, or_iff_right fun hmem => hinside ⟨n, hmem, hname⟩] at hn
      have harguments := (h.alike fun m hm heq => hinside ⟨m, hm, heq⟩).lookupTypes
      rw [harguments]
      cases hfirst : Scope.lookupTypes s arguments with
      | error e => simp [hfirst, Except.isOk, Except.toBool] at hn
      | ok types =>
        cases package with
        | some package => simp at hn
        | none =>
          obtain rfl : n = head := by simpa [hfirst, Except.isOk, Except.toBool] using hn
          refine ⟨n.span, ?_⟩
          dsimp only
          rw [namedType_plain, hname, h.hidden]

theorem lookupTypes (h : s.Obscures s' name) {clauses : List TypeClause}
    (hsought : ∃ n ∈ s.soughtAll clauses, n.name = name) :
    ∃ span, Scope.lookupTypes s' clauses = .error ⟨.undefinedType name, span⟩ := by
  cases clauses with
  | nil =>
    obtain ⟨n, hn, -⟩ := hsought
    cases hn
  | cons clause others =>
    unfold Scope.lookupTypes
    by_cases hinside : ∃ n ∈ s.sought clause, n.name = name
    · obtain ⟨span, hspan⟩ := lookupType h hinside
      rw [hspan]
      exact ⟨span, rfl⟩
    · obtain ⟨n, hn, hname⟩ := hsought
      rw [soughtAll, List.mem_append, or_iff_right fun hmem => hinside ⟨n, hmem, hname⟩] at hn
      have hclause := (h.alike fun m hm heq => hinside ⟨m, hm, heq⟩).lookupType
      rw [hclause]
      cases hfirst : s.lookupType clause with
      | error e => simp [hfirst, Except.isOk, Except.toBool] at hn
      | ok type =>
        rw [hfirst] at hn
        obtain ⟨span, hspan⟩ := lookupTypes h ⟨n, hn, hname⟩
        dsimp only
        rw [hspan]
        exact ⟨span, rfl⟩

end

end Obscures

variable {s : Scope} {name : String} {span : Span}

mutual

/-- A fault of a written type names what stands for no type. -/
theorem namedType?_of_lookupType {clause : TypeClause}
    (h : s.lookupType clause = .error ⟨.undefinedType name, span⟩) : s.namedType? name = none := by
  cases clause with
  | mk package head arguments closing =>
    unfold lookupType at h
    cases hfirst : lookupTypes s arguments with
    | error e =>
      rw [hfirst] at h
      cases h
      exact namedType?_of_lookupTypes hfirst
    | ok types =>
      rw [hfirst] at h
      dsimp only at h
      cases package with
      | some package =>
        unfold namedType at h
        dsimp only at h
        cases hpackage : s.lookupPackage? package.name <;> rw [hpackage] at h <;> cases h
      | none =>
        rw [namedType_plain] at h
        cases htype : s.namedType? head.name <;> rw [htype] at h <;> cases h
        exact htype

theorem namedType?_of_lookupTypes {clauses : List TypeClause}
    (h : lookupTypes s clauses = .error ⟨.undefinedType name, span⟩) :
    s.namedType? name = none := by
  cases clauses with
  | nil => cases h
  | cons clause others =>
    unfold lookupTypes at h
    cases hfirst : s.lookupType clause with
    | error e =>
      rw [hfirst] at h
      cases h
      exact namedType?_of_lookupType hfirst
    | ok type =>
      rw [hfirst] at h
      dsimp only at h
      cases hothers : lookupTypes s others with
      | error e =>
        rw [hothers] at h
        cases h
        exact namedType?_of_lookupTypes hothers
      | ok types =>
        rw [hothers] at h
        cases h

end

end Scope

/-! ### Faults that name a type -/

/-- How many faults say that a name stands for no type. -/
def undefinedCount (name : String) (findings : List Finding) : Nat :=
  ((findings.filterMap Finding.error?).map SemanticError.fault).count (.undefinedType name)

theorem undefinedCount_append (name : String) (front back : List Finding) :
    undefinedCount name (front ++ back) = undefinedCount name front + undefinedCount name back := by
  rw [undefinedCount, List.filterMap_append, List.map_append, List.count_append]
  rfl

namespace Walk

/-- How many faults of a walk say that a name stands for no type. -/
def undefined (name : String) (w : Walk) : Nat :=
  undefinedCount name w.findings

variable {w : Walk} {name : String}

theorem undefined_report (w : Walk) (name : String) (findings : List Finding) :
    (w.report findings).undefined name = w.undefined name + undefinedCount name findings :=
  undefinedCount_append name w.findings findings

theorem undefined_le_type (w : Walk) (name : String) (clause : TypeClause) :
    w.undefined name ≤ (w.type clause).2.undefined name := by
  have hreport := w.undefined_report name (w.scope.resolveType clause).2
  change _ ≤ (w.report (w.scope.resolveType clause).2).undefined name
  omega

theorem undefined_type (h : w.scope.namedType? name ≠ none) (clause : TypeClause) :
    (w.type clause).2.undefined name = w.undefined name := by
  have hnone : undefinedCount name (w.scope.resolveType clause).2 = 0 := by
    unfold Scope.resolveType
    cases hlookup : w.scope.lookupType clause with
    | ok type => rfl
    | error e =>
      have hne : e.fault ≠ .undefinedType name := by
        intro hfault
        obtain ⟨fault, span⟩ := e
        obtain rfl : fault = .undefinedType name := hfault
        exact h (Scope.namedType?_of_lookupType hlookup)
      change [e.fault].count _ = 0
      rw [List.count_eq_zero, List.mem_singleton]
      exact hne.symm
  change (w.report (w.scope.resolveType clause).2).undefined name = _
  rw [undefined_report, hnone, Nat.add_zero]

theorem undefined_lt_type {s : Scope} (h : s.Obscures w.scope name) {clause : TypeClause}
    (hsought : ∃ n ∈ s.sought clause, n.name = name) :
    w.undefined name < (w.type clause).2.undefined name := by
  obtain ⟨span, hlookup⟩ := h.lookupType hsought
  have hone : undefinedCount name (w.scope.resolveType clause).2 = 1 := by
    unfold Scope.resolveType
    rw [hlookup]
    change [SemanticFault.undefinedType name].count (.undefinedType name) = 1
    exact List.count_singleton_self
  change _ < (w.report (w.scope.resolveType clause).2).undefined name
  rw [undefined_report, hone]
  exact Nat.lt_succ_self _

theorem undefined_le_parameters (w : Walk) (name : String) (ps : List Parameter) :
    w.undefined name ≤ (w.parameters ps).2.undefined name := by
  induction ps generalizing w with
  | nil => exact le_rfl
  | cons p others ih =>
    exact (w.undefined_le_type name p.type).trans (ih (w.type p.type).2.countVariable)

theorem undefined_parameters (h : w.scope.namedType? name ≠ none) (ps : List Parameter) :
    (w.parameters ps).2.undefined name = w.undefined name := by
  induction ps generalizing w with
  | nil => rfl
  | cons p others ih =>
    have hothers := ih (w := (w.type p.type).2.countVariable) h
    exact hothers.trans (undefined_type h p.type)

theorem undefined_lt_parameters {s : Scope} (h : s.Obscures w.scope name) {ps : List Parameter}
    (hsought : ∃ n ∈ s.soughtParameters ps, n.name = name) :
    w.undefined name < (w.parameters ps).2.undefined name := by
  induction ps generalizing w with
  | nil =>
    obtain ⟨n, hn, -⟩ := hsought
    cases hn
  | cons p others ih =>
    let next := (w.type p.type).2.countVariable
    obtain ⟨n, hn, hname⟩ := hsought
    rw [Scope.soughtParameters, List.flatMap_cons, List.mem_append] at hn
    rcases hn with hn | hn
    · exact (undefined_lt_type h ⟨n, hn, hname⟩).trans_le (next.undefined_le_parameters name others)
    · exact (w.undefined_le_type name p.type).trans_lt (ih (w := next) h ⟨n, hn, hname⟩)

/-- A signature has no fault that names a type. -/
theorem undefined_signature (h : w.scope.namedType? name ≠ none) (n : Ident) (ps : List Parameter)
    (returnType : Option TypeClause) (span : Span) :
    (w.signature n ps returnType span).2.undefined name = w.undefined name := by
  have hparameters := undefined_parameters h ps
  cases returnType with
  | none => exact hparameters
  | some clause =>
    rw [← parameters_scope w ps] at h
    exact (undefined_type h clause).trans hparameters

/-- A signature that looks a hidden name up has a fault that names it. -/
theorem undefined_lt_signature {s : Scope} (h : s.Obscures w.scope name) {ps : List Parameter}
    {returnType : Option TypeClause}
    (hsought : ∃ n ∈ s.soughtSignature ps returnType, n.name = name) (n : Ident) (span : Span) :
    w.undefined name < (w.signature n ps returnType span).2.undefined name := by
  obtain ⟨m, hm, hname⟩ := hsought
  rw [Scope.soughtSignature, List.mem_append] at hm
  rcases hm with hm | hm
  · refine (undefined_lt_parameters h ⟨m, hm, hname⟩).trans_le ?_
    cases returnType with
    | none => exact le_rfl
    | some clause => exact (w.parameters ps).2.undefined_le_type name clause
  · cases returnType with
    | none => cases hm
    | some clause =>
      rw [← parameters_scope w ps] at h
      exact (w.undefined_le_parameters name ps).trans_lt (undefined_lt_type h ⟨m, hm, hname⟩)

theorem undefined_sign (h : w.scope.namedType? name ≠ none) (member : Member) :
    (sign member w).2.undefined name = w.undefined name := by
  cases member with
  | function f =>
    exact undefined_signature h f.name f.parameters f.returnType (Member.function f).span
  | external e =>
    exact undefined_signature h e.name e.parameters e.returnType (Member.external e).span
  | _ => rfl

theorem undefined_lt_sign {s : Scope} (h : s.Obscures w.scope name) {member : Member}
    (hsought : ∃ n ∈ member.sought s, n.name = name) :
    w.undefined name < (sign member w).2.undefined name := by
  cases member with
  | function f => exact undefined_lt_signature h hsought f.name (Member.function f).span
  | external e => exact undefined_lt_signature h hsought e.name (Member.external e).span
  | _ =>
    obtain ⟨n, hn, -⟩ := hsought
    cases hn

end Walk

end TodLang
