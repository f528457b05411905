import Mathlib.Data.List.Forall2
import TodLang.Proofs.Binding.Stages
/-!
Names that stand for nothing, and the faults that say so. The main result pairs them off in their
order (`unresolved_correspond`): every fault of looking up a name has a use that is recorded without
a symbol, and every such use has its fault, except for a function of a package or of a value of
which too little is known.
-/

namespace TodLang

open Finding (lookups recorded)

namespace Finding

/-- The faults of looking up names. -/
def faults (findings : List Finding) : List SemanticError :=
  (findings.filterMap error?).filter (·.fault.isLookup)

theorem recorded_lookups (findings : List Finding) :
    recorded (lookups findings) = recorded findings := by
  induction findings with
  | nil => rfl
  | cons f others ih =>
    cases f with
    | use r => exact congrArg (r :: ·) ih
    | error e =>
      by_cases hfault : e.fault.isLookup = true
      · have hkept : lookups (.error e :: others) = .error e :: lookups others :=
          List.filter_cons_of_pos hfault
        rw [hkept]
        exact ih
      · have hleft : lookups (.error e :: others) = lookups others :=
          List.filter_cons_of_neg hfault
        rw [hleft]
        exact ih

theorem faults_eq (findings : List Finding) :
    faults findings = (lookups findings).filterMap error? := by
  induction findings with
  | nil => rfl
  | cons f others ih =>
    cases f with
    | use r => exact ih
    | error e =>
      by_cases hfault : e.fault.isLookup = true
      · have hkept : faults (.error e :: others) = e :: faults others :=
          List.filter_cons_of_pos hfault
        have hlookups : lookups (.error e :: others) = .error e :: lookups others :=
          List.filter_cons_of_pos hfault
        rw [hkept, hlookups, ih]
        rfl
      · have hleft : faults (.error e :: others) = faults others :=
          List.filter_cons_of_neg hfault
        have hlookups : lookups (.error e :: others) = lookups others :=
          List.filter_cons_of_neg hfault
        rw [hleft, hlookups, ih]

end Finding

namespace Reference.Outcome

variable {functions : List TypeFunction} {s : Scope} {r : Reference} {found : List Finding}

/-- Each fault has a name that stands for nothing, and each such name its fault, unless the name is
left open. -/
theorem pairs (h : r.Outcome functions s found) (hchecked : r.isUnchecked functions s = false) :
    List.Forall₂
      (fun e u => u ∈ (recorded found).filter (·.fingerprint.isNone) ∧ r.Concerns e u.name)
      (found.filterMap Finding.error?) ((recorded found).filter (·.fingerprint.isNone)) := by
  cases h with
  | found => exact .nil
  | missing _ _ _ hconcerns => exact .cons ⟨List.mem_singleton_self _, hconcerns⟩ .nil
  | followed => exact .nil
  | lost _ _ _ hconcerns => exact .cons ⟨List.mem_singleton_self _, hconcerns⟩ .nil
  | unchecked _ hunchecked =>
    rw [hchecked] at hunchecked
    cases hunchecked

/-- Where a name is left open, it stands for nothing without a fault. -/
theorem leaves (h : r.Outcome functions s found) (hunchecked : r.isUnchecked functions s = true) :
    found.filterMap Finding.error? = [] ∧ ∃ n, r.followed? s = some n ∧
      (recorded found).filter (·.fingerprint.isNone) = [⟨n, none⟩] := by
  cases h with
  | unchecked hfollowed _ => exact ⟨rfl, _, hfollowed, rfl⟩
  | found _ hchecked | missing _ hchecked | followed _ hchecked | lost _ hchecked =>
    rw [hchecked] at hunchecked
    cases hunchecked

end Reference.Outcome

namespace Site

variable (functions : List TypeFunction) (site : Site)

/-- The names of a site that stand for nothing. -/
def unresolved : List Resolution :=
  (recorded (site.lookups functions)).filter (·.fingerprint.isNone)

/-- The faults of looking up the names of a site. -/
def faults : List SemanticError :=
  (site.lookups functions).filterMap Finding.error?

end Site

theorem forall₂_flatMap {α β γ : Type} {R : β → γ → Prop} {f : α → List β} {g : α → List γ}
    {l : List α} (h : ∀ a ∈ l, List.Forall₂ R (f a) (g a)) :
    List.Forall₂ R (l.flatMap f) (l.flatMap g) := by
  induction l with
  | nil => exact .nil
  | cons a others ih =>
    have hfirst := h a List.mem_cons_self
    have hothers := ih fun b hb => h b (List.mem_cons_of_mem a hb)
    rw [List.flatMap_cons, List.flatMap_cons]
    exact List.rel_append hfirst hothers

theorem exists_mem_of_forall₂ {α β : Type} {R : α → β → Prop} {as : List α} {bs : List β}
    (h : List.Forall₂ R as bs) {a : α} (ha : a ∈ as) : ∃ b ∈ bs, R a b := by
  induction h with
  | nil => cases ha
  | cons hab _ ih =>
    rcases List.mem_cons.1 ha with rfl | ha
    · exact ⟨_, List.mem_cons_self, hab⟩
    · obtain ⟨b, hb, hrelated⟩ := ih ha
      exact ⟨b, List.mem_cons_of_mem _ hb, hrelated⟩

theorem exists_of_forall₂ {α β : Type} {R : α → β → Prop} {as : List α} {bs : List β}
    (h : List.Forall₂ R as bs) {a : α} (ha : a ∈ as) : ∃ b, R a b :=
  (exists_mem_of_forall₂ h ha).imp fun _ hb => hb.2

section

variable (known : List PackageSymbol) (last : Nat) (members : List Member)

/-- The sites of a program where no name is left open. -/
def checkedSites : List Site :=
  (programSites known last members).filter fun site => !site.isUnchecked (typeFunctions last)

/-- The uses that are recorded without a symbol are those of a program's sites. -/
theorem unresolved_eq :
    (bindProgram known last members).resolutions.filter (·.fingerprint.isNone) =
      (programSites known last members).flatMap (Site.unresolved (typeFunctions last)) := by
  have hrecorded : (bindProgram known last members).resolutions =
      recorded (lookups (bindProgram known last members).findings) :=
    (Finding.recorded_lookups _).symm
  rw [hrecorded, bindProgram_lookups, recorded, List.filterMap_flatMap, List.filter_flatMap]
  rfl

theorem mem_unresolved_iff (u : Resolution) :
    u ∈ (bindProgram known last members).resolutions ∧ u.fingerprint = none ↔
      ∃ site ∈ programSites known last members, u ∈ site.unresolved (typeFunctions last) := by
  rw [← List.mem_flatMap, ← unresolved_eq, List.mem_filter, Option.isNone_iff_eq_none]

/-- The faults of looking up names are those of the sites where no name is left open. -/
theorem faults_eq_checked :
    (bindProgram known last members).errors.filter (·.fault.isLookup) =
      (checkedSites known last members).flatMap (Site.faults (typeFunctions last)) := by
  have hfaults : (bindProgram known last members).errors.filter (·.fault.isLookup) =
      (lookups (bindProgram known last members).findings).filterMap Finding.error? :=
    Finding.faults_eq _
  rw [hfaults, bindProgram_lookups, List.filterMap_flatMap, checkedSites, flatMap_filter_eq]
  apply List.flatMap_congr
  intro site _
  cases hunchecked : site.isUnchecked (typeFunctions last) with
  | false => rfl
  | true => exact ((site.outcome (typeFunctions last)).leaves hunchecked).1

/-- The faults of looking up names, one by one, and the names that stand for nothing where none is
left open. -/
theorem faults_pair :
    List.Forall₂
      (fun e u => ∃ site ∈ checkedSites known last members,
        u ∈ site.unresolved (typeFunctions last) ∧ site.reference.Concerns e u.name)
      ((bindProgram known last members).errors.filter (·.fault.isLookup))
      ((checkedSites known last members).flatMap (Site.unresolved (typeFunctions last))) := by
  rw [faults_eq_checked]
  apply forall₂_flatMap
  intro site hsite
  have hchecked : site.isUnchecked (typeFunctions last) = false := by
    simpa using (List.mem_filter.1 hsite).2
  apply ((site.outcome (typeFunctions last)).pairs hchecked).imp
  rintro e u ⟨hu, hconcerns⟩
  exact ⟨site, hsite, hu, hconcerns⟩

/-- Without errors, every name that is looked up stands for something where none is left open. -/
theorem checked_unresolved_nil (h : (bindProgram known last members).errors = []) :
    (checkedSites known last members).flatMap (Site.unresolved (typeFunctions last)) = [] := by
  have hpairs := faults_pair known last members
  rw [h] at hpairs
  exact List.forall₂_nil_left_iff.1 hpairs

end

/-- Faults of looking up names and names that stand for nothing correspond one to one, in their
order. Left out are only functions of a package without a module that does not list them, and
functions of a value of which nothing is known. -/
theorem unresolved_correspond (known : List PackageSymbol) (last : Nat) (members : List Member) :
    let p := bindProgram known last members
    let functions := typeFunctions last
    let sites := programSites known last members
    let checked := checkedSites known last members
    p.resolutions.filter (·.fingerprint.isNone) = sites.flatMap (Site.unresolved functions) ∧
      (∀ site ∈ sites, site.isUnchecked functions = true →
        ∃ n, site.followed? = some n ∧ site.unresolved functions = [⟨n, none⟩]) ∧
      List.Forall₂
        (fun e u => ∃ site ∈ checked, u ∈ site.unresolved functions ∧
          site.reference.Concerns e u.name)
        (p.errors.filter (·.fault.isLookup)) (checked.flatMap (Site.unresolved functions)) ∧
      (∀ e ∈ p.errors, e.fault.isLookup = true →
        ∃ u ∈ p.resolutions, u.fingerprint = none ∧
          ∃ site ∈ sites, site.reference.Concerns e u.name) ∧
      (p.errors = [] → ∀ u ∈ p.resolutions, u.fingerprint = none →
        ∃ site ∈ sites, site.isUnchecked functions = true ∧ site.followed? = some u.name) := by
  intro p functions sites checked
  have hleft : ∀ site ∈ sites, site.isUnchecked functions = true →
      ∃ n, site.followed? = some n ∧ site.unresolved functions = [⟨n, none⟩] := by
    intro site _ hunchecked
    exact ((site.outcome functions).leaves hunchecked).2
  have hpairs := faults_pair known last members
  refine ⟨unresolved_eq known last members, hleft, hpairs, ?_, ?_⟩
  · intro e he hfault
    obtain ⟨u, site, hsite, hu, hconcerns⟩ :=
      exists_of_forall₂ hpairs (List.mem_filter.2 ⟨he, hfault⟩)
    have hsite := List.mem_of_mem_filter hsite
    have hmem := (mem_unresolved_iff known last members u).2 ⟨site, hsite, hu⟩
    exact ⟨u, hmem.1, hmem.2, site, hsite, hconcerns⟩
  · intro hnone u hresolution hfingerprint
    obtain ⟨site, hsite, hu⟩ :=
      (mem_unresolved_iff known last members u).1 ⟨hresolution, hfingerprint⟩
    by_cases hunchecked : site.isUnchecked functions = true
    · obtain ⟨n, hfollowed, hn⟩ := hleft site hsite hunchecked
      rw [hn, List.mem_singleton] at hu
      exact ⟨site, hsite, hunchecked, by rw [hu]; exact hfollowed⟩
    · have hchecked : site ∈ checked := List.mem_filter.2 ⟨hsite, by simpa using hunchecked⟩
      have hflat : u ∈ checked.flatMap (Site.unresolved functions) :=
        List.mem_flatMap.2 ⟨site, hchecked, hu⟩
      rw [checked_unresolved_nil known last members hnone] at hflat
      cases hflat

end TodLang
