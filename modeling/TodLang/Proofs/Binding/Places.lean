import TodLang.Proofs.Binding.Order
/-!
What is found of names in a program, by its place. The uses of names and the faults of using them
are found at the names of a reference, and no two references have a name at one place. So what is
found at the name of a reference in a program is what is found there at its site
(`foundAt_eq`).
-/

namespace TodLang

open Finding (Composed)
open Scope

/-- Whether a fault is one of using a name. A name that is declared twice is none, nor is a fault in
a written type or an unknown package. -/
def SemanticFault.isOfUse : SemanticFault → Bool
  | alreadyDeclared _ | undefinedType _ | undefinedPackage _ => false
  | _ => true

theorem SemanticFault.isOfUse_of_isOfType {f : SemanticFault} (h : f.isOfType = true) :
    f.isOfUse = false := by
  cases f with
  | undefinedType _ | undefinedPackage _ => rfl
  | _ => cases h

namespace Finding

/-- The place of a use of a name or of a fault of using it. -/
def place? : Finding → Option Span
  | use r => some r.name.span
  | error e => if e.fault.isOfUse then some e.span else none

/-- Whether the place of something that is found is that of one of some names, if it has one. -/
def Stands (names : List Ident) (g : Finding) : Prop :=
  ∀ span, g.place? = some span → span ∈ names.map Ident.span

variable {names : List Ident}

@[simp] theorem stands_resolved {n : Ident} {fingerprint : String} :
    (resolved n fingerprint).Stands names ↔ n.span ∈ names.map Ident.span := by
  simp [Stands, place?, resolved]

@[simp] theorem stands_unresolved {n : Ident} :
    (unresolved n).Stands names ↔ n.span ∈ names.map Ident.span := by
  simp [Stands, place?, unresolved]

@[simp] theorem stands_fault {f : SemanticFault} {span : Span} (h : span ∈ names.map Ident.span) :
    (fault f span).Stands names := by
  intro place hplace
  dsimp only [place?, fault] at hplace
  split at hplace
  · obtain rfl := Option.some.inj hplace
    exact h
  · cases hplace

theorem stands_ofType {e : SemanticError} (h : e.fault.isOfType = true) :
    (error e).Stands names := by
  intro place hplace
  dsimp only [place?] at hplace
  rw [SemanticFault.isOfUse_of_isOfType h] at hplace
  cases hplace

theorem stands_checkCount {name : String} {expected found : Nat} {span : Span}
    (h : span ∈ names.map Ident.span) :
    ∀ g ∈ checkCount name expected found span, g.Stands names := by
  unfold checkCount
  split
  · exact List.forall_mem_nil _
  · simp [h]

/-- An aside with a place is a number of fields. -/
theorem IsAside.of_place {P : Span → Prop} {g : Finding} (h : g.IsAside P) {span : Span}
    (hplace : g.place? = some span) : P span := by
  unfold IsAside at h
  split at h
  · cases hplace
  · obtain rfl := Option.some.inj hplace
    exact h
  · cases h

/-- What is found at a place. -/
def foundAt (span : Span) (findings : List Finding) : List Finding :=
  findings.filter fun g => g.place? = some span

theorem mem_foundAt {span : Span} {findings : List Finding} {g : Finding} :
    g ∈ foundAt span findings ↔ g ∈ findings ∧ g.place? = some span := by
  simp [foundAt]

theorem foundAt_append (span : Span) (front back : List Finding) :
    foundAt span (front ++ back) = foundAt span front ++ foundAt span back :=
  List.filter_append ..

theorem foundAt_resolved (n : Ident) (fingerprint : String) (others : List Finding) :
    foundAt n.span (resolved n fingerprint :: others) =
      resolved n fingerprint :: foundAt n.span others := by
  simp [foundAt, place?, resolved]

theorem foundAt_resolved_ne {n other : Ident} (h : other.span ≠ n.span) (fingerprint : String)
    (others : List Finding) :
    foundAt n.span (resolved other fingerprint :: others) = foundAt n.span others := by
  simp [foundAt, place?, resolved, h]

/-- Where no aside can stand, what is found is found in the blocks. -/
theorem Composed.foundAt_eq {P : Span → Prop} {blocks : List (List Finding)}
    {found : List Finding} (h : Composed P blocks found) {span : Span} (hspan : ¬ P span) :
    foundAt span found = blocks.flatMap (foundAt span) := by
  induction h with
  | nil => rfl
  | block _ ih => rw [foundAt_append, List.flatMap_cons, ih]
  | aside hg _ ih =>
    have hplace := mt hg.of_place hspan
    rw [foundAt, List.filter_cons_of_neg (by simpa using hplace), ← ih, foundAt]

end Finding

namespace Reference

variable (functions : List TypeFunction) (s : Scope)

theorem function_stands {names : List Ident} {callee : Ident}
    (h : callee.span ∈ names.map Ident.span) (name : String) (expected count : Nat)
    (fingerprint : String) :
    ∀ g ∈ checkCount name expected count callee.span ++ [.resolved callee fingerprint],
      g.Stands names := by
  rw [List.forall_mem_append]
  constructor
  · exact Finding.stands_checkCount h
  · simpa using h

theorem useCallee_stands (callee : Ident) (count : Nat) :
    ∀ g ∈ s.useCallee callee count, g.Stands [callee] := by
  have hcallee : callee.span ∈ [callee].map Ident.span := List.mem_singleton_self _
  unfold useCallee
  split
  · exact function_stands hcallee _ _ _ _
  · exact function_stands hcallee _ _ _ _
  · simp
  · simp

theorem usePackageCall_stands (package callee : Ident) (count : Nat) :
    ∀ g ∈ s.usePackageCall package callee count, g.Stands [package, callee] := by
  have hcallee : callee.span ∈ [package, callee].map Ident.span := by simp
  unfold usePackageCall
  split
  · rw [List.forall_mem_cons]
    constructor
    · simp
    · unfold usePackageFunction
      split
      · exact function_stands hcallee _ _ _ _
      · split <;> simp
  · simp

theorem useTypeCall_stands (receiver callee : Ident) (count : Nat) :
    ∀ g ∈ useTypeCall functions s receiver callee count, g.Stands [receiver, callee] := by
  have hcallee : callee.span ∈ [receiver, callee].map Ident.span := by simp
  unfold useTypeCall
  split
  · simp
  · rw [List.forall_mem_cons]
    constructor
    · simp
    · split
      · unfold useTypeFunction
        split
        · exact function_stands hcallee _ _ _ _
        · split <;> simp
      · simp

theorem useField_stands (object field : Ident) :
    ∀ g ∈ s.useField object field, g.Stands [object, field] := by
  unfold useField
  split
  · simp
  · rw [List.forall_mem_cons]
    constructor
    · simp
    · split
      · unfold useStructField
        split <;> simp
      · simp

theorem useType_stands (clause : TypeClause) :
    ∀ g ∈ s.useType clause, g.Stands [clause.name] := by
  unfold useType resolveType
  split
  · simp
  · next e herror =>
    obtain ⟨hkind, -⟩ := lookupType_error herror
    simp [Finding.stands_ofType hkind]

/-- What is found of a reference stands at its names. -/
theorem findings_stand (r : Reference) : ∀ g ∈ r.findings functions s, g.Stands r.names := by
  induction r generalizing s with
  | value n =>
    unfold findings useName
    split <;> simp [names, head]
  | target n =>
    unfold findings useTarget
    split
    · split <;> simp [names, head]
    · simp [names, head]
  | call callee count => exact useCallee_stands s callee count
  | packageCall package callee count => exact usePackageCall_stands s package callee count
  | typeCall receiver callee count => exact useTypeCall_stands functions s receiver callee count
  | fieldOf object field => exact useField_stands s object field
  | type clause => exact useType_stands s clause
  | packageUse n =>
    unfold findings usePackage
    split <;> simp [names, head]
  | own r ih => exact ih s.program

end Reference

/-! ### The findings of a program -/

namespace BoundProgram

variable {p : BoundProgram}

theorem mem_errors {e : SemanticError} : e ∈ p.errors ↔ .error e ∈ p.findings := by
  unfold errors
  rw [List.mem_filterMap]
  constructor
  · rintro ⟨g, hg, herror⟩
    cases g with
    | error e' =>
      obtain rfl := Option.some.inj herror
      exact hg
    | use r => cases herror
  · intro he
    exact ⟨_, he, rfl⟩

theorem mem_resolutions {r : Resolution} : r ∈ p.resolutions ↔ .use r ∈ p.findings := by
  unfold resolutions
  rw [List.mem_filterMap]
  constructor
  · rintro ⟨g, hg, huse⟩
    cases g with
    | use r' =>
      obtain rfl := Option.some.inj huse
      exact hg
    | error e => cases huse
  · intro hr
    exact ⟨_, hr, rfl⟩

end BoundProgram

/-! ### Programs that are read from a source -/

/-- Where lists are put together without doubles, what comes of one entry of them comes of the one
list that has it. -/
theorem flatMap_eq_of_nodup {α β γ : Type} {f : α → List β} {g : α → List γ} {l : List α}
    (h : (l.flatMap f).Nodup) {a : α} (ha : a ∈ l) {x : β} (hx : x ∈ f a)
    (hg : ∀ b, x ∉ f b → g b = []) : l.flatMap g = g a := by
  obtain ⟨front, back, rfl⟩ := List.append_of_mem ha
  rw [List.flatMap_append, List.flatMap_cons] at h ⊢
  obtain ⟨-, hback, hfront⟩ := List.nodup_append.1 h
  obtain ⟨-, -, hbehind⟩ := List.nodup_append.1 hback
  have hnone : front.flatMap g = [] := by
    rw [List.flatMap_eq_nil_iff]
    intro b hb
    apply hg
    intro hxb
    exact hfront x (List.mem_flatMap.2 ⟨b, hb, hxb⟩) x (List.mem_append_left _ hx) rfl
  have hnone' : back.flatMap g = [] := by
    rw [List.flatMap_eq_nil_iff]
    intro b hb
    apply hg
    intro hxb
    exact hbehind x hx x (List.mem_flatMap.2 ⟨b, hb, hxb⟩) rfl
  rw [hnone, hnone', List.nil_append, List.append_nil]

section

variable {file : Nat} {hashComments : Bool} {source : String} {tokens : List Token}
  {members : List Member} {known : List PackageSymbol} {last : Nat} {site : Site}

/-- The names of the sites of a program stand at different places. -/
theorem sites_spans_nodup (htokens : tokenize file hashComments source = .ok tokens)
    (hparse : parseProgram tokens = .ok members) (known : List PackageSymbol) (last : Nat) :
    ((programSites known last members).flatMap fun site =>
      site.reference.names.map Ident.span).Nodup := by
  have hnodup := references_spans_nodup htokens hparse (bindProgram known last members).accepts
  rwa [← map_programSites_accepts htokens hparse known last, namesOf, List.flatMap_map,
    List.map_flatMap] at hnodup

/-- The names of the sites of a program are tokens. -/
theorem exists_token_of_span (htokens : tokenize file hashComments source = .ok tokens)
    (hparse : parseProgram tokens = .ok members) (hsite : site ∈ programSites known last members)
    {span : Span} (hspan : span ∈ site.reference.names.map Ident.span) :
    ∃ t ∈ beforeEnding tokens, t.span = span := by
  have hplaced : Placed (fun _ => True) _
      (programReferences (bindProgram known last members).accepts members) _ :=
    (parseProgram_spelling hparse).placed
  rw [← map_programSites_accepts htokens hparse known last] at hplaced
  obtain ⟨n, hn, rfl⟩ := List.mem_map.1 hspan
  have hmem : n ∈ namesOf ((programSites known last members).map Site.reference) := by
    rw [namesOf, List.flatMap_map]
    exact List.mem_flatMap.2 ⟨site, hsite, hn⟩
  obtain ⟨t, ht, rfl⟩ := List.mem_map.1 (hplaced.names.subset hmem)
  exact ⟨t, ht, rfl⟩

/-- What is found in a program at a name of a reference is what is found there of the reference. -/
theorem foundAt_eq (htokens : tokenize file hashComments source = .ok tokens)
    (hparse : parseProgram tokens = .ok members) (hsite : site ∈ programSites known last members)
    {span : Span} (hspan : span ∈ site.reference.names.map Ident.span) :
    Finding.foundAt span (bindProgram known last members).findings =
      Finding.foundAt span (site.findings (typeFunctions last)) := by
  have hcomposed := bindProgram_composed known last members (parseProgram_spelling hparse).spanned
  rw [hcomposed.foundAt_eq, List.flatMap_map]
  · refine flatMap_eq_of_nodup (sites_spans_nodup htokens hparse known last) hsite hspan ?_
    intro other hother
    rw [Finding.foundAt, List.filter_eq_nil_iff]
    intro g hg hplace
    have hstands := Reference.findings_stand _ other.scope other.reference g hg
    exact hother (hstands span (of_decide_eq_true hplace))
  · -- A structure that is made is more than a name.
    intro hspanning
    obtain ⟨t, ht, rfl⟩ := exists_token_of_span htokens hparse hsite hspan
    exact hspanning.ne_span (laid_tokenize htokens).run ht rfl

/-- What stands at a name of a reference is found in a program if it is found of the reference. -/
theorem mem_findings_iff (htokens : tokenize file hashComments source = .ok tokens)
    (hparse : parseProgram tokens = .ok members) (hsite : site ∈ programSites known last members)
    {g : Finding} {span : Span} (hplace : g.place? = some span)
    (hspan : span ∈ site.reference.names.map Ident.span) :
    g ∈ (bindProgram known last members).findings ↔ g ∈ site.findings (typeFunctions last) := by
  have hfound := foundAt_eq htokens hparse hsite hspan
  have hmem {findings : List Finding} : g ∈ Finding.foundAt span findings ↔ g ∈ findings :=
    Finding.mem_foundAt.trans (and_iff_left hplace)
  rw [← hmem, hfound, hmem]

end

end TodLang
