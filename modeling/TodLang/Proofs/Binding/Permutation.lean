import TodLang.Proofs.Binding.Correspondence
/-!
Programs whose members are in another order. If the names that are declared are different, the
order does not matter up to the numbers of variables and the order in which uses and faults are
found (`bindProgram_perm`), unless a function has the name of a built-in type that is looked up for
the signature of another member (`Member.Hides`). Stage by stage, the walks correspond; bodies and
statements come last, with the symbols of their functions (`Walk.SignAlike.program`).
-/

namespace TodLang

/-- Whether a member declares a function of the name of a built-in type that is looked up for the
signature of another one. -/
def Member.Hides (s : Scope) (f member : Member) : Prop :=
  ∃ n ∈ member.sought s, f.functionName? = some n.name ∧ n.name ∈ Ty.builtinNames

/-- Whether no member hides a built-in type from the signature of another one. -/
def Unhidden (s : Scope) (members : List Member) : Prop :=
  members.Pairwise fun f g => ¬ f.Hides s g ∧ ¬ g.Hides s f

theorem Unhidden.perm {s : Scope} {members members' : List Member} (h : Unhidden s members)
    (hperm : members.Perm members') : Unhidden s members' :=
  (hperm.pairwise_iff fun hfg => ⟨hfg.2, hfg.1⟩).1 h

theorem hides_renumber {σ : Nat → Nat} {s : Scope} {f member : Member} :
    f.Hides (s.renumber σ) member ↔ f.Hides s member := by
  unfold Member.Hides
  rw [Member.sought_renumber]

theorem Unhidden.renumber {s : Scope} {members : List Member} (h : Unhidden s members)
    (σ : Nat → Nat) : Unhidden (s.renumber σ) members := by
  apply h.imp
  intro f g hfg
  rwa [hides_renumber, hides_renumber]

namespace Walk

section

variable {known : List PackageSymbol} {last : Nat} {members members' : List Member}

/-! ### Fields -/

/-- The walk once the fields of the structures are bound but not declared, and the fields. -/
def fieldsBound (known : List PackageSymbol) (last : Nat) (members : List Member) :
    List (String × List Variable) × Walk :=
  fieldsStep.all.run (structDeclarations members) (structsNamed known last members).2

/-- Structures get their fields at once. -/
theorem structsDeclared_eq (hnames : ((earlySymbols known members).map Symbol.name).Nodup) :
    structsDeclared known last members =
      (fieldsBound known last members).2.within
        ((fieldsBound known last members).2.scope.setAll (fieldsBound known last members).1) := by
  have haccepted : (structsNamed known last members).1 = structDeclarations members := by
    rw [structsNamed_eq hnames]
  have hscope : (fieldsBound known last members).2.scope =
      (structsNamed known last members).2.scope :=
    fieldsStep.all.scope _ _
  rw [structsDeclared, haccepted, hscope]
  exact foldl_structFields (fun names => Scope.alike_refl _ names) _

theorem fieldsBound_nodup (hnames : ((earlySymbols known members).map Symbol.name).Nodup) :
    ((fieldsBound known last members).1.map Prod.fst).Nodup := by
  have hstructs := (takes_earlySymbols hnames 0).right.names
  rw [List.map_map] at hstructs
  rw [fieldsBound, map_fieldsStep]
  exact hstructs

/-- Structures get their fields in any order. -/
theorem corresponds_structsDeclared (h : members.Perm members')
    (hknown : ∀ p ∈ known, p.CountsTo (beginning last).last)
    (hnames : ((earlySymbols known members).map Symbol.name).Nodup) :
    ∃ σ, (structsDeclared known last members).Corresponds (beginning last).last σ
      (structsDeclared known last members') := by
  have hnames' := ((earlySymbols_perm h hnames).map Symbol.name).nodup_iff.1 hnames
  have hperm : ((structDeclarations members).map id).Perm (structDeclarations members') := by
    rw [List.map_id]
    exact h.filterMap _
  obtain ⟨σ, hsteps, hfields, hfirst, hsecond⟩ :=
    (corresponds_structsNamed h hknown hnames).steps (t := fieldsStep) hperm
      (fun _ _ => List.map_id _) (fun _ _ => List.map_id _)
  refine ⟨σ, ?_⟩
  rw [structsDeclared_eq hnames, structsDeclared_eq hnames']
  apply hsteps.within (fun τ s fields => s.setAll_renumber τ fields) ?_ hfirst hsecond
  unfold Scope.setAll
  rw [Region.setAll_perm hfields (fieldsBound_nodup hnames')]
  rfl

/-! ### Signatures -/

/-- The walk once the signatures of functions are bound but not declared, and the members with
their symbols. -/
def membersSigned (known : List PackageSymbol) (last : Nat) (members : List Member) :
    List SignedMember × Walk :=
  signStep.all.run members (structsDeclared known last members)

theorem earlySymbols_nodup (hnames : (declaredNames known members).Nodup) :
    ((earlySymbols known members).map Symbol.name).Nodup :=
  hnames.of_append_left

/-- Members in another order declare the same names. -/
theorem declaredNames_perm (h : members.Perm members')
    (hnames : (declaredNames known members).Nodup) :
    (declaredNames known members).Perm (declaredNames known members') :=
  ((earlySymbols_perm h (earlySymbols_nodup hnames)).map Symbol.name).append (h.filterMap _)

/-- The names of functions are free once the structures are declared. -/
theorem lookup?_structsDeclared (hnames : (declaredNames known members).Nodup) {name : String}
    (hname : name ∈ members.filterMap Member.functionName?) :
    (structsDeclared known last members).scope.inner.lookup? name = none := by
  have hearly := earlySymbols_nodup hnames
  have hfind : (earlySymbols known members).find? (·.name == name) = none := by
    rw [List.find?_eq_none]
    intro s hs heq
    have hmem : s.name ∈ (earlySymbols known members).map Symbol.name := List.mem_map_of_mem hs
    exact List.disjoint_of_nodup_append hnames hmem (beq_iff_eq.1 heq ▸ hname)
  have hscope : (fieldsBound known last members).2.scope =
      (structsNamed known last members).2.scope :=
    fieldsStep.all.scope _ _
  rw [structsDeclared_eq hearly]
  apply Region.lookup?_setAll_of_eq_none
  rw [hscope, structsNamed_eq hearly]
  change ((beginning last).scope.inner.addAll _).lookup? name = none
  rw [(takes_earlySymbols hearly last).lookup?_addAll, hfind]
  rfl

theorem takes_membersSigned (hnames : (declaredNames known members).Nodup) :
    (structsDeclared known last members).scope.inner.Takes
      ((membersSigned known last members).1.filterMap SignedMember.declared?) := by
  have hsigned := map_signStep members (structsDeclared known last members)
  constructor
  · rw [membersSigned, hsigned]
    exact hnames.of_append_right
  · intro s hs
    apply lookup?_structsDeclared hnames
    rw [← hsigned]
    exact List.mem_map_of_mem hs

theorem around?_structsDeclared (name : String) :
    (structsDeclared known last members).scope.around? name =
      (beginning last).scope.around? name := by
  have houter : (structsDeclared known last members).scope.outer =
      (beginning last).scope.outer := by
    refine (foldl_outer structFields_outer _ _).trans ?_
    refine (structNames_outer _ _).trans ?_
    refine (foldl_outer packageUse_outer _ _).trans ?_
    exact foldl_outer (fun w _ => declare_outer w _ _) _ _
  unfold Scope.around?
  rw [houter]

theorem packageless_structsDeclared :
    (structsDeclared known last members).scope.Packageless := by
  intro name symbol h
  rw [around?_structsDeclared] at h
  exact packageless_beginning last name symbol h

/-- Only built-in types are around a program. -/
theorem namedType?_beginning {name : String}
    (h : ((beginning last).scope.around? name).bind Symbol.namedType? ≠ none) :
    name ∈ Ty.builtinNames := by
  rw [around?_beginning] at h
  unfold Region.lookup? at h
  cases hfind : (prelude (last + typeFunctionIds)).symbols.find? (·.name == name) with
  | none =>
    rw [hfind] at h
    exact absurd rfl h
  | some symbol =>
    have hname : symbol.name = name := by simpa using List.find?_some hfind
    rcases mem_prelude (List.mem_of_find?_eq_some hfind) with ⟨type, htype, rfl⟩ | ⟨f, -, rfl⟩
    · exact hname ▸ htype
    · rw [hfind] at h
      exact absurd rfl h

/-- Functions are declared at once. -/
theorem signatures_eq (hnames : (declaredNames known members).Nodup)
    (hhides : Unhidden (structsDeclared known last members).scope members) :
    (structsDeclared known last members).signatures members =
      ((membersSigned known last members).1.filterMap SignedMember.bodySymbol?,
        (membersSigned known last members).2.within
          ((membersSigned known last members).2.scope.addAll
            ((membersSigned known last members).1.filterMap SignedMember.declared?))) := by
  let w := structsDeclared known last members
  have hscope : (membersSigned known last members).2.scope = w.scope := signStep.all.scope _ _
  have hnone : members.Pairwise fun f member => ∀ n ∈ member.sought w.scope,
      f.functionName? = some n.name → (w.scope.around? n.name).bind Symbol.namedType? = none := by
    apply hhides.imp
    intro f member hfree n hn hname
    by_contra htype
    rw [around?_structsDeclared] at htype
    exact hfree.1 ⟨n, hn, hname, namedType?_beginning htype⟩
  rw [hscope]
  exact signatures_within rfl packageless_structsDeclared (fun _ _ => Scope.alike_refl _ _)
    (takes_membersSigned hnames) hnone

theorem functionsDeclared_eq (hnames : (declaredNames known members).Nodup)
    (hhides : Unhidden (structsDeclared known last members).scope members) :
    functionsDeclared known last members = (membersSigned known last members).2.within
      ((membersSigned known last members).2.scope.addAll
        ((membersSigned known last members).1.filterMap SignedMember.declared?)) :=
  congrArg Prod.snd (signatures_eq hnames hhides)

/-- Whether walks correspond that are about to go through members with their symbols, and so do
these members. -/
structure SignAlike (start : Nat) (σ : Equiv.Perm Nat) (w w' : Walk) (xs xs' : List SignedMember) :
    Prop where
  corresponds : w.Corresponds start σ w'
  perm : (xs.map (SignedMember.renumber σ)).Perm xs'
  holds : w.Holds SignedMember.renumber xs
  holds' : w'.Holds SignedMember.renumber xs'

/-- Functions are declared in any order. -/
theorem signAlike_functionsDeclared (h : members.Perm members')
    (hknown : ∀ p ∈ known, p.CountsTo (beginning last).last)
    (hnames : (declaredNames known members).Nodup)
    (hhides : Unhidden (structsDeclared known last members).scope members)
    (hhides' : Unhidden (structsDeclared known last members').scope members') :
    ∃ σ, SignAlike (beginning last).last σ (functionsDeclared known last members)
      (functionsDeclared known last members') (membersSigned known last members).1
      (membersSigned known last members').1 := by
  have hnames' := (declaredNames_perm h hnames).nodup_iff.1 hnames
  obtain ⟨τ, hstructs⟩ := corresponds_structsDeclared h hknown (earlySymbols_nodup hnames)
  obtain ⟨σ, hsteps, hsigned, hfirst, hsecond⟩ := hstructs.steps (t := signStep)
    ((List.map_id members).symm ▸ h) (fun _ _ => List.map_id _) (fun _ _ => List.map_id _)
  have hperm : (membersSigned known last members').1.Perm
      ((membersSigned known last members).1.map (SignedMember.renumber σ)) := hsigned
  have hdeclare (τ : Nat → Nat) (s : Scope) (xs : List SignedMember) :
      (s.addAll (xs.filterMap SignedMember.declared?)).renumber τ =
        (s.renumber τ).addAll ((xs.map (SignedMember.renumber τ)).filterMap
          SignedMember.declared?) := by
    rw [Scope.addAll_renumber, SignedMember.map_declared?]
  refine ⟨σ, ?_, hperm.symm, ?_, ?_⟩
  · rw [functionsDeclared_eq hnames hhides, functionsDeclared_eq hnames' hhides']
    apply hsteps.within hdeclare ?_ hfirst hsecond
    exact congrArg (Scope.mk · _)
      (Region.addAll_perm (hperm.filterMap _) (takes_membersSigned hnames').names _)
  · rw [functionsDeclared_eq hnames hhides]
    exact hfirst
  · rw [functionsDeclared_eq hnames' hhides']
    exact hsecond

/-! ### Global variables -/

section

variable {α : Type} {renumber : (Nat → Nat) → α → α} {next : Walk → α × Walk}

/-- A walk that goes on in the same way wherever it is leaves no number open. -/
theorem Settled.of_yields {w : Walk} (h : w.Settled)
    (hyields : ∀ (m : Mirror) {v v' : Walk}, m.Shows v v' →
      m.Yields (renumber m.renumber) (next v) (next v'))
    (hlast : ∀ v, v.last ≤ (next v).2.last) (hclosed : ∀ v, (next v).2.closed = v.closed) :
    (next w).2.Settled ∧
      ∀ σ, Fixes σ (next w).2.last → renumber σ (next w).1 = (next w).1 := by
  have hself (σ : Nat → Nat) (hσ : Fixes σ (next w).2.last) :=
    hyields _ (Mirror.shows_ofFixes h hσ) le_rfl
  refine ⟨h.of_reflects (hlast w) ((hclosed w).trans h.closed) fun σ hσ => (hself σ hσ).2, ?_⟩
  exact fun σ hσ => (hself σ hσ).1.symm

/-- Corresponding walks that go on in the same way correspond, with the same results. -/
theorem Corresponds.of_yields {start : Nat} {σ : Equiv.Perm Nat} {w w' : Walk}
    (h : w.Corresponds start σ w')
    (hyields : ∀ (m : Mirror) {v v' : Walk}, m.Shows v v' →
      m.Yields (renumber m.renumber) (next v) (next v'))
    (hlast : ∀ v, v.last ≤ (next v).2.last) (hclosed : ∀ v, (next v).2.closed = v.closed) :
    (next w).2.Corresponds start σ (next w').2 ∧ (next w').1 = renumber σ (next w).1 := by
  obtain ⟨hresult, hreflects⟩ := hyields _ (Mirror.shows_ofRearranged h.rearranged h.settled.closed
    h.settled'.closed (next w).2.last) le_rfl
  have hsettled := (h.settled.of_yields hyields hlast hclosed).1
  have hsettled' := (h.settled'.of_yields hyields hlast hclosed).1
  exact ⟨⟨h.rearranged.of_reflects (hlast w) hreflects, hsettled, hsettled',
    h.start.trans (hlast w)⟩, hresult⟩

end

theorem declare_closed (w : Walk) (symbol : Symbol) (span : Span) :
    (w.declare symbol span).closed = w.closed := by
  unfold declare
  cases w.scope.declare? symbol <;> rfl

theorem declareVariable_closed (w : Walk) (make : Variable → Symbol) (d : VariableDeclaration) :
    (w.declareVariable make d).closed = w.closed := by
  have htype : (w.declaredType d).2.closed = w.closed := by
    unfold declaredType
    cases d.type with
    | some clause => rfl
    | none => cases d.value <;> rfl
  rw [declareVariable_eq, declare_closed]
  exact htype

theorem globals_last (w : Walk) (ds : List VariableDeclaration) :
    w.last ≤ (ds.foldl (declareVariable · .globalVariable ·) w).last :=
  (continues_foldl (fun w d => w.continues_declareVariable (fun _ => rfl) d) w ds).last

theorem globals_closed (w : Walk) (ds : List VariableDeclaration) :
    (ds.foldl (declareVariable · .globalVariable ·) w).closed = w.closed := by
  induction ds generalizing w with
  | nil => rfl
  | cons d others ih => exact (ih _).trans (declareVariable_closed w .globalVariable d)

theorem shows_globals {m : Mirror} {w w' : Walk} (h : m.Shows w w')
    (ds : List VariableDeclaration) :
    m.Shows (ds.foldl (declareVariable · .globalVariable ·) w)
      (ds.foldl (declareVariable · .globalVariable ·) w') := by
  induction ds generalizing w w' with
  | nil => exact h
  | cons d others ih => exact ih (h.declareVariable (fun _ => rfl) d)

/-- Global variables are declared in the same order. -/
theorem SignAlike.globals {start : Nat} {σ : Equiv.Perm Nat} {w w' : Walk}
    {xs xs' : List SignedMember} (h : SignAlike start σ w w' xs xs')
    (ds : List VariableDeclaration) :
    SignAlike start σ (ds.foldl (declareVariable · .globalVariable ·) w)
      (ds.foldl (declareVariable · .globalVariable ·) w') xs xs' := by
  -- Declaring variables gives nothing back.
  let next (w : Walk) : Unit × Walk := ((), ds.foldl (declareVariable · .globalVariable ·) w)
  let keep (_ : Nat → Nat) : Unit → Unit := id
  have hyields (m : Mirror) {v v' : Walk} (hv : m.Shows v v') :
      m.Yields (keep m.renumber) (next v) (next v') :=
    fun hbound => ⟨rfl, shows_globals hv ds hbound⟩
  have hcorresponds :=
    h.corresponds.of_yields hyields (globals_last · ds) (globals_closed · ds)
  exact ⟨hcorresponds.1, h.perm, fun τ hτ => h.holds τ (hτ.mono (globals_last w ds)),
    fun τ hτ => h.holds' τ (hτ.mono (globals_last w' ds))⟩

end

end Walk

/-! ### Programs -/

/-- The statement of a member outside all functions. -/
def Member.statement? : Member → Option Statement
  | .statement s => some s
  | _ => none

/-- The variable that a statement declares. -/
def Statement.declaration? : Statement → Option VariableDeclaration
  | .declaration d => some d
  | _ => none

theorem globalVariables_eq (members : List Member) :
    globalVariables members =
      (members.filterMap Member.statement?).filterMap Statement.declaration? := by
  rw [List.filterMap_filterMap]
  apply List.filterMap_congr
  intro member _
  cases member with
  | statement s => cases s <;> rfl
  | _ => rfl

theorem Finding.resolution?_renumber (σ : Nat → Nat) (f : Finding) :
    (f.renumber σ).resolution? = f.resolution?.map (Resolution.renumber σ) := by
  cases f <;> rfl

theorem Finding.error?_renumber (σ : Nat → Nat) (f : Finding) :
    (f.renumber σ).error? = f.error? := by
  cases f <;> rfl

/-- Whether two programs are the same up to the numbers of variables and the order in which
functions are bound, names used and faults found. -/
structure BoundProgram.SameUpTo (σ : Equiv.Perm Nat) (p p' : BoundProgram) : Prop where
  symbols : p'.symbols = p.symbols.map (Symbol.renumber σ)
  functions : p'.functions.Perm (p.functions.map (BoundFunction.renumber σ))
  resolutions : p'.resolutions.Perm (p.resolutions.map (Resolution.renumber σ))
  errors : p'.errors.Perm p.errors
  last : p'.last = p.last

namespace Walk

/-- The program that a walk binds once functions are declared, given its global variables and its
members with their symbols. -/
def program (w : Walk) (ds : List VariableDeclaration) (xs : List SignedMember) : BoundProgram :=
  let bound := bodyStep.all.run xs (ds.foldl (declareVariable · .globalVariable ·) w)
  { symbols := bound.2.scope.inner.symbols
    functions := bound.1.filterMap id
    findings := bound.2.findings
    last := bound.2.last }

/-- Members with symbols that correspond are bound to programs that are the same. -/
theorem SignAlike.program {start : Nat} {σ : Equiv.Perm Nat} {w w' : Walk}
    {xs xs' : List SignedMember} (h : SignAlike start σ w w' xs xs')
    (ds : List VariableDeclaration) :
    ∃ τ : Equiv.Perm Nat, Fixes τ start ∧
      (w.program ds xs).SameUpTo τ (w'.program ds xs') := by
  have hglobals := h.globals ds
  obtain ⟨τ, hbodies, hbound, -, -⟩ := hglobals.corresponds.steps (t := bodyStep) hglobals.perm
    hglobals.holds hglobals.holds'
  have hfindings := hbodies.rearranged.findings
  refine ⟨τ, hbodies.rearranged.earlier, ?_, ?_, ?_, ?_, hbodies.rearranged.last⟩
  · exact congrArg (fun s : Scope => s.inner.symbols) hbodies.rearranged.scope
  · have hfunctions := hbound.filterMap id
    rw [List.filterMap_map] at hfunctions
    exact hfunctions.trans (.of_eq List.map_filterMap.symm)
  · have hresolutions := hfindings.filterMap Finding.resolution?
    rw [List.filterMap_map] at hresolutions
    refine hresolutions.trans (.of_eq ?_)
    rw [BoundProgram.resolutions, List.map_filterMap]
    exact List.filterMap_congr fun f _ => f.resolution?_renumber τ
  · have herrors := hfindings.filterMap Finding.error?
    rw [List.filterMap_map] at herrors
    refine herrors.trans (.of_eq ?_)
    exact List.filterMap_congr fun f _ => f.error?_renumber τ

/-- What is bound once functions are declared is bound with their symbols. -/
theorem bindProgram_eq {known : List PackageSymbol} {last : Nat} {members : List Member}
    {xs : List SignedMember} (hmembers : xs.map SignedMember.member = members)
    (hsigned : ∀ x ∈ xs, ∀ f, x.member = .function f → x.symbol.isSome)
    (hsymbols : ((structsDeclared known last members).signatures members).1 =
      xs.filterMap SignedMember.bodySymbol?) :
    bindProgram known last members =
      (functionsDeclared known last members).program (globalVariables members) xs := by
  let declared := (globalVariables members).foldl (declareVariable · .globalVariable ·)
    (functionsDeclared known last members)
  have hbodies : declared.bindMembers members
      ((structsDeclared known last members).signatures members).1 =
        ((bodyStep.all.run xs declared).1.filterMap id, (bodyStep.all.run xs declared).2) := by
    rw [hsymbols]
    conv_lhs => rw [← hmembers]
    exact bindMembers_eq hsigned declared
  let read (bound : List BoundFunction × Walk) : BoundProgram :=
    { symbols := bound.2.scope.inner.symbols
      functions := bound.1
      findings := bound.2.findings
      last := bound.2.last }
  exact congrArg read hbodies

end Walk

/-- Programs whose members are in another order are the same up to numbers if no function hides a
built-in type from the signature of another member. -/
theorem bindProgram_perm {known : List PackageSymbol} {last : Nat} {members members' : List Member}
    (hknown : ∀ p ∈ known, p.CountsTo (Walk.beginning last).last)
    (hnames : (declaredNames known members).Nodup)
    (hhides : Unhidden (Walk.structsDeclared known last members).scope members)
    (hperm : members.Perm members')
    (hstatements : members'.filterMap Member.statement? = members.filterMap Member.statement?) :
    ∃ σ : Equiv.Perm Nat, Fixes σ (Walk.beginning last).last ∧
      (bindProgram known last members).SameUpTo σ (bindProgram known last members') := by
  have hnames' := (Walk.declaredNames_perm hperm hnames).nodup_iff.1 hnames
  obtain ⟨τ, hstructs⟩ :=
    Walk.corresponds_structsDeclared hperm hknown (Walk.earlySymbols_nodup hnames)
  have hhides' : Unhidden (Walk.structsDeclared known last members').scope members' := by
    rw [hstructs.rearranged.scope]
    exact (hhides.perm hperm).renumber τ
  obtain ⟨σ, hsigned⟩ :=
    Walk.signAlike_functionsDeclared hperm hknown hnames hhides hhides'
  have hglobals : globalVariables members' = globalVariables members := by
    rw [globalVariables_eq, globalVariables_eq, hstatements]
  obtain ⟨hmembers, hsome⟩ := Walk.signStep_signed members (Walk.structsDeclared known last members)
  obtain ⟨hmembers', hsome'⟩ :=
    Walk.signStep_signed members' (Walk.structsDeclared known last members')
  have hsymbols := congrArg Prod.fst (Walk.signatures_eq hnames hhides)
  have hsymbols' := congrArg Prod.fst (Walk.signatures_eq hnames' hhides')
  rw [Walk.bindProgram_eq hmembers hsome hsymbols, Walk.bindProgram_eq hmembers' hsome' hsymbols',
    hglobals]
  exact hsigned.program _

end TodLang
