import TodLang.Proofs.Binding.Signing
/-!
Walks that correspond. Each stage of the declaration goes through the members of one kind in the
scope that the stage before it has left. In another order of the members its steps lead to a walk
that is the first one rearranged (`Walk.Corresponds.steps`). The first stages, up to the names of
structures, are done here (`Walk.corresponds_structsNamed`).
-/

namespace TodLang

namespace Walk

/-! ### Stages -/

/-- Whether a walk is the other one rearranged, with no number open in either. -/
structure Corresponds (start : Nat) (σ : Equiv.Perm Nat) (w w' : Walk) : Prop where
  rearranged : w.Rearranged start σ w'
  settled : w.Settled
  settled' : w'.Settled
  start : start ≤ w.last

/-- Whether things have no number that is still to be taken. -/
def Holds {α : Type} (w : Walk) (renumber : (Nat → Nat) → α → α) (as : List α) : Prop :=
  ∀ σ, Fixes σ w.last → as.map (renumber σ) = as

variable {start : Nat} {σ : Equiv.Perm Nat} {w w' : Walk}

/-- Steps in another order lead to corresponding walks. -/
theorem Corresponds.steps {X α : Type} {t : Step X α} (h : w.Corresponds start σ w')
    {xs ys : List X} (hperm : (xs.map (t.renumberThing σ)).Perm ys)
    (hxs : w.Holds t.renumberThing xs) (hys : w'.Holds t.renumberThing ys) :
    ∃ τ : Equiv.Perm Nat,
      (t.all.run xs w).2.Corresponds start τ (t.all.run ys w').2 ∧
        (t.all.run ys w').1.Perm ((t.all.run xs w).1.map (t.renumberResult τ)) ∧
        (t.all.run xs w).2.Holds t.renumberResult (t.all.run xs w).1 ∧
        (t.all.run ys w').2.Holds t.renumberResult (t.all.run ys w').1 := by
  have hsettles : ∀ y ∈ ys, t.Settles w' y :=
    fun y hy σ hσ => List.map_inj_left.1 ((hys σ hσ).trans (List.map_id ys).symm) y hy
  have hlast : start ≤ w'.last := h.rearranged.last ▸ h.start
  obtain ⟨τ, hrearranged, hresults⟩ :=
    Step.perm_of_rearranged h.rearranged h.settled.closed h.settled' hlast hperm hsettles
  obtain ⟨hsettled, hfirst⟩ := Step.settled (t := t.all) h.settled hxs
  obtain ⟨hsettled', hsecond⟩ := Step.settled (t := t.all) h.settled' hys
  exact ⟨τ, ⟨hrearranged, hsettled, hsettled', h.start.trans (t.all.last xs w)⟩, hresults, hfirst,
    hsecond⟩

/-- Corresponding walks correspond once the results of their steps are declared, if the order in
which these are declared does not matter. -/
theorem Corresponds.within {α : Type} {declare : Scope → List α → Scope}
    {renumber : (Nat → Nat) → α → α} (h : w.Corresponds start σ w') {as as' : List α}
    (hdeclare : ∀ (τ : Nat → Nat) s as,
      (declare s as).renumber τ = declare (s.renumber τ) (as.map (renumber τ)))
    (hperm : declare w'.scope as' = declare w'.scope (as.map (renumber σ)))
    (has : w.Holds renumber as) (has' : w'.Holds renumber as') :
    (w.within (declare w.scope as)).Corresponds start σ
      (w'.within (declare w'.scope as')) := by
  refine ⟨{ h.rearranged with scope := ?_ }, { h.settled with scope := ?_ },
    { h.settled' with scope := ?_ }, h.start⟩
  · change declare w'.scope as' = (declare w.scope as).renumber σ
    rw [hdeclare, ← h.rearranged.scope]
    exact hperm
  · intro τ hτ
    change (declare w.scope as).renumber τ = _
    rw [hdeclare, h.settled.scope τ hτ, has τ hτ]
    rfl
  · intro τ hτ
    change (declare w'.scope as').renumber τ = _
    rw [hdeclare, h.settled'.scope τ hτ, has' τ hτ]
    rfl

end Walk

/-! ### Symbols whose numbers are taken -/

/-- Whether the variables of a package have numbers up to a given one. -/
def PackageSymbol.CountsTo (bound : Nat) (p : PackageSymbol) : Prop :=
  ∀ f ∈ p.functions, ∀ v ∈ f.parameters, v.id ≤ bound

section

variable {σ : Nat → Nat} {bound : Nat}

theorem FunctionSymbol.renumber_of_le (h : Fixes σ bound) {f : FunctionSymbol}
    (hf : ∀ v ∈ f.parameters, v.id ≤ bound) : f.renumber σ = f := by
  have hparameters : f.parameters.map (Variable.renumber σ) = f.parameters := by
    refine (List.map_congr_left ?_).trans (List.map_id f.parameters)
    intro v hv
    exact congrArg (fun id => { v with id }) (h v.id (hf v hv))
  exact congrArg (fun parameters => { f with parameters }) hparameters

theorem PackageSymbol.renumber_of_le (h : Fixes σ bound) {p : PackageSymbol}
    (hp : p.CountsTo bound) : p.renumber σ = p := by
  have hfunctions : p.functions.map (FunctionSymbol.renumber σ) = p.functions := by
    refine (List.map_congr_left ?_).trans (List.map_id p.functions)
    exact fun f hf => FunctionSymbol.renumber_of_le h (hp f hf)
  exact congrArg (fun functions => { p with functions }) hfunctions

theorem Region.renumber_sorted (symbols : List Symbol) :
    (Region.mk (symbols.foldr insertSorted [])).renumber σ =
      ⟨(symbols.map (Symbol.renumber σ)).foldr insertSorted []⟩ := by
  apply congrArg Region.mk
  dsimp only
  induction symbols with
  | nil => rfl
  | cons s others ih => rw [List.foldr_cons, map_insertSorted, ih, List.map_cons, List.foldr_cons]

/-- The numbers of the prelude are the first that are taken. -/
theorem renumber_prelude {last : Nat} (h : Fixes σ (last + preludeIds)) :
    (prelude last).renumber σ = prelude last := by
  have hfirst : σ (last + 1) = last + 1 := h _ (by unfold preludeIds; omega)
  have hsecond : σ (last + 2) = last + 2 := h _ le_rfl
  have hfunctions : (preludeFunctions last).map (FunctionSymbol.renumber σ) =
      preludeFunctions last := by
    simp [preludeFunctions, builtinParameter, FunctionSymbol.asBuiltin, FunctionSymbol.renumber,
      Variable.renumber, hfirst, hsecond]
  have hsymbols : ((preludeFunctions last).map Symbol.function).map (Symbol.renumber σ) =
      (preludeFunctions last).map Symbol.function := by
    conv_rhs => rw [← hfunctions]
    rw [List.map_map, List.map_map]
    rfl
  unfold prelude
  rw [Region.renumber_sorted, List.map_append, hsymbols]
  rfl

variable {known : List PackageSymbol} {members : List Member}

theorem countsTo_packageSymbol (hknown : ∀ p ∈ known, p.CountsTo bound) (span : Span)
    (name : Ident) : (packageSymbol known span name).CountsTo bound := by
  unfold packageSymbol
  cases hfind : known.reverse.find? (·.name == name.name) with
  | none => exact List.forall_mem_nil _
  | some p => exact hknown p (List.mem_reverse.1 (List.mem_of_find?_eq_some hfind))

theorem countsTo_packageSymbols (hknown : ∀ p ∈ known, p.CountsTo bound) {p : PackageSymbol}
    (hp : p ∈ packageSymbols known members) : p.CountsTo bound := by
  obtain ⟨reference, -, rfl⟩ := List.mem_map.1 hp
  exact countsTo_packageSymbol hknown reference.1 reference.2

theorem map_earlySymbols (h : Fixes σ bound) (hknown : ∀ p ∈ known, p.CountsTo bound) :
    (earlySymbols known members).map (Symbol.renumber σ) = earlySymbols known members := by
  refine (List.map_congr_left ?_).trans (List.map_id _)
  intro symbol hsymbol
  rcases List.mem_append.1 hsymbol with hsymbol | hsymbol
  · rcases List.mem_append.1 hsymbol with hsymbol | hsymbol
    · obtain ⟨p, hp, rfl⟩ := List.mem_map.1 hsymbol
      exact congrArg Symbol.package (p.renumber_of_le h (countsTo_packageSymbols hknown hp))
    · obtain ⟨f, hf, rfl⟩ := List.mem_map.1 hsymbol
      obtain ⟨use, -, hf⟩ := List.mem_flatMap.1 hf
      cases hfind : (packageSymbols known members).find? (·.name == use.name) with
      | none =>
        rw [hfind] at hf
        cases hf
      | some p =>
        rw [hfind] at hf
        have hp := countsTo_packageSymbols hknown (List.mem_of_find?_eq_some hfind)
        exact congrArg Symbol.function (f.renumber_of_le h (hp f hf))
  · obtain ⟨d, -, rfl⟩ := List.mem_map.1 hsymbol
    rfl

end

/-! ### Packages and structures -/

section

variable {known : List PackageSymbol} {members members' : List Member}

theorem packageSymbols_perm (known : List PackageSymbol) (h : members.Perm members') :
    (packageSymbols known members).Perm (packageSymbols known members') :=
  (h.filterMap _).map _

namespace Walk

/-- The packages are declared in any order. -/
theorem packagesDeclared_perm (h : members.Perm members')
    (hnames : ((packageSymbols known members).map PackageSymbol.name).Nodup) (last : Nat) :
    packagesDeclared known last members' = packagesDeclared known last members := by
  have hperm := (packageSymbols_perm known h).map Symbol.package
  have hsymbols : (((packageSymbols known members).map Symbol.package).map Symbol.name).Nodup := by
    rw [List.map_map]
    exact hnames
  have htakes := takes_beginning hsymbols last
  rw [packagesDeclared_eq htakes, packagesDeclared_eq (htakes.perm hperm)]
  unfold gather Scope.addAll
  rw [Region.addAll_perm hperm hsymbols]

end Walk

theorem usedFunctions_perm (h : members.Perm members')
    (hnames : ((packageSymbols known members).map PackageSymbol.name).Nodup) :
    ((usedFunctions known members).map Symbol.function).Perm
      ((usedFunctions known members').map .function) := by
  have hsymbols : (((packageSymbols known members).map Symbol.package).map Symbol.name).Nodup := by
    rw [List.map_map]
    exact hnames
  have htakes := Walk.takes_beginning hsymbols 0
  have htakes' := htakes.perm ((packageSymbols_perm known h).map Symbol.package)
  rw [Walk.map_usedFunctions htakes, Walk.map_usedFunctions htakes',
    Walk.packagesDeclared_perm h hnames]
  exact List.Perm.flatMap_right _ (h.filterMap _)

/-- The early symbols with different names include the packages with different names. -/
theorem packageSymbols_nodup (hnames : ((earlySymbols known members).map Symbol.name).Nodup) :
    ((packageSymbols known members).map PackageSymbol.name).Nodup := by
  have hpackages := (Walk.takes_earlySymbols hnames 0).left.left.names
  rwa [List.map_map] at hpackages

theorem earlySymbols_perm (h : members.Perm members')
    (hnames : ((earlySymbols known members).map Symbol.name).Nodup) :
    (earlySymbols known members).Perm (earlySymbols known members') := by
  have hpackages := (packageSymbols_perm known h).map Symbol.package
  have huses := usedFunctions_perm h (packageSymbols_nodup hnames)
  exact (hpackages.append huses).append ((h.filterMap _).map _)

namespace Walk

theorem settled_beginning (last : Nat) : (beginning last).Settled where
  closed := rfl
  scope _ hσ := congrArg (fun r => Scope.mk .empty [r]) (renumber_prelude hσ)
  findings _ _ := rfl

/-- A walk that finds names that stand for packages or for nothing leaves no number open. -/
theorem Settled.usePackages {w : Walk} (h : w.Settled) (s : Scope) (uses : List Ident) :
    (w.report (uses.flatMap s.usePackage)).Settled where
  closed := h.closed
  scope := h.scope
  findings σ hσ := by
    have huses : (uses.flatMap s.usePackage).map (Finding.renumber σ) =
        uses.flatMap s.usePackage := by
      rw [List.map_flatMap]
      apply List.flatMap_congr
      intro use _
      unfold Scope.usePackage
      cases s.lookupPackage? use.name <;> simp
    change (w.findings ++ _).map _ = _
    rw [List.map_append, huses, h.findings σ hσ]
    rfl

theorem settled_structsNamed {last : Nat}
    (hknown : ∀ p ∈ known, p.CountsTo (beginning last).last)
    (hnames : ((earlySymbols known members).map Symbol.name).Nodup) :
    (structsNamed known last members).2.Settled := by
  rw [structsNamed_eq hnames]
  have hused := (settled_beginning last).usePackages
    (packagesDeclared known last members).scope (packageUses members)
  refine ⟨hused.closed, ?_, hused.findings⟩
  intro σ hσ
  change ((beginning last).scope.addAll (earlySymbols known members)).renumber σ = _
  rw [Scope.addAll_renumber, map_earlySymbols hσ hknown, (settled_beginning last).scope σ hσ]
  rfl

/-- Packages, what is used of them and structures are declared in any order. -/
theorem corresponds_structsNamed {last : Nat} (h : members.Perm members')
    (hknown : ∀ p ∈ known, p.CountsTo (beginning last).last)
    (hnames : ((earlySymbols known members).map Symbol.name).Nodup) :
    (structsNamed known last members).2.Corresponds (beginning last).last (.refl Nat)
      (structsNamed known last members').2 := by
  have hearly := earlySymbols_perm h hnames
  have hnames' := (hearly.map Symbol.name).nodup_iff.1 hnames
  have hsettled := settled_structsNamed hknown hnames
  refine ⟨?_, hsettled, settled_structsNamed hknown hnames', ?_⟩
  · have hself := hsettled.rearranged (beginning last).last
    have hpackages := packagesDeclared_perm h (packageSymbols_nodup hnames) last
    rw [structsNamed_eq hnames] at hself
    rw [structsNamed_eq hnames, structsNamed_eq hnames', hpackages]
    refine { hself with scope := ?_, findings := ?_ }
    · have hscope : (beginning last).scope.addAll (earlySymbols known members') =
          (beginning last).scope.addAll (earlySymbols known members) := by
        unfold Scope.addAll
        rw [Region.addAll_perm hearly hnames]
      exact hscope.trans hself.scope
    · have huses : (packageUses members').Perm (packageUses members) := (h.filterMap _).symm
      exact ((huses.flatMap_right _).append_left _).trans hself.findings
  · rw [structsNamed_eq hnames]
    exact le_rfl

end Walk

end

end TodLang
