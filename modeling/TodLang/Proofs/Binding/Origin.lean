import Mathlib.Data.List.Basic
import TodLang.Proofs.Binding.Gathering
/-!
Where the symbols come from that can be seen in a program. What all symbols have that are declared,
as long as everything has it that can be seen where they are, is what everything has that can be
seen in the bodies (`Walk.orderly_of_admits`, `Walk.among_of_admits`). So every package is one that
the program refers to, and every function in the program's own region is declared there or is one of
a package that is known (`Walk.orderly_declaring`). In the bodies only variables are added to these
(`Walk.among_bodySites`).
-/

namespace TodLang

/-- In a list that is in the order of names, each entry is found under its own. -/
theorem find?_of_sorted {α : Type} {name : α → String} {l : List α}
    (h : l.Pairwise (name · < name ·)) {a : α} (ha : a ∈ l) :
    l.find? (name · == name a) = some a := by
  induction l with
  | nil => cases ha
  | cons b others ih =>
    obtain ⟨hfirst, hothers⟩ := List.pairwise_cons.1 h
    rcases List.mem_cons.1 ha with rfl | ha
    · exact List.find?_cons_of_pos (beq_self_eq_true _)
    · have hne : name b ≠ name a := String.ne_of_lt (hfirst a ha)
      rw [List.find?_cons_of_neg (by simpa using hne)]
      exact ih hothers ha

namespace Region

theorem pairwise_insertSorted {s : Symbol} {l : List Symbol}
    (hl : l.Pairwise (·.name < ·.name)) (hfresh : ∀ t ∈ l, t.name ≠ s.name) :
    (insertSorted s l).Pairwise (·.name < ·.name) := by
  induction l with
  | nil => exact List.pairwise_singleton _ _
  | cons t others ih =>
    rw [List.pairwise_cons] at hl
    rw [List.forall_mem_cons] at hfresh
    unfold insertSorted
    split
    · next hlt =>
      rw [List.pairwise_cons, List.pairwise_cons]
      refine ⟨?_, hl⟩
      intro u hu
      rcases List.mem_cons.1 hu with rfl | hu
      · exact hlt
      · exact String.lt_trans hlt (hl.1 u hu)
    · next hle =>
      have hts : t.name < s.name := by
        apply String.not_le.1
        intro hst
        exact hfresh.1 (String.le_antisymm (String.not_lt.1 hle) hst)
      rw [List.pairwise_cons]
      refine ⟨?_, ih hl.2 hfresh.2⟩
      intro u hu
      rcases mem_insertSorted.1 hu with rfl | hu
      · exact hts
      · exact hl.1 u hu

theorem Valid.declare? {r declaring : Region} {s : Symbol} (h : r.Valid)
    (hdeclare : r.declare? s = some declaring) : declaring.Valid := by
  have hfresh := declares_of_declare? hdeclare
  unfold Region.declare? at hdeclare
  rw [hfresh] at hdeclare
  obtain rfl := Option.some.inj hdeclare
  apply pairwise_insertSorted h
  intro t ht hname
  have hnone : r.lookup? s.name = none := by simpa [declares] using hfresh
  exact List.find?_eq_none.1 hnone t ht (beq_iff_eq.2 hname)

theorem Valid.setFields {r : Region} (h : r.Valid) (name : String) (fields : List Variable) :
    (r.setFields name fields).Valid := by
  apply List.pairwise_map.2
  apply h.imp
  intro s t hlt
  cases s <;> cases t <;> dsimp only <;> (try split) <;> (try split) <;> exact hlt

/-- Where the symbols have different names, each is found under its own. -/
theorem Valid.lookup?_of_mem {r : Region} (h : r.Valid) {s : Symbol} (hs : s ∈ r.symbols) :
    r.lookup? s.name = some s :=
  find?_of_sorted h hs

end Region

/-- Where a symbol of a program may come from, given the packages that are known and the symbols of
the functions with a body. What no source declares is part of every program. -/
def Symbol.Comes (known : List PackageSymbol) (members : List Member)
    (signed : List FunctionSymbol) : Symbol → Prop
  | .package p => p ∈ packageSymbols known members
  | .function f =>
    f.declaration = none ∨ f.isExternal = true ∨ f ∈ signed ∨ ∃ p ∈ known, f ∈ p.functions
  | _ => True

open TodLang.Symbol (Comes)

namespace Scope

variable {A : Symbol → Prop} {s s' : Scope} {symbol : Symbol}

/-- Whether all symbols that can be seen in a scope have a property. -/
def Among (A : Symbol → Prop) (s : Scope) : Prop :=
  ∀ r ∈ s.regions, ∀ symbol ∈ r.symbols, A symbol

theorem Among.declare? (h : s.Among A) (hsymbol : A symbol)
    (hdeclare : s.declare? symbol = some s') : s'.Among A := by
  obtain ⟨inner, hinner, rfl⟩ := Option.map_eq_some_iff.1 hdeclare
  intro r hr t ht
  rcases List.mem_cons.1 hr with rfl | hr
  · rcases Region.mem_of_declare? hinner ht with rfl | ht
    · exact hsymbol
    · exact h s.inner List.mem_cons_self t ht
  · exact h r (List.mem_cons_of_mem _ hr) t ht

theorem Among.of_subset (h : s.Among A) (hregions : s'.regions ⊆ s.regions) : s'.Among A :=
  fun r hr => h r (hregions hr)

theorem Among.enter (h : s.Among A) : s.enter.Among A := by
  intro r hr
  rcases List.mem_cons.1 hr with rfl | hr
  · exact List.forall_mem_nil A
  · exact h r hr

theorem programIn_regions (inner : Region) (outer : List Region) :
    (programIn inner outer).regions ⊆ inner :: outer := by
  induction outer generalizing inner with
  | nil => exact List.Subset.refl _
  | cons next others ih =>
    cases others with
    | nil => exact List.Subset.refl _
    | cons root rest => exact List.subset_cons_of_subset inner (ih next)

theorem Among.program (h : s.Among A) : s.program.Among A :=
  h.of_subset (programIn_regions s.inner s.outer)

/-- A symbol that a name stands for is one of those that can be seen. -/
theorem Among.lookup? (h : s.Among A) {name : String} (hlookup : s.lookup? name = some symbol) :
    A symbol := by
  obtain ⟨r, hr, hfound⟩ := List.exists_of_findSome?_eq_some hlookup
  exact h r hr symbol (List.mem_of_find?_eq_some hfound)

theorem name_of_lookup? {name : String} (hlookup : s.lookup? name = some symbol) :
    symbol.name = name := by
  obtain ⟨r, -, hfound⟩ := List.exists_of_findSome?_eq_some hlookup
  simpa using List.find?_some hfound

/-- A package that a name stands for can be seen, and has that name. -/
theorem Among.lookupPackage? (h : s.Among A) {name : String} {p : PackageSymbol}
    (hp : s.lookupPackage? name = some p) : A (.package p) ∧ p.name = name := by
  obtain ⟨symbol, hsymbol, hpackage⟩ := Option.bind_eq_some_iff.1 hp
  cases symbol with
  | package q =>
    obtain rfl := Option.some.inj hpackage
    exact ⟨h.lookup? hsymbol, name_of_lookup? hsymbol⟩
  | _ => cases hpackage

/-- Whether all symbols that can be seen have a property, and those of the innermost region are in
the order of their names. -/
structure Orderly (A : Symbol → Prop) (s : Scope) : Prop where
  valid : s.inner.Valid
  among : s.Among A

theorem Orderly.declare? (h : s.Orderly A) (hsymbol : A symbol)
    (hdeclare : s.declare? symbol = some s') : s'.Orderly A := by
  obtain ⟨inner, hinner, rfl⟩ := Option.map_eq_some_iff.1 hdeclare
  exact ⟨h.valid.declare? hinner, h.among.declare? hsymbol hdeclare⟩

end Scope

/-- What a package of a program lists is what a known package of its name lists. -/
theorem mem_known_of_packageSymbols {known : List PackageSymbol} {members : List Member}
    {p : PackageSymbol} {f : FunctionSymbol} (hp : p ∈ packageSymbols known members)
    (hf : f ∈ p.functions) : ∃ q ∈ known, f ∈ q.functions := by
  obtain ⟨⟨span, name⟩, -, rfl⟩ := List.mem_map.1 hp
  unfold packageSymbol at hf
  cases hfind : known.reverse.find? (·.name == name.name) with
  | none =>
    rw [hfind] at hf
    cases hf
  | some q =>
    rw [hfind] at hf
    exact ⟨q, List.mem_reverse.1 (List.mem_of_find?_eq_some hfind), hf⟩

/-- Whether a property is one of all symbols that are declared with the members of a program, given
the packages that are known and the symbols of the functions with a body. -/
structure Symbol.AdmitsDeclared (known : List PackageSymbol) (members : List Member)
    (signed : List FunctionSymbol) (A : Symbol → Prop) : Prop where
  /-- What is around every program. -/
  builtin : ∀ last, ∀ symbol ∈ (prelude last).symbols, A symbol
  package : ∀ p ∈ packageSymbols known members, A (.package p)
  /-- The functions of a package that is used. -/
  imported : ∀ p, A (.package p) → ∀ f ∈ p.functions, A (.function f)
  struct : ∀ s, A (.struct s)
  signed : ∀ f ∈ signed, A (.function f)
  external : ∀ f : FunctionSymbol, f.isExternal = true → A (.function f)
  globalVariable : ∀ v, A (.globalVariable v)

/-- The function that a walk makes of a declaration with a body. -/
def Walk.functionSymbol (w : Walk) (d : FunctionDeclaration) : FunctionSymbol :=
  { (w.signature d.name d.parameters d.returnType (Member.function d).span).1 with
    isPublic := d.visibility.isSome }

/-- The function that a walk makes of a declaration without a body. -/
def Walk.externalSymbol (w : Walk) (d : ExternalDeclaration) : FunctionSymbol :=
  (w.signature d.name d.parameters d.returnType (Member.external d).span).1.asExternal

/-- Whether a property is one of all symbols that are declared with the members of a program as long
as all symbols have it that can be seen there. The sites are those of the program. -/
structure Symbol.Admits (known : List PackageSymbol) (last : Nat) (members : List Member)
    (signed : List FunctionSymbol) (A : Symbol → Prop) : Prop where
  /-- What is around every program. -/
  builtin : ∀ last, ∀ symbol ∈ (prelude last).symbols, A symbol
  package : ∀ p ∈ packageSymbols known members, A (.package p)
  /-- The functions of a package that is used. -/
  imported : ∀ p, A (.package p) → ∀ f ∈ p.functions, A (.function f)
  struct : ∀ d ∈ structDeclarations members, A (Walk.structSymbol d)
  fields : ∀ (w : Walk) (d : StructDeclaration), w.scope.Among A →
    w.sitesOf (parameterReferences d.fields) ⊆ programSites known last members →
      ∀ s, A (.struct s) → A (.struct { s with fields := (w.fields [] d.fields).1 })
  function : ∀ (w : Walk) (d : FunctionDeclaration), w.scope.Among A →
    w.sitesOf (Member.function d).signatureReferences ⊆ programSites known last members →
      w.functionSymbol d ∈ signed → A (.function (w.functionSymbol d))
  external : ∀ (w : Walk) (d : ExternalDeclaration), w.scope.Among A →
    w.sitesOf (Member.external d).signatureReferences ⊆ programSites known last members →
      A (.function (w.externalSymbol d))
  globalVariable : ∀ (w : Walk) (d : VariableDeclaration), w.scope.Among A →
    w.typeFunctions = typeFunctions last →
      w.sitesOf d.typeReferences ⊆ programSites known last members →
        A (.globalVariable (w.declaredVariable d))

theorem Symbol.AdmitsDeclared.admits {known : List PackageSymbol} {members : List Member}
    {signed : List FunctionSymbol} {A : Symbol → Prop}
    (h : AdmitsDeclared known members signed A) (last : Nat) :
    Admits known last members signed A where
  builtin := h.builtin
  package := h.package
  imported := h.imported
  struct _ _ := h.struct _
  fields _ _ _ _ _ _ := h.struct _
  function _ _ _ _ := h.signed _
  external _ _ _ _ := h.external _ rfl
  globalVariable _ _ _ _ _ := h.globalVariable _

namespace Walk

variable {known : List PackageSymbol} {last : Nat} {members : List Member}
  {signed : List FunctionSymbol} {A : Symbol → Prop}

/-! ### Declaring the members -/

theorem orderly_declare {w : Walk} (h : w.scope.Orderly A) {symbol : Symbol} (hsymbol : A symbol)
    (span : Span) : (w.declare symbol span).scope.Orderly A := by
  unfold declare
  cases hdeclare : w.scope.declare? symbol with
  | none => exact h
  | some scope => exact h.declare? hsymbol hdeclare

/-- Symbols are declared one after another. -/
theorem orderly_foldl_declare {α : Type} {symbol : α → Symbol} (span : α → Span) {l : List α}
    (hl : ∀ a ∈ l, A (symbol a)) {w : Walk} (h : w.scope.Orderly A) :
    (l.foldl (fun w a => w.declare (symbol a) (span a)) w).scope.Orderly A := by
  induction l generalizing w with
  | nil => exact h
  | cons a others ih =>
    rw [List.forall_mem_cons] at hl
    exact ih hl.2 (orderly_declare h hl.1 (span a))

theorem orderly_foldl {α : Type} {step : Walk → α → Walk}
    (hstep : ∀ w x, w.scope.Orderly A → (step w x).scope.Orderly A) {w : Walk}
    (h : w.scope.Orderly A) (l : List α) : (l.foldl step w).scope.Orderly A := by
  induction l generalizing w with
  | nil => exact h
  | cons x others ih => exact ih (hstep w x h)

/-! The sites of the stages are among those of the program. -/

theorem fieldSites_subset (known : List PackageSymbol) (last : Nat) (members : List Member) :
    follow structFields (fun w d => w.sitesOf (parameterReferences d.fields))
      (structsNamed known last members).2 (structsNamed known last members).1 ⊆
        programSites known last members := by
  apply List.subset_append_of_subset_left
  apply List.subset_append_of_subset_left
  exact List.subset_append_of_subset_left _ (List.subset_append_right _ _)

theorem signatureSites_subset (known : List PackageSymbol) (last : Nat) (members : List Member) :
    follow (fun w member => (w.signatures [member]).2)
      (fun w member => w.sitesOf member.signatureReferences) (structsDeclared known last members)
      members ⊆ programSites known last members := by
  apply List.subset_append_of_subset_left
  exact List.subset_append_of_subset_left _ (List.subset_append_right _ _)

theorem globalSites_subset (known : List PackageSymbol) (last : Nat) (members : List Member) :
    follow (declareVariable · .globalVariable ·) (fun w d => w.sitesOf d.typeReferences)
      (functionsDeclared known last members) (globalVariables members) ⊆
        programSites known last members :=
  List.subset_append_of_subset_left _ (List.subset_append_right _ _)

theorem functionsDeclared_typeFunctions (known : List PackageSymbol) (last : Nat)
    (members : List Member) :
    (functionsDeclared known last members).typeFunctions = TodLang.typeFunctions last := by
  have hglobals : Adds (fun _ => True) _ _ _ :=
    adds_foldl (fun w d => adds_declareVariable w .globalVariable d)
      (functionsDeclared known last members) (globalVariables members)
  have hall : Adds (fun _ => True) _ _ _ := adds_declaring known last members
  exact hglobals.functions.symm.trans hall.functions

/-- What every step keeps at sites of a program is kept by all steps together. -/
theorem of_follow {α : Type} {step : Walk → α → Walk} {sites : Walk → α → List Site}
    {all : List Site} {I : Walk → Prop} (hstep : ∀ w x, I w → sites w x ⊆ all → I (step w x))
    {w : Walk} (h : I w) {l : List α} (hsites : follow step sites w l ⊆ all) :
    I (l.foldl step w) := by
  induction l generalizing w with
  | nil => exact h
  | cons x others ih =>
    obtain ⟨hfirst, hothers⟩ := List.append_subset.1 hsites
    exact ih (hstep w x h hfirst) hothers

section

variable (hA : Symbol.Admits known last members signed A)

include hA

/-- The functions of a package that is used are declared with the members. -/
theorem orderly_packageUse (w : Walk) (name : Ident) (h : w.scope.Orderly A) :
    (w.packageUse name).scope.Orderly A := by
  unfold packageUse
  cases hpackage : w.scope.lookupPackage? name.name with
  | none => exact h
  | some package =>
    have hreported : (w.report [.resolved name package.fingerprint]).scope.Orderly A := h
    apply orderly_foldl_declare (fun _ => name.span) _ hreported
    exact hA.imported package (h.among.lookupPackage? hpackage).1

theorem orderly_structNames (w : Walk) (ds : List StructDeclaration)
    (hds : ds ⊆ structDeclarations members) (h : w.scope.Orderly A) :
    (w.structNames ds).2.scope.Orderly A := by
  induction ds generalizing w with
  | nil => exact h
  | cons d others ih =>
    obtain ⟨hd, hothers⟩ := List.cons_subset.1 hds
    have hsymbol : A (structSymbol d) := hA.struct d hd
    exact ih (w.structName d).2 hothers (orderly_declare h hsymbol d.name.span)

theorem orderly_structFields (w : Walk) (d : StructDeclaration) (h : w.scope.Orderly A)
    (hsites : w.sitesOf (parameterReferences d.fields) ⊆ programSites known last members) :
    (w.structFields d).scope.Orderly A := by
  have hscope := w.fields_scope [] d.fields
  unfold structFields
  dsimp only
  rw [hscope]
  refine ⟨h.valid.setFields d.name.name _, ?_⟩
  intro r hr symbol hsymbol
  rcases List.mem_cons.1 hr with rfl | hr
  · obtain ⟨old, hold, rfl⟩ := List.mem_map.1 hsymbol
    have hseen := h.among w.scope.inner List.mem_cons_self old hold
    cases old with
    | struct s =>
      dsimp only
      split
      · exact hA.fields w d h.among hsites s hseen
      · exact hseen
    | _ => exact hseen
  · exact h.among r (List.mem_cons_of_mem _ hr) symbol hsymbol

/-- The functions have the property, also those of a name that is declared already. -/
theorem orderly_signatures (w : Walk) (ms : List Member) (hsigned : (w.signatures ms).1 ⊆ signed)
    (hsites : follow (fun w member => (w.signatures [member]).2)
      (fun w member => w.sitesOf member.signatureReferences) w ms ⊆ programSites known last members)
    (h : w.scope.Orderly A) :
    (w.signatures ms).2.scope.Orderly A ∧ ∀ f ∈ (w.signatures ms).1, A (.function f) := by
  induction ms generalizing w with
  | nil => exact ⟨h, List.forall_mem_nil _⟩
  | cons member others ih =>
    obtain ⟨hfirst, hothers⟩ := List.append_subset.1 hsites
    cases member with
    | function f =>
      have hread : (w.signature f.name f.parameters f.returnType
          (Member.function f).span).2.scope.Orderly A := by
        rw [signature_scope]
        exact h
      obtain ⟨hmem, hrest⟩ := List.cons_subset.1 hsigned
      have hsymbol : A (.function (w.functionSymbol f)) := hA.function w f h.among hfirst hmem
      obtain ⟨hscope, hall⟩ := ih _ hrest hothers (orderly_declare hread hsymbol f.name.span)
      exact ⟨hscope, List.forall_mem_cons.2 ⟨hsymbol, hall⟩⟩
    | external e =>
      have hread : (w.signature e.name e.parameters e.returnType
          (Member.external e).span).2.scope.Orderly A := by
        rw [signature_scope]
        exact h
      have hsymbol : A (.function (w.externalSymbol e)) := hA.external w e h.among hfirst
      exact ih _ hsigned hothers (orderly_declare hread hsymbol e.name.span)
    | _ => exact ih w hsigned hothers h

theorem orderly_declareGlobal (w : Walk) (d : VariableDeclaration) (h : w.scope.Orderly A)
    (hfunctions : w.typeFunctions = TodLang.typeFunctions last)
    (hsites : w.sitesOf d.typeReferences ⊆ programSites known last members) :
    (w.declareVariable .globalVariable d).scope.Orderly A := by
  have hscope : (w.declaredType d).2.countVariable.scope = w.scope := w.declaredType_scope d
  have htyped : (w.declaredType d).2.countVariable.scope.Orderly A := by
    rw [hscope]
    exact h
  have hsymbol : A (.globalVariable (w.declaredVariable d)) :=
    hA.globalVariable w d h.among hfunctions hsites
  exact orderly_declare htyped hsymbol d.name.span

theorem orderly_beginning : (beginning last).scope.Orderly A := by
  refine ⟨Region.valid_empty, ?_⟩
  intro r hr symbol hsymbol
  rcases List.mem_cons.1 hr with rfl | hr
  · cases hsymbol
  · obtain rfl := List.mem_singleton.1 hr
    exact hA.builtin _ symbol hsymbol

theorem orderly_packagesDeclared : (packagesDeclared known last members).scope.Orderly A := by
  apply orderly_foldl_declare (fun reference : Span × Ident => reference.2.span) _
    (orderly_beginning hA)
  intro reference hreference
  exact hA.package _ (List.mem_map.2 ⟨reference, hreference, rfl⟩)

theorem orderly_structsNamed : (structsNamed known last members).2.scope.Orderly A := by
  have huses : (usesDeclared known last members).scope.Orderly A :=
    orderly_foldl (orderly_packageUse hA) (orderly_packagesDeclared hA) _
  exact orderly_structNames hA _ _ (List.Subset.refl _) huses

theorem orderly_structsDeclared : (structsDeclared known last members).scope.Orderly A :=
  of_follow (orderly_structFields hA) (orderly_structsNamed hA)
    (fieldSites_subset known last members)

end

/-- Once all members are declared, every symbol has what all symbols have that they declare, and so
have all functions with a body. -/
theorem orderly_of_admits
    (hA : Symbol.Admits known last members
      ((structsDeclared known last members).signatures members).1 A) :
    (declaring known last members).scope.Orderly A ∧
      ∀ f ∈ ((structsDeclared known last members).signatures members).1, A (.function f) := by
  obtain ⟨hfunctions, hsigned⟩ := orderly_signatures hA _ members (List.Subset.refl _)
    (signatureSites_subset known last members) (orderly_structsDeclared hA)
  let Ready (w : Walk) : Prop :=
    w.scope.Orderly A ∧ w.typeFunctions = TodLang.typeFunctions last
  have hready : Ready (functionsDeclared known last members) :=
    ⟨hfunctions, functionsDeclared_typeFunctions known last members⟩
  have hstep (w : Walk) (d : VariableDeclaration) (h : Ready w)
      (hsites : w.sitesOf d.typeReferences ⊆ programSites known last members) :
      Ready (w.declareVariable .globalVariable d) :=
    ⟨orderly_declareGlobal hA w d h.1 h.2 hsites,
      (adds_declareVariable (P := fun _ => True) w .globalVariable d).functions.trans h.2⟩
  have hglobals := of_follow hstep hready (globalSites_subset known last members)
  exact ⟨hglobals.1, hsigned⟩

theorem orderly_of_admitsDeclared
    (hA : Symbol.AdmitsDeclared known members
      ((structsDeclared known last members).signatures members).1 A) :
    (declaring known last members).scope.Orderly A :=
  (orderly_of_admits (hA.admits last)).1

theorem admitsDeclared_comes :
    Symbol.AdmitsDeclared known members signed (Comes known members signed) where
  builtin last symbol hsymbol := by
    rcases mem_prelude hsymbol with ⟨name, -, rfl⟩ | ⟨f, hf, rfl⟩
    · trivial
    · apply Or.inl
      simp only [preludeFunctions, List.map_cons, List.map_nil, List.mem_cons, List.not_mem_nil,
        or_false] at hf
      rcases hf with rfl | rfl | rfl <;> rfl
  package _ hp := hp
  imported _ hp _ hf := .inr (.inr (.inr (mem_known_of_packageSymbols hp hf)))
  struct _ := trivial
  signed _ hf := .inr (.inr (.inl hf))
  external _ hf := .inr (.inl hf)
  globalVariable _ := trivial

/-- Once all members are declared, every symbol comes from the program or from a known package. -/
theorem orderly_declaring (known : List PackageSymbol) (last : Nat) (members : List Member) :
    (declaring known last members).scope.Orderly (Comes known members
      ((structsDeclared known last members).signatures members).1) :=
  orderly_of_admitsDeclared admitsDeclared_comes

/-! ### Binding the bodies -/

/-- Whether a walk leads to another one past given sites, and what can be seen on the way has a
property if what can be seen at its beginning has it. -/
structure Remains (A : Symbol → Prop) (w w' : Walk) (sites : List Site) : Prop where
  scope : w.scope.Among A → w'.scope.Among A
  sites : w.scope.Among A → ∀ site ∈ sites, site.scope.Among A

section

theorem remains_of_eq {w w' : Walk} (hscope : w'.scope = w.scope) (references : List Reference) :
    Remains A w w' (w.sitesOf references) := by
  constructor
  · intro h
    rwa [hscope]
  · intro h site hsite
    obtain ⟨r, -, rfl⟩ := List.mem_map.1 hsite
    exact h

/-- Only the scope of a walk counts. -/
theorem Remains.congr {w₁ w₂ w₃ w₄ : Walk} {sites : List Site} (h : Remains A w₁ w₂ sites)
    (hbefore : w₃.scope = w₁.scope) (hafter : w₄.scope = w₂.scope) : Remains A w₃ w₄ sites := by
  constructor
  · rw [hbefore, hafter]
    exact h.scope
  · rw [hbefore]
    exact h.sites

theorem Remains.trans {w₁ w₂ w₃ : Walk} {front back : List Site} (h : Remains A w₁ w₂ front)
    (h' : Remains A w₂ w₃ back) : Remains A w₁ w₃ (front ++ back) := by
  constructor
  · exact h'.scope ∘ h.scope
  · intro hw site hsite
    rcases List.mem_append.1 hsite with hsite | hsite
    · exact h.sites hw site hsite
    · exact h'.sites (h.scope hw) site hsite

theorem remains_leave (w : Walk) : Remains A w w.leave [] := by
  refine ⟨?_, fun _ => List.forall_mem_nil _⟩
  intro h
  apply h.of_subset
  unfold leave
  cases houter : w.scope.outer with
  | nil => exact List.Subset.refl _
  | cons next others =>
    rw [Scope.regions, Scope.regions, houter]
    exact List.subset_cons_self _ _

theorem Remains.inside {w w' : Walk} {sites : List Site} (h : Remains A w.enter w' sites) :
    Remains A w w'.leave sites := by
  have henter : Remains A w w.enter [] := ⟨Scope.Among.enter, fun _ => List.forall_mem_nil _⟩
  have hall := (henter.trans h).trans (remains_leave w')
  rwa [List.append_nil] at hall

theorem remains_declare (w : Walk) {symbol : Symbol} (hsymbol : w.scope.Among A → A symbol)
    (span : Span) : Remains A w (w.declare symbol span) [] := by
  refine ⟨?_, fun _ => List.forall_mem_nil _⟩
  intro h
  unfold declare
  cases hdeclare : w.scope.declare? symbol with
  | none => exact h
  | some scope => exact h.declare? (hsymbol h) hdeclare

theorem remains_expression (w : Walk) (e : Expression) :
    Remains A w (w.expression e) (w.sitesOf e.references) := by
  apply remains_of_eq
  rfl

theorem remains_optionalExpression (w : Walk) (value : Option Expression) :
    Remains A w (w.optionalExpression value)
      (w.sitesOf (value.elim [] Expression.references)) :=
  remains_of_eq (w.optionalExpression_scope value) _

theorem statement_typeFunctions (w : Walk) (s : Statement) :
    (w.statement s).typeFunctions = w.typeFunctions :=
  (adds_statement (P := fun _ => True) w s fun _ _ => trivial).functions

theorem leave_typeFunctions (w : Walk) : w.leave.typeFunctions = w.typeFunctions :=
  (adds_leave (P := fun _ => True) w).functions

/-- Whether local variables have a property as long as everything has it that can be seen where they
are declared, at given sites. -/
def AdmitsLocals (functions : List TypeFunction) (all : List Site) (A : Symbol → Prop) : Prop :=
  ∀ (w : Walk) (d : VariableDeclaration), w.scope.Among A → w.typeFunctions = functions →
    w.sitesOf d.typeReferences ⊆ all → A (.localVariable (w.declaredVariable d))

variable {functions : List TypeFunction} {all : List Site}

theorem remains_localVariable (hlocal : AdmitsLocals functions all A) (w : Walk)
    (hw : w.typeFunctions = functions) (d : VariableDeclaration)
    (hsites : w.sitesOf (d.valueReferences ++ d.typeReferences) ⊆ all) :
    Remains A w (w.localVariable d) (w.sitesOf (d.valueReferences ++ d.typeReferences)) := by
  let bound := w.optionalExpression d.value
  let typed := (bound.declaredType d).2.countVariable
  have hbound : bound.scope = w.scope := w.optionalExpression_scope d.value
  have hscope : typed.scope = w.scope := (bound.declaredType_scope d).trans hbound
  have htyped : Remains A w typed (w.sitesOf (d.valueReferences ++ d.typeReferences)) :=
    remains_of_eq hscope _
  have hfunctions : bound.typeFunctions = functions :=
    (adds_optionalExpression (P := fun _ => True) w fun _ _ => trivial).functions.trans hw
  have htypes : bound.sitesOf d.typeReferences ⊆ all := by
    rw [sitesOf_append] at hsites
    rw [sitesOf, hbound]
    exact (List.append_subset.1 hsites).2
  have hsymbol (h : typed.scope.Among A) : A (.localVariable (bound.declaredVariable d)) := by
    rw [hscope, ← hbound] at h
    exact hlocal bound d h hfunctions htypes
  have hall := htyped.trans (remains_declare typed hsymbol d.name.span)
  rwa [List.append_nil] at hall

mutual

theorem remains_statement (hlocal : AdmitsLocals functions all A) (w : Walk)
    (hw : w.typeFunctions = functions) (s : Statement) (hsites : w.sites s ⊆ all) :
    Remains A w (w.statement s) (w.sites s) := by
  cases s with
  | block opening statements closing =>
    exact (remains_statements hlocal w.enter hw statements hsites).inside
  | declaration d => exact remains_localVariable hlocal w hw d hsites
  | ifThen keyword condition body | «while» keyword condition body =>
    have hbody := remains_statement hlocal (w.expression condition).enter hw body
      (List.append_subset.1 hsites).2
    exact (w.remains_expression condition).trans hbody.inside
  | ifElse keyword condition body elseKeyword alternative =>
    obtain ⟨hfront, halternative⟩ := List.append_subset.1 hsites
    let inside := (w.expression condition).enter.statement body
    have hinside : inside.leave.typeFunctions = functions :=
      inside.leave_typeFunctions.trans ((statement_typeFunctions _ body).trans hw)
    have hbody := remains_statement hlocal (w.expression condition).enter hw body
      (List.append_subset.1 hfront).2
    have hother := remains_statement hlocal inside.leave.enter hinside alternative halternative
    exact ((w.remains_expression condition).trans hbody.inside).trans hother.inside
  | «return» keyword value => exact w.remains_optionalExpression value
  | «for» keyword init condition step body =>
    obtain ⟨hfront, hbody⟩ := List.append_subset.1 hsites
    obtain ⟨hhead, hstep⟩ := List.append_subset.1 hfront
    let head := w.enter.localVariable init
    have hready : (head.expression condition).typeFunctions = functions :=
      (statement_typeFunctions w.enter (.declaration init)).trans hw
    have hstepped : ((head.expression condition).statement step).typeFunctions = functions :=
      (statement_typeFunctions _ step).trans hready
    have hinit := remains_localVariable hlocal w.enter hw init (List.append_subset.1 hhead).1
    have hstep := remains_statement hlocal (head.expression condition) hready step hstep
    have hbody := remains_statement hlocal ((head.expression condition).statement step).enter
      hstepped body hbody
    have hall := (hinit.trans (head.remains_expression condition)).trans hstep
    exact (hall.trans hbody.inside).inside
  | «break» keyword => exact remains_of_eq rfl []
  | «continue» keyword => exact remains_of_eq rfl []
  | expression e => exact w.remains_expression e

theorem remains_statements (hlocal : AdmitsLocals functions all A) (w : Walk)
    (hw : w.typeFunctions = functions) (statements : List Statement)
    (hsites : w.sitesAll statements ⊆ all) :
    Remains A w (w.statements statements) (w.sitesAll statements) := by
  cases statements with
  | nil => exact remains_of_eq rfl []
  | cons s others =>
    obtain ⟨hfirst, hothers⟩ := List.append_subset.1 hsites
    have hfirst := remains_statement hlocal w hw s hfirst
    have hothers := remains_statements hlocal (w.statement s)
      ((statement_typeFunctions w s).trans hw) others hothers
    exact hfirst.trans hothers

end

variable (hlocal : AdmitsLocals functions all A)

include hlocal

theorem remains_globalStatement (w : Walk) (hw : w.typeFunctions = functions) (s : Statement)
    (hsites : w.enter.sites s ⊆ all) : Remains A w (w.globalStatement s) (w.enter.sites s) :=
  (remains_statement hlocal w.enter hw s hsites).inside.congr rfl rfl

theorem remains_functionBody (w : Walk) (hw : w.typeFunctions = functions)
    (symbol : FunctionSymbol) (hparameters : ∀ v ∈ symbol.parameters, A (.parameter v))
    (body : Block)
    (hsites : ({ w with closed := [] }.enter.declareParameters body.opening
      symbol.parameters).sitesAll body.statements ⊆ all) :
    Remains A w (w.functionBody symbol body).2
      (({ w with closed := [] }.enter.declareParameters body.opening symbol.parameters).sitesAll
        body.statements) := by
  let cleared : Walk := { w with closed := [] }
  let start := cleared.enter.declareParameters body.opening symbol.parameters
  have hdeclare (ps : List Variable) (hps : ∀ v ∈ ps, A (.parameter v)) (w : Walk) :
      Remains A w (w.declareParameters body.opening ps) [] := by
    induction ps generalizing w with
    | nil => exact remains_of_eq rfl []
    | cons p others ih =>
      obtain ⟨hp, hothers⟩ := List.forall_mem_cons.1 hps
      exact (remains_declare w (fun _ => hp) _).trans (ih hothers _)
  have hstart : start.typeFunctions = functions :=
    (adds_foldl_nil (P := fun _ => True) (fun w p => adds_declare w (.parameter p) _) cleared.enter
      symbol.parameters).functions.trans hw
  have hbody := (hdeclare symbol.parameters hparameters cleared.enter).trans
    (remains_statements hlocal start hstart body.statements hsites)
  exact hbody.inside.congr rfl rfl

theorem remains_members (w : Walk) (hw : w.typeFunctions = functions) (members : List Member)
    (symbols : List FunctionSymbol)
    (hparameters : ∀ f ∈ symbols, ∀ v ∈ f.parameters, A (.parameter v))
    (hsites : w.bodySites members symbols ⊆ all) :
    Remains A w (w.bindMembers members symbols).2 (w.bodySites members symbols) := by
  induction members generalizing w symbols with
  | nil => exact remains_of_eq rfl []
  | cons member others ih =>
    cases member with
    | function f =>
      cases symbols with
      | nil => exact ih w hw [] hparameters hsites
      | cons symbol symbols =>
        obtain ⟨hfirst, hothers⟩ := List.append_subset.1 hsites
        obtain ⟨hsymbol, hsymbols⟩ := List.forall_mem_cons.1 hparameters
        have hadds : Adds (fun _ => True) w (w.functionBody symbol f.body).2 _ :=
          w.adds_functionBody symbol fun _ _ => trivial
        exact (remains_functionBody hlocal w hw symbol hsymbol f.body hfirst).trans
          (ih _ (hadds.functions.trans hw) symbols hsymbols hothers)
    | statement s =>
      have hstatement (hsites : w.enter.sites s ++ (w.globalStatement s).bodySites others symbols ⊆
          all) := by
        obtain ⟨hfirst, hothers⟩ := List.append_subset.1 hsites
        have hadds : Adds (fun _ => True) w (w.globalStatement s) _ :=
          w.adds_globalStatement fun _ _ => trivial
        exact (remains_globalStatement hlocal w hw s hfirst).trans
          (ih (w.globalStatement s) (hadds.functions.trans hw) symbols hparameters hothers)
      cases s with
      | declaration d =>
        have hadds : Adds (fun _ => True) w (w.optionalExpression d.value) _ :=
          w.adds_optionalExpression fun _ _ => trivial
        exact (w.remains_optionalExpression d.value).trans
          (ih (w.optionalExpression d.value) (hadds.functions.trans hw) symbols hparameters
            (List.append_subset.1 hsites).2)
      | _ => exact hstatement hsites
    | _ => exact ih w hw symbols hparameters hsites

end

/-- In the bodies, everything has what all symbols have that the members, the parameters and the
local variables declare. -/
theorem among_of_admits (hA : Symbol.Admits known last members
      ((structsDeclared known last members).signatures members).1 A)
    (hlocal : AdmitsLocals (TodLang.typeFunctions last) (programSites known last members) A)
    (hparameters : ∀ f ∈ ((structsDeclared known last members).signatures members).1,
      A (.function f) → ∀ v ∈ f.parameters, A (.parameter v)) :
    ∀ site ∈ (declaring known last members).bodySites members
      ((structsDeclared known last members).signatures members).1, site.scope.Among A := by
  obtain ⟨hdeclaring, hsigned⟩ := orderly_of_admits hA
  have hfunctions : Adds (fun _ => True) _ _ _ := adds_declaring known last members
  have hremains := remains_members hlocal (declaring known last members) hfunctions.functions
    members _ (fun f hf => hparameters f hf (hsigned f hf)) (List.subset_append_right _ _)
  exact hremains.sites hdeclaring.among

/-- In the bodies, everything comes from the program or from a known package. -/
theorem among_bodySites (known : List PackageSymbol) (last : Nat) (members : List Member) :
    let signed := ((structsDeclared known last members).signatures members).1
    ∀ site ∈ (declaring known last members).bodySites members signed,
      site.scope.Among (Comes known members signed) :=
  among_of_admits (admitsDeclared_comes.admits last) (fun _ _ _ _ _ => trivial)
    (fun _ _ _ _ _ => trivial)

end Walk

end TodLang
