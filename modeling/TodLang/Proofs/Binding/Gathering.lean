import Mathlib.Data.List.Nodup
import TodLang.Proofs.Binding.Interchange
/-!
Declaring many symbols at once. Symbols of different names can be declared in any order
(`Region.addAll_perm`), and structures can get their fields in any order (`Region.setAll_perm`).
The packages of a program, the functions that are used of them and the structures come first: if
their names are different, all of them are added at once (`structsNamed_eq`).
-/

namespace TodLang

namespace Region

/-! ### Symbols of different names -/

/-- The region with one more symbol. -/
def add (r : Region) (s : Symbol) : Region :=
  ⟨insertSorted s r.symbols⟩

/-- The region with more symbols. -/
def addAll (r : Region) (symbols : List Symbol) : Region :=
  symbols.foldl add r

/-- Whether symbols can all be declared in a region: their names are different, and it declares
none of them. -/
structure Takes (r : Region) (symbols : List Symbol) : Prop where
  names : (symbols.map Symbol.name).Nodup
  free : ∀ s ∈ symbols, r.lookup? s.name = none

theorem insertSorted_comm_of_lt {s t : Symbol} (h : s.name < t.name) (l : List Symbol) :
    insertSorted s (insertSorted t l) = insertSorted t (insertSorted s l) := by
  have hback : ¬ t.name < s.name := String.lt_asymm h
  induction l with
  | nil => simp [insertSorted, h, hback]
  | cons u others ih =>
    by_cases htu : t.name < u.name
    · have hsu : s.name < u.name := String.lt_trans h htu
      simp [insertSorted, htu, hsu, h, hback]
    · by_cases hsu : s.name < u.name
      · simp [insertSorted, htu, hsu, hback]
      · simp [insertSorted, htu, hsu, ih]

/-- It does not matter which of two symbols is put at its place first. -/
theorem insertSorted_comm {s t : Symbol} (h : s.name ≠ t.name) (l : List Symbol) :
    insertSorted s (insertSorted t l) = insertSorted t (insertSorted s l) := by
  by_cases hlt : s.name < t.name
  · exact insertSorted_comm_of_lt hlt l
  · by_cases hgt : t.name < s.name
    · exact (insertSorted_comm_of_lt hgt l).symm
    · exact absurd (String.le_antisymm (String.not_lt.1 hgt) (String.not_lt.1 hlt)) h

theorem addAll_perm {symbols others : List Symbol} (h : symbols.Perm others)
    (hnames : (symbols.map Symbol.name).Nodup) (r : Region) :
    r.addAll symbols = r.addAll others := by
  apply h.foldl_eq'
  intro s hs t ht r
  by_cases hname : s.name = t.name
  · rw [List.inj_on_of_nodup_map hnames hs ht hname]
  · exact congrArg Region.mk (insertSorted_comm hname r.symbols).symm

theorem addAll_append (r : Region) (front back : List Symbol) :
    r.addAll (front ++ back) = (r.addAll front).addAll back :=
  List.foldl_append

theorem addAll_renumber (σ : Nat → Nat) (r : Region) (symbols : List Symbol) :
    (r.addAll symbols).renumber σ = (r.renumber σ).addAll (symbols.map (Symbol.renumber σ)) := by
  induction symbols generalizing r with
  | nil => rfl
  | cons s others ih =>
    have hadd : (r.add s).renumber σ = (r.renumber σ).add (s.renumber σ) :=
      congrArg Region.mk (map_insertSorted σ s r.symbols)
    change ((r.add s).addAll others).renumber σ = _
    rw [ih, hadd]
    rfl

theorem lookup?_add {r : Region} {s : Symbol} (h : r.lookup? s.name = none) (name : String) :
    (r.add s).lookup? name = if s.name = name then some s else r.lookup? name :=
  find?_insertSorted h name

theorem declare?_eq_add {r : Region} {s : Symbol} (h : r.lookup? s.name = none) :
    r.declare? s = some (r.add s) := by
  simp [declare?, declares, h, add]

namespace Takes

variable {r : Region} {symbols front back : List Symbol}

theorem head {s : Symbol} (h : r.Takes (s :: symbols)) : r.lookup? s.name = none :=
  h.free s List.mem_cons_self

theorem tail {s : Symbol} (h : r.Takes (s :: symbols)) : (r.add s).Takes symbols := by
  have hnames : s.name ∉ symbols.map Symbol.name := (List.nodup_cons.1 h.names).1
  refine ⟨(List.nodup_cons.1 h.names).2, ?_⟩
  intro t ht
  have hne : s.name ≠ t.name := fun heq => hnames (heq ▸ List.mem_map_of_mem ht)
  rw [lookup?_add h.head, if_neg hne]
  exact h.free t (List.mem_cons_of_mem s ht)

theorem left (h : r.Takes (front ++ back)) : r.Takes front := by
  have hnames := h.names
  rw [List.map_append] at hnames
  exact ⟨hnames.of_append_left, fun s hs => h.free s (List.mem_append_left back hs)⟩

/-- After the first ones, the others can be declared. -/
theorem right (h : r.Takes (front ++ back)) : (r.addAll front).Takes back := by
  induction front generalizing r with
  | nil => exact h
  | cons s others ih => exact ih (tail h)

theorem perm {others : List Symbol} (h : r.Takes symbols) (hperm : symbols.Perm others) :
    r.Takes others :=
  ⟨(hperm.map Symbol.name).nodup_iff.1 h.names, fun s hs => h.free s (hperm.mem_iff.2 hs)⟩

/-- After symbols are added, a name stands for the one that has it, or for what it stood for. -/
theorem lookup?_addAll (h : r.Takes symbols) (name : String) :
    (r.addAll symbols).lookup? name = (symbols.find? (·.name == name)).or (r.lookup? name) := by
  induction symbols generalizing r with
  | nil => rfl
  | cons s others ih =>
    change ((r.add s).addAll others).lookup? name = _
    rw [ih h.tail, lookup?_add h.head]
    by_cases hname : s.name = name
    · have hnone : others.find? (·.name == name) = none := by
        rw [List.find?_eq_none]
        intro t ht heq
        have hsame : t.name = s.name := (beq_iff_eq.1 heq).trans hname.symm
        exact (List.nodup_cons.1 h.names).1 (hsame ▸ List.mem_map_of_mem ht)
      simp [hname, hnone]
    · simp [hname]

end Takes

/-! ### The fields of structures -/

/-- The region with other fields for structures of given names. -/
def setAll (r : Region) (fields : List (String × List Variable)) : Region :=
  fields.foldl (fun r f => r.setFields f.1 f.2) r

theorem setFields_comm {name other : String} (h : name ≠ other) (fields others : List Variable)
    (r : Region) :
    (r.setFields name fields).setFields other others =
      (r.setFields other others).setFields name fields := by
  simp only [setFields, List.map_map]
  congr 1
  apply List.map_congr_left
  intro symbol _
  cases symbol with
  | struct s =>
    by_cases hname : s.name = name
    · have hother : s.name ≠ other := fun heq => h (hname.symm.trans heq)
      simp [hname, h]
    · by_cases hother : s.name = other <;> simp [hname, hother, Ne.symm h]
  | _ => rfl

theorem setAll_perm {fields others : List (String × List Variable)} (h : fields.Perm others)
    (hnames : (fields.map Prod.fst).Nodup) (r : Region) : r.setAll fields = r.setAll others := by
  apply h.foldl_eq'
  intro f hf g hg r
  by_cases hname : f.1 = g.1
  · rw [List.inj_on_of_nodup_map hnames hf hg hname]
  · exact setFields_comm hname f.2 g.2 r

theorem setAll_renumber (σ : Nat → Nat) (r : Region) (fields : List (String × List Variable)) :
    (r.setAll fields).renumber σ =
      (r.renumber σ).setAll (fields.map fun f => (f.1, f.2.map (Variable.renumber σ))) := by
  induction fields generalizing r with
  | nil => rfl
  | cons f others ih =>
    change ((r.setFields f.1 f.2).setAll others).renumber σ = _
    rw [ih, setFields_renumber]
    rfl

/-- A structure has other fields, and all else is the same. -/
theorem lookup?_setFields (r : Region) (changed : String) (fields : List Variable)
    (name : String) :
    (r.setFields changed fields).lookup? name = (r.lookup? name).map fun
      | .struct s => if s.name == changed then .struct { s with fields } else .struct s
      | other => other := by
  unfold lookup? setFields
  rw [List.find?_map]
  congr 2
  funext symbol
  cases symbol with
  | struct s =>
    by_cases hname : s.name = changed <;> simp [Symbol.name, hname]
  | _ => rfl

theorem lookup?_setAll_of_eq_none {r : Region} {name : String} (h : r.lookup? name = none)
    (fields : List (String × List Variable)) : (r.setAll fields).lookup? name = none := by
  induction fields generalizing r with
  | nil => exact h
  | cons f others ih =>
    apply ih
    rw [lookup?_setFields, h]
    rfl

end Region

namespace Scope

/-- The scope with more symbols in its innermost region. -/
def addAll (s : Scope) (symbols : List Symbol) : Scope :=
  { s with inner := s.inner.addAll symbols }

/-- The scope with other fields for structures of its innermost region. -/
def setAll (s : Scope) (fields : List (String × List Variable)) : Scope :=
  { s with inner := s.inner.setAll fields }

theorem addAll_append (s : Scope) (front back : List Symbol) :
    s.addAll (front ++ back) = (s.addAll front).addAll back :=
  congrArg (Scope.mk · s.outer) (s.inner.addAll_append front back)

theorem addAll_renumber (σ : Nat → Nat) (s : Scope) (symbols : List Symbol) :
    (s.addAll symbols).renumber σ = (s.renumber σ).addAll (symbols.map (Symbol.renumber σ)) :=
  congrArg (Scope.mk · (s.outer.map (Region.renumber σ))) (s.inner.addAll_renumber σ symbols)

theorem setAll_renumber (σ : Nat → Nat) (s : Scope) (fields : List (String × List Variable)) :
    (s.setAll fields).renumber σ =
      (s.renumber σ).setAll (fields.map fun f => (f.1, f.2.map (Variable.renumber σ))) :=
  congrArg (Scope.mk · (s.outer.map (Region.renumber σ))) (s.inner.setAll_renumber σ fields)

/-- What a name stands for around the innermost region. -/
def around? (s : Scope) (name : String) : Option Symbol :=
  s.outer.findSome? (·.lookup? name)

theorem lookup?_eq_or (s : Scope) (name : String) :
    s.lookup? name = (s.inner.lookup? name).or (s.around? name) := by
  rw [lookup?, regions, List.findSome?_cons]
  cases s.inner.lookup? name <;> rfl

theorem lookup?_addAll {s : Scope} {symbols : List Symbol} (h : s.inner.Takes symbols)
    (name : String) :
    (s.addAll symbols).lookup? name = (symbols.find? (·.name == name)).or (s.lookup? name) := by
  rw [lookup?_eq_or, lookup?_eq_or, ← Option.or_assoc, ← h.lookup?_addAll]
  rfl

/-- Whether there are no packages around the innermost region. -/
def Packageless (s : Scope) : Prop :=
  ∀ name symbol, s.around? name = some symbol → symbol.asPackage? = none

/-- Symbols that are no packages leave all packages as they are. -/
theorem lookupPackage?_addAll {s : Scope} {symbols : List Symbol} (h : s.inner.Takes symbols)
    (hs : s.Packageless) (hsymbols : ∀ symbol ∈ symbols, symbol.asPackage? = none)
    (name : String) : (s.addAll symbols).lookupPackage? name = s.lookupPackage? name := by
  unfold lookupPackage?
  rw [lookup?_addAll h]
  cases hfind : symbols.find? (·.name == name) with
  | none => rfl
  | some symbol =>
    have hmem : symbol ∈ symbols := List.mem_of_find?_eq_some hfind
    have hname : symbol.name = name := by simpa using List.find?_some hfind
    have hold : (s.lookup? name).bind Symbol.asPackage? = none := by
      rw [← hname, lookup?_eq_or, h.free symbol hmem, Option.none_or]
      cases haround : s.around? symbol.name with
      | none => rfl
      | some other => exact hs symbol.name other haround
    rw [hold]
    exact hsymbols symbol hmem

/-- The functions of a package that is used. -/
def imports (s : Scope) (name : Ident) : List Symbol :=
  (s.lookupPackage? name.name).elim [] fun package => package.functions.map .function

theorem asPackage?_imports {s : Scope} {name : Ident} {symbol : Symbol}
    (h : symbol ∈ s.imports name) : symbol.asPackage? = none := by
  unfold imports at h
  cases hpackage : s.lookupPackage? name.name with
  | none =>
    rw [hpackage] at h
    cases h
  | some package =>
    rw [hpackage] at h
    obtain ⟨f, -, rfl⟩ := List.mem_map.1 h
    rfl

end Scope

namespace Walk

/-! ### Declarations without a fault -/

/-- The walk in another scope. -/
def within (w : Walk) (s : Scope) : Walk :=
  { w with scope := s }

/-- The walk with more symbols in the innermost region. -/
def gather (w : Walk) (symbols : List Symbol) : Walk :=
  w.within (w.scope.addAll symbols)

theorem gather_append (w : Walk) (front back : List Symbol) :
    w.gather (front ++ back) = (w.gather front).gather back :=
  congrArg w.within (w.scope.addAll_append front back)

/-- In the scope it is in or another one, a walk can declare a name that is free. -/
theorem declare_within {w : Walk} {s : Scope} {symbol : Symbol}
    (h : s.inner.lookup? symbol.name = none) (span : Span) :
    (w.within s).declare symbol span = w.within (s.addAll [symbol]) := by
  have hdeclare : (w.within s).scope.declare? symbol = some (s.addAll [symbol]) := by
    change (s.inner.declare? symbol).map _ = _
    rw [Region.declare?_eq_add h]
    rfl
  unfold declare
  rw [hdeclare]
  rfl

theorem declare_eq_gather {w : Walk} {symbol : Symbol}
    (h : w.scope.inner.lookup? symbol.name = none) (span : Span) :
    w.declare symbol span = w.gather [symbol] :=
  declare_within h span

theorem foldl_declare {α : Type} {symbol : α → Symbol} (span : α → Span) {w : Walk} {l : List α}
    (h : w.scope.inner.Takes (l.map symbol)) :
    l.foldl (fun w x => w.declare (symbol x) (span x)) w = w.gather (l.map symbol) := by
  induction l generalizing w with
  | nil => rfl
  | cons x others ih =>
    rw [List.foldl_cons, declare_eq_gather h.head]
    exact ih h.tail

theorem packageUse_eq {w : Walk} {name : Ident} (h : w.scope.inner.Takes (w.scope.imports name)) :
    w.packageUse name =
      (w.report (w.scope.usePackage name)).gather (w.scope.imports name) := by
  unfold packageUse Scope.usePackage
  unfold Scope.imports at h ⊢
  cases hpackage : w.scope.lookupPackage? name.name with
  | none => rfl
  | some package =>
    rw [hpackage] at h
    exact foldl_declare (w := w.report [.resolved name package.fingerprint]) _ h

/-- The packages whose functions are used stay as they are while functions are declared, so what is
used is found at once. -/
theorem foldl_packageUse {w : Walk} {uses : List Ident} (hw : w.scope.Packageless)
    (h : w.scope.inner.Takes (uses.flatMap w.scope.imports)) :
    uses.foldl packageUse w =
      (w.report (uses.flatMap w.scope.usePackage)).gather (uses.flatMap w.scope.imports) := by
  induction uses generalizing w with
  | nil =>
    change w = { w with findings := w.findings ++ [] }
    rw [List.append_nil]
  | cons name others ih =>
    let used := (w.report (w.scope.usePackage name)).gather (w.scope.imports name)
    rw [List.flatMap_cons] at h
    have hfirst := h.left
    have hpackages (name : String) : used.scope.lookupPackage? name = w.scope.lookupPackage? name :=
      Scope.lookupPackage?_addAll hfirst hw (fun _ hs => Scope.asPackage?_imports hs) name
    have himports : used.scope.imports = w.scope.imports := by
      funext name
      unfold Scope.imports
      rw [hpackages]
    have huses : used.scope.usePackage = w.scope.usePackage := by
      funext name
      unfold Scope.usePackage
      rw [hpackages]
    have hothers : used.scope.inner.Takes (others.flatMap used.scope.imports) :=
      himports ▸ h.right
    rw [List.foldl_cons, packageUse_eq hfirst]
    change others.foldl packageUse used = _
    rw [ih (w := used) hw hothers, himports, huses, List.flatMap_cons, List.flatMap_cons,
      gather_append]
    change { used with scope := _, findings := (w.findings ++ _) ++ _ } = _
    rw [List.append_assoc]
    rfl

/-- A structure without its fields. -/
def structSymbol (d : StructDeclaration) : Symbol :=
  .struct ⟨d.name.name, [], some (Member.struct d).span⟩

theorem structNames_eq {w : Walk} {ds : List StructDeclaration}
    (h : w.scope.inner.Takes (ds.map structSymbol)) :
    w.structNames ds = (ds, w.gather (ds.map structSymbol)) := by
  induction ds generalizing w with
  | nil => rfl
  | cons d others ih =>
    have hfree : w.scope.inner.lookup? d.name.name = none := h.head
    have hstep : w.structName d = (true, w.gather [structSymbol d]) := by
      have hdeclare : w.declare (structSymbol d) d.name.span = w.gather [structSymbol d] :=
        declare_eq_gather hfree d.name.span
      unfold structName
      rw [Region.declares, hfree]
      exact congrArg (Prod.mk true) hdeclare
    unfold structNames
    rw [hstep]
    dsimp only
    rw [ih h.tail]
    rfl

end Walk

/-! ### The names that a program declares -/

/-- The package that a program refers to, as far as it is known. -/
def packageSymbol (known : List PackageSymbol) (span : Span) (name : Ident) : PackageSymbol :=
  { (known.reverse.find? (·.name == name.name)).getD { name := name.name } with
    declaration := some span }

theorem packageSymbol_name (known : List PackageSymbol) (span : Span) (name : Ident) :
    (packageSymbol known span name).name = name.name := by
  unfold packageSymbol
  dsimp only
  cases hfind : known.reverse.find? (·.name == name.name) with
  | none => rfl
  | some p => simpa using List.find?_some hfind

/-- The packages that a program refers to. -/
def packageSymbols (known : List PackageSymbol) (members : List Member) : List PackageSymbol :=
  (packageReferences members).map fun reference => packageSymbol known reference.1 reference.2

/-- The functions that a program uses of the packages that it refers to. -/
def usedFunctions (known : List PackageSymbol) (members : List Member) : List FunctionSymbol :=
  (packageUses members).flatMap fun use =>
    ((packageSymbols known members).find? (·.name == use.name)).elim [] PackageSymbol.functions

/-- The symbols that are declared before the fields of structures: packages, what is used of them,
and structures. -/
def earlySymbols (known : List PackageSymbol) (members : List Member) : List Symbol :=
  (packageSymbols known members).map .package ++ (usedFunctions known members).map .function ++
    (structDeclarations members).map Walk.structSymbol

/-- The name of the function that a member declares. -/
def Member.functionName? : Member → Option String
  | .function f => some f.name.name
  | .external e => some e.name.name
  | _ => none

/-- The names that a program declares in its own region, but for those of global variables. -/
def declaredNames (known : List PackageSymbol) (members : List Member) : List String :=
  (earlySymbols known members).map Symbol.name ++ members.filterMap Member.functionName?

namespace Walk

variable {known : List PackageSymbol} {last : Nat} {members members' : List Member}

theorem around?_beginning (last : Nat) (name : String) :
    (beginning last).scope.around? name = (prelude (last + typeFunctionIds)).lookup? name := by
  change [prelude (last + typeFunctionIds)].findSome? (·.lookup? name) = _
  rw [List.findSome?_cons, List.findSome?_nil]
  cases (prelude (last + typeFunctionIds)).lookup? name <;> rfl

theorem packageless_beginning (last : Nat) : (beginning last).scope.Packageless := by
  intro name symbol h
  rw [around?_beginning] at h
  unfold Region.lookup? at h
  rcases mem_prelude (List.mem_of_find?_eq_some h) with ⟨type, -, rfl⟩ | ⟨f, -, rfl⟩ <;> rfl

/-- Symbols of different names can be declared in a region that is empty. -/
theorem takes_beginning {symbols : List Symbol} (h : (symbols.map Symbol.name).Nodup)
    (last : Nat) : (beginning last).scope.inner.Takes symbols :=
  ⟨h, fun _ _ => rfl⟩

theorem takes_earlySymbols (h : ((earlySymbols known members).map Symbol.name).Nodup)
    (last : Nat) : (beginning last).scope.inner.Takes (earlySymbols known members) :=
  takes_beginning h last

theorem packagesDeclared_eq
    (h : (beginning last).scope.inner.Takes ((packageSymbols known members).map .package)) :
    packagesDeclared known last members =
      (beginning last).gather ((packageSymbols known members).map .package) := by
  unfold packageSymbols at h ⊢
  rw [List.map_map] at h ⊢
  exact foldl_declare (fun reference : Span × Ident => reference.2.span) h

theorem lookupPackage?_packagesDeclared
    (h : (beginning last).scope.inner.Takes ((packageSymbols known members).map .package))
    (name : String) :
    (packagesDeclared known last members).scope.lookupPackage? name =
      (packageSymbols known members).find? (·.name == name) := by
  have hlookup := Scope.lookup?_addAll h name
  have hfind : ((packageSymbols known members).map Symbol.package).find? (·.name == name) =
      ((packageSymbols known members).find? (·.name == name)).map .package := by
    rw [List.find?_map]
    rfl
  rw [packagesDeclared_eq h]
  change (((beginning last).scope.addAll _).lookup? name).bind _ = _
  rw [hlookup, hfind]
  cases (packageSymbols known members).find? (·.name == name) with
  | some p => rfl
  | none =>
    have hinner : (beginning last).scope.inner.lookup? name = none := rfl
    rw [Option.map_none, Option.none_or, Scope.lookup?_eq_or, hinner, Option.none_or]
    cases haround : (beginning last).scope.around? name with
    | none => rfl
    | some symbol => exact packageless_beginning last name symbol haround

/-- What is used of the packages are their functions. -/
theorem map_usedFunctions
    (h : (beginning last).scope.inner.Takes ((packageSymbols known members).map .package)) :
    (usedFunctions known members).map Symbol.function =
      (packageUses members).flatMap (packagesDeclared known last members).scope.imports := by
  rw [usedFunctions, List.map_flatMap]
  apply List.flatMap_congr
  intro use _
  unfold Scope.imports
  rw [lookupPackage?_packagesDeclared h]
  cases (packageSymbols known members).find? (·.name == use.name) <;> rfl

/-- Packages, what is used of them and structures are declared at once, and all structures get
their fields. -/
theorem structsNamed_eq (h : ((earlySymbols known members).map Symbol.name).Nodup) (last : Nat) :
    structsNamed known last members = (structDeclarations members,
      ((beginning last).report ((packageUses members).flatMap
        (packagesDeclared known last members).scope.usePackage)).gather
          (earlySymbols known members)) := by
  have hall := takes_earlySymbols h last
  unfold earlySymbols at hall ⊢
  have hpackages := hall.left.left
  have hdeclared := packagesDeclared_eq hpackages
  have hfunctions := map_usedFunctions hpackages
  have huses : usesDeclared known last members = _ :=
    foldl_packageUse (w := packagesDeclared known last members)
      (by rw [hdeclared]; exact packageless_beginning last)
      (by rw [← hfunctions, hdeclared]; exact hall.left.right)
  have hstructs : (usesDeclared known last members).scope.inner.Takes
      ((structDeclarations members).map structSymbol) := by
    rw [huses, ← hfunctions, hdeclared]
    have hright := hall.right
    rw [Region.addAll_append] at hright
    exact hright
  rw [structsNamed, structNames_eq hstructs, huses, ← hfunctions, hdeclared, gather_append,
    gather_append]
  rfl

end Walk

end TodLang
