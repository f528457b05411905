import TodLang.Proofs.Binding.PackageCalls
import TodLang.Proofs.Binding.Regions
/-!
The region of a program. Its members are declared in stages: the packages, the functions that are
used of them, the structures, the functions and the global variables (`programDeclarations`). The
structures that are the first of their name get their fields before the functions are declared.
Whatever is declared twice, in one stage or in two, the region comes to hold the first declaration
of each name, as it was made when its turn came, and every other declaration is found to be declared
already, once (`bindProgram_firstDeclarations`).
-/

namespace TodLang

/-- The declaration of a function, with a body or without. -/
def Member.functionDeclaration? : Member → Option Declaration
  | .function d => some (.function d)
  | .external d => some (.external d)
  | _ => none

/-- The functions that a use of a package declares. -/
def importedFunctions (packages : List PackageSymbol) (use : Ident) : List FunctionSymbol :=
  (packages.find? (·.name == use.name)).elim [] PackageSymbol.functions

section

variable (known : List PackageSymbol) (members : List Member)

/-- The declarations of packages and of the functions that are used of them. -/
def packageDeclarations : List Declaration :=
  (packageReferences members).map (fun reference => .package reference.1 reference.2) ++
    (packageUses members).flatMap fun use =>
      (importedFunctions (packageSymbols known members) use).map (.imported use)

/-- The declarations in the region of a program: packages, functions that are used of them,
structures, functions, and global variables. -/
def programDeclarations : List Declaration :=
  packageDeclarations known members ++ (structDeclarations members).map .struct ++
    members.filterMap Member.functionDeclaration? ++ (globalVariables members).map .variable

end

def Declaration.asStruct? : Declaration → Option StructDeclaration
  | .struct d => some d
  | _ => none

/-- The structures that are the first declaration of their name. -/
def keptStructs (known : List PackageSymbol) (members : List Member) : List StructDeclaration :=
  (firsts (·.name.name) [] (programDeclarations known members)).filterMap Declaration.asStruct?

/-- The names of fields that are not the first of theirs in a structure. -/
def StructDeclaration.repeated (d : StructDeclaration) : List Ident :=
  repeats Ident.name [] (d.fields.map Parameter.name)

/-- The names that a program declares again where they are declared: in its own region and as fields
of the structures that it keeps. -/
def programRepeats (known : List PackageSymbol) (members : List Member) : List Ident :=
  repeats Ident.name [] ((programDeclarations known members).map Declaration.name) ++
    (keptStructs known members).flatMap StructDeclaration.repeated

/-! ### Structures get their fields -/

/-- A symbol once the structure of a given name has other fields. -/
def Symbol.setFields (name : String) (fields : List Variable) : Symbol → Symbol
  | .struct s => if s.name == name then .struct { s with fields } else .struct s
  | other => other

namespace Symbol

theorem name_setFields (name : String) (fields : List Variable) (s : Symbol) :
    (s.setFields name fields).name = s.name := by
  unfold setFields
  split
  · split <;> rfl
  · rfl

/-- A symbol once structures of given names have other fields. -/
def setAll (fields : List (String × List Variable)) (s : Symbol) : Symbol :=
  fields.foldl (fun s f => s.setFields f.1 f.2) s

theorem name_setAll (fields : List (String × List Variable)) (s : Symbol) :
    (s.setAll fields).name = s.name := by
  induction fields generalizing s with
  | nil => rfl
  | cons f others ih => exact (ih (s.setFields f.1 f.2)).trans (name_setFields f.1 f.2 s)

/-- Symbols that are no structures stay as they are. -/
theorem setAll_of_asStruct?_eq_none {s : Symbol} (h : s.asStruct? = none)
    (fields : List (String × List Variable)) : s.setAll fields = s := by
  have hstep (f : String × List Variable) : s.setFields f.1 f.2 = s := by
    cases s with
    | struct s => cases h
    | _ => rfl
  induction fields with
  | nil => rfl
  | cons f others ih =>
    change (s.setFields f.1 f.2).setAll others = s
    rw [hstep, ih]

/-- A structure gets the last fields under its name. -/
theorem setAll_struct (s : StructSymbol) (fields : List (String × List Variable)) :
    (Symbol.struct s).setAll fields =
      .struct { s with
        fields := ((fields.reverse.find? (·.1 == s.name)).map Prod.snd).getD s.fields } := by
  induction fields generalizing s with
  | nil => rfl
  | cons f others ih =>
    change ((Symbol.struct s).setFields f.1 f.2).setAll others = _
    unfold setFields
    dsimp only
    rw [List.reverse_cons, List.find?_append]
    by_cases hname : s.name = f.1
    · rw [if_pos (beq_iff_eq.2 hname), ih]
      cases others.reverse.find? (·.1 == s.name) with
      | some g => simp
      | none => simp [hname]
    · have hne : ¬ f.1 = s.name := Ne.symm hname
      rw [if_neg (by simpa using hname), ih]
      simp [hne]

end Symbol

/-- A declaration once structures of given names have their fields. -/
def Made.setAll (fields : List (String × List Variable)) (m : Made) : Made :=
  ⟨m.declaration, m.symbol.setAll fields, (m.symbol.name_setAll fields).trans m.named⟩

namespace Region

theorem setAll_eq (r : Region) (fields : List (String × List Variable)) :
    r.setAll fields = ⟨r.symbols.map (Symbol.setAll fields)⟩ := by
  induction fields generalizing r with
  | nil => exact congrArg Region.mk (List.map_id _).symm
  | cons f others ih =>
    change (r.setFields f.1 f.2).setAll others = _
    rw [ih]
    change Region.mk ((r.symbols.map (Symbol.setFields f.1 f.2)).map _) = _
    rw [List.map_map]
    rfl

/-- Symbols that keep their names keep their places. -/
theorem map_addAll {f : Symbol → Symbol} (hf : ∀ s, (f s).name = s.name) (r : Region)
    (symbols : List Symbol) :
    (r.addAll symbols).symbols.map f =
      (Region.addAll ⟨r.symbols.map f⟩ (symbols.map f)).symbols := by
  induction symbols generalizing r with
  | nil => rfl
  | cons s others ih =>
    change ((r.add s).addAll others).symbols.map f = _
    rw [ih]
    change (Region.addAll ⟨(insertSorted s r.symbols).map f⟩ _).symbols = _
    rw [← insertSorted_map hf]
    rfl

theorem setAll_ofMade (made : List Made) (fields : List (String × List Variable)) :
    (ofMade made).setAll fields = ofMade (made.map (Made.setAll fields)) := by
  have hnames : Symbol.name ∘ Symbol.setAll fields = Symbol.name :=
    funext fun s => s.name_setAll fields
  have hsymbols : (made.map (Made.setAll fields)).map Made.symbol =
      (made.map Made.symbol).map (Symbol.setAll fields) := by
    rw [List.map_map, List.map_map]
    rfl
  have hfirsts : firsts Symbol.name [] _ = _ :=
    firsts_map (Symbol.setAll fields) [] (made.map Made.symbol)
  rw [hnames] at hfirsts
  rw [setAll_eq, ofMade, ofDeclared, map_addAll (fun s => s.name_setAll fields), ofMade, ofDeclared,
    hsymbols, hfirsts]
  rfl

end Region

/-! ### Packages and what is used of them -/

/-- The declaration of a package. -/
def packageMade (known : List PackageSymbol) (reference : Span × Ident) : Made :=
  ⟨.package reference.1 reference.2, .package (packageSymbol known reference.1 reference.2),
    packageSymbol_name known reference.1 reference.2⟩

/-- The declaration of a function where its package is used. -/
def importMade (use : Ident) (f : FunctionSymbol) : Made :=
  ⟨.imported use f, .function f, rfl⟩

/-- Where packages are declared first and only functions behind them, a package is what was declared
as one. -/
theorem Scope.lookupPackage?_eq {s : Scope} (hs : s.Packageless) {packages : List PackageSymbol}
    {others : List Symbol} (hothers : ∀ t ∈ others, t.asPackage? = none)
    (hinner : s.inner = .ofDeclared (packages.map .package ++ others)) (n : String) :
    s.lookupPackage? n = packages.find? (·.name == n) := by
  have hpackages : (packages.map Symbol.package).find? (·.name == n) =
      (packages.find? (·.name == n)).map .package := by
    rw [List.find?_map]
    rfl
  rw [lookupPackage?, lookup?_eq_or, hinner, Region.lookup?_ofDeclared, List.find?_append,
    hpackages]
  cases packages.find? (·.name == n) with
  | some p => rfl
  | none =>
    cases hother : others.find? (·.name == n) with
    | some t => exact hothers t (List.mem_of_find?_eq_some hother)
    | none =>
      cases haround : s.around? n with
      | none => rfl
      | some t => exact hs n t haround

namespace Walk

variable {w : Walk} {before : List Made}

theorem declares_packageUse (hw : w.scope.inner = .ofMade before) {packages : List PackageSymbol}
    {use : Ident}
    (hpackages : w.scope.lookupPackage? use.name = packages.find? (·.name == use.name)) :
    w.Declares (w.packageUse use) before
      ⟨(importedFunctions packages use).map (importMade use), []⟩ := by
  unfold packageUse importedFunctions
  rw [hpackages]
  cases packages.find? (·.name == use.name) with
  | none => exact (w.stays_report rfl).declares hw
  | some p =>
    have hreport : w.Stays (w.report [.resolved use p.fingerprint]) := w.stays_report rfl
    exact hreport.trans_declares (declares_foldl (importMade use) (fun _ _ => rfl) p.functions hw)

/-- The functions of the packages that are used are declared behind the packages. -/
theorem declares_packageUses {packages : List PackageSymbol} {others : List Symbol}
    (hw : w.scope.inner = .ofMade before) (hs : w.scope.Packageless)
    (hbefore : before.map Made.symbol = packages.map .package ++ others)
    (hothers : ∀ t ∈ others, t.asPackage? = none) (uses : List Ident) :
    w.Declares (uses.foldl packageUse w) before
      ⟨uses.flatMap fun use => (importedFunctions packages use).map (importMade use), []⟩ := by
  induction uses generalizing w before others with
  | nil => exact w.stays_refl.declares hw
  | cons use uses ih =>
    have hinner : w.scope.inner = .ofDeclared (packages.map .package ++ others) := by
      rw [hw, Region.ofMade, hbefore]
    have hfirst := declares_packageUse hw (Scope.lookupPackage?_eq hs hothers hinner use.name)
    let functions := (importedFunctions packages use).map Symbol.function
    have hafter :
        (before ++ (importedFunctions packages use).map (importMade use)).map Made.symbol =
          packages.map .package ++ (others ++ functions) := by
      rw [List.map_append, hbefore, List.append_assoc, List.map_map]
      rfl
    have hfunctions : ∀ t ∈ others ++ functions, t.asPackage? = none := by
      intro t ht
      rcases List.mem_append.1 ht with ht | ht
      · exact hothers t ht
      · obtain ⟨f, -, rfl⟩ := List.mem_map.1 ht
        rfl
    have hpackageless : (w.packageUse use).scope.Packageless := by
      unfold Scope.Packageless Scope.around?
      rw [hfirst.outer]
      exact hs
    exact hfirst.trans (ih hfirst.inner hpackageless hafter hfunctions)

/-! ### Structures -/

/-- The declaration of a structure without its fields. -/
def structMade (d : StructDeclaration) : Made :=
  ⟨.struct d, structSymbol d, rfl⟩

/-- Structures are declared one after another, and those are given fields that are the first of
their name. -/
theorem declares_structNames (hw : w.scope.inner = .ofMade before) (ds : List StructDeclaration) :
    w.Declares (w.structNames ds).2 before ⟨ds.map structMade, []⟩ ∧
      (w.structNames ds).1 = firsts (·.name.name) (before.map (·.name.name)) ds := by
  induction ds generalizing w before with
  | nil => exact ⟨w.stays_refl.declares hw, rfl⟩
  | cons d others ih =>
    have hfirst : w.Declares (w.structName d).2 before (.single (structMade d)) :=
      declares_declare hw (structMade d)
    obtain ⟨hothers, haccepted⟩ := ih hfirst.inner
    refine ⟨hfirst.trans hothers, ?_⟩
    have hnames : (before.map Made.symbol).map Symbol.name = before.map (·.name.name) := by
      rw [Made.map_named, List.map_map]
      rfl
    have hisFirst : (w.structName d).1 = !decide (d.name.name ∈ before.map (·.name.name)) := by
      change (!w.scope.inner.declares d.name.name) = _
      rw [hw, Region.ofMade, Region.declares_ofDeclared, hnames]
    have htaken (n : String) :
        n ∈ (before ++ (Layers.single (structMade d)).own).map (·.name.name) ↔
          n ∈ d.name.name :: before.map (·.name.name) := by
      rw [List.map_append]
      exact List.perm_append_comm.mem_iff
    change (if (w.structName d).1 then d :: ((w.structName d).2.structNames others).1
      else ((w.structName d).2.structNames others).1) = _
    rw [haccepted, hisFirst, firsts, firsts, sift, sift_congr false htaken]
    by_cases hmem : d.name.name ∈ before.map (·.name.name)
    · rw [decide_eq_true hmem]
      rfl
    · rw [decide_eq_false hmem]
      rfl

end Walk

/-- Whether a field is the one that is written, with the type that the written one has in a scope.
-/
structure Parameter.MakesField (s : Scope) (p : Parameter) (v : Variable) : Prop where
  name : v.name = p.name.name
  readOnly : v.readOnly = false
  type : v.type = (s.resolveType p.type).1
  declaration : v.declaration = some p.name.span

/-- Whether fields are those of a structure: the first of each name, in the order in which they are
written. -/
def StructDeclaration.MakesFields (s : Scope) (d : StructDeclaration) (fields : List Variable) :
    Prop :=
  List.Forall₂ (Parameter.MakesField s) (firsts (·.name.name) [] d.fields) fields

namespace Walk

variable {w : Walk} {before : List Made}

/-- Fields are added to those that are known, unless their name is. -/
theorem fields_firsts (w : Walk) (known : List Variable) (ps : List Parameter) :
    ∃ new, (w.fields known ps).1 = known ++ new ∧
      List.Forall₂ (Parameter.MakesField w.scope)
        (firsts (·.name.name) (known.map Variable.name) ps) new ∧
      doubles (w.fields known ps).2.findings = doubles w.findings ++
        repeats Ident.name (known.map Variable.name) (ps.map Parameter.name) := by
  induction ps generalizing w known with
  | nil => exact ⟨[], (List.append_nil _).symm, .nil, (List.append_nil _).symm⟩
  | cons p others ih =>
    have htype := w.stays_type p.type
    have hany : known.any (·.name == p.name.name) =
        decide (p.name.name ∈ known.map Variable.name) := by
      rw [Bool.eq_iff_iff, List.any_eq_true, decide_eq_true_iff, List.mem_map]
      simp only [beq_iff_eq]
    unfold fields
    dsimp only
    rw [hany, firsts, sift, List.map_cons, repeats, sift]
    by_cases hmem : p.name.name ∈ known.map Variable.name
    · have htaken (n : String) : n ∈ p.name.name :: known.map Variable.name ↔
          n ∈ known.map Variable.name := by
        rw [List.mem_cons]
        exact or_iff_right_of_imp fun h => h ▸ hmem
      let reported := (w.type p.type).2.report [.fault (.alreadyDeclared p.name.name) p.name.span]
      obtain ⟨new, hfields, hnew, hdoubles⟩ := ih reported known
      have hreported : doubles reported.findings = doubles w.findings ++ [p.name] := by
        change doubles ((w.type p.type).2.findings ++ _) = _
        rw [doubles_append, htype.doubles]
        rfl
      rw [decide_eq_true hmem, if_pos rfl, if_neg (by decide), if_pos rfl,
        sift_congr false htaken, sift_congr true htaken]
      refine ⟨new, hfields, hnew, ?_⟩
      rw [hdoubles, hreported, List.append_assoc]
      rfl
    · let v := (w.type p.type).2.newVariable p.name false (w.type p.type).1
      have htaken (n : String) : n ∈ (known ++ [v]).map Variable.name ↔
          n ∈ p.name.name :: known.map Variable.name := by
        rw [List.map_append]
        exact List.perm_append_comm.mem_iff
      let counted := (w.type p.type).2.countVariable
      obtain ⟨new, hfields, hnew, hdoubles⟩ := ih counted (known ++ [v])
      rw [firsts, sift_congr false htaken] at hnew
      rw [repeats, sift_congr true htaken] at hdoubles
      rw [decide_eq_false hmem, if_neg (by decide), if_pos rfl, if_neg (by decide)]
      refine ⟨v :: new, ?_, .cons ⟨rfl, rfl, rfl, rfl⟩ hnew, ?_⟩
      · rw [hfields, List.append_assoc]
        rfl
      · rw [hdoubles]
        exact congrArg (· ++ _) htype.doubles

/-- Structures get their fields one after another, all in the same scope. -/
theorem giveFields_firsts (w : Walk) (ds : List StructDeclaration) :
    List.Forall₂ (fun d f => f.1 = d.name.name ∧ d.MakesFields w.scope f.2) ds
        (fieldsStep.all.run ds w).1 ∧
      doubles (fieldsStep.all.run ds w).2.findings =
        doubles w.findings ++ ds.flatMap StructDeclaration.repeated := by
  induction ds generalizing w with
  | nil => exact ⟨.nil, (List.append_nil _).symm⟩
  | cons d others ih =>
    let next := (giveFields d w).2
    have hscope : next.scope = w.scope := w.fields_scope [] d.fields
    obtain ⟨new, hfields, hnew, hdoubles⟩ := w.fields_firsts [] d.fields
    obtain ⟨hothers, hmore⟩ := ih next
    rw [hscope] at hothers
    refine ⟨.cons ⟨rfl, ?_⟩ hothers, ?_⟩
    · change d.MakesFields w.scope (w.fields [] d.fields).1
      rw [hfields]
      exact hnew
    · change doubles (fieldsStep.all.run others next).2.findings = _
      rw [hmore, List.flatMap_cons, ← List.append_assoc]
      exact congrArg (· ++ _) hdoubles

/-! ### Functions and global variables -/

/-- The declarations of functions with their symbols. -/
def signaturesMade (w : Walk) : List Member → List Made
  | [] => []
  | member :: others =>
    match member with
    | .function f =>
      let signed := w.signature f.name f.parameters f.returnType member.span
      let symbol := { signed.1 with isPublic := f.visibility.isSome }
      ⟨.function f, .function symbol, rfl⟩ ::
        (signed.2.declare (.function symbol) f.name.span).signaturesMade others
    | .external e =>
      let signed := w.signature e.name e.parameters e.returnType member.span
      ⟨.external e, .function signed.1.asExternal, rfl⟩ ::
        (signed.2.declare (.function signed.1.asExternal) e.name.span).signaturesMade others
    | _ => w.signaturesMade others

theorem map_signaturesMade (w : Walk) (members : List Member) :
    (w.signaturesMade members).map Made.declaration =
      members.filterMap Member.functionDeclaration? := by
  induction members generalizing w with
  | nil => rfl
  | cons member others ih =>
    cases member with
    | function f => exact congrArg (_ :: ·) (ih _)
    | external e => exact congrArg (_ :: ·) (ih _)
    | _ => exact ih w

theorem declares_signatures (hw : w.scope.inner = .ofMade before) (members : List Member) :
    w.Declares (w.signatures members).2 before ⟨w.signaturesMade members, []⟩ := by
  induction members generalizing w before with
  | nil => exact w.stays_refl.declares hw
  | cons member others ih =>
    cases member with
    | function f =>
      let signed := w.signature f.name f.parameters f.returnType (Member.function f).span
      let symbol : FunctionSymbol := { signed.1 with isPublic := f.visibility.isSome }
      have hsigned := w.stays_signature f.name f.parameters f.returnType (Member.function f).span
      have hinner : signed.2.scope.inner = .ofMade before := by rw [hsigned.scope, hw]
      have hdeclare := declares_declare hinner ⟨.function f, .function symbol, rfl⟩
      exact hsigned.trans_declares (hdeclare.trans (ih hdeclare.inner))
    | external e =>
      let signed := w.signature e.name e.parameters e.returnType (Member.external e).span
      have hsigned := w.stays_signature e.name e.parameters e.returnType (Member.external e).span
      have hinner : signed.2.scope.inner = .ofMade before := by rw [hsigned.scope, hw]
      have hdeclare :=
        declares_declare hinner ⟨.external e, .function signed.1.asExternal, rfl⟩
      exact hsigned.trans_declares (hdeclare.trans (ih hdeclare.inner))
    | _ => exact ih hw

/-- The declarations of global variables with their symbols. -/
def globalsMade (w : Walk) : List VariableDeclaration → List Made
  | [] => []
  | d :: others =>
    ⟨.variable d, .globalVariable (w.declaredVariable d), rfl⟩ ::
      (w.declareVariable .globalVariable d).globalsMade others

theorem map_globalsMade (w : Walk) (ds : List VariableDeclaration) :
    (w.globalsMade ds).map Made.declaration = ds.map .variable := by
  induction ds generalizing w with
  | nil => rfl
  | cons d others ih => exact congrArg (_ :: ·) (ih _)

theorem declares_globals (hw : w.scope.inner = .ofMade before) (ds : List VariableDeclaration) :
    w.Declares (ds.foldl (declareVariable · .globalVariable ·) w) before
      ⟨w.globalsMade ds, []⟩ := by
  induction ds generalizing w before with
  | nil => exact w.stays_refl.declares hw
  | cons d others ih =>
    have hstays := (w.stays_declaredType d).trans (stays_countVariable _)
    have hinner : (w.declaredType d).2.countVariable.scope.inner = .ofMade before := by
      rw [hstays.scope, hw]
    have hdeclare := declares_declare hinner
      ⟨.variable d, .globalVariable (w.declaredVariable d), rfl⟩
    exact (hstays.trans_declares hdeclare).trans (ih hdeclare.inner)

end Walk

/-! ### The whole program -/

section

variable (known : List PackageSymbol) (last : Nat) (members : List Member)

/-- The declarations of packages and of the functions that are used of them, with their symbols. -/
def packagesMade : List Made :=
  (packageReferences members).map (packageMade known) ++
    (packageUses members).flatMap fun use =>
      (importedFunctions (packageSymbols known members) use).map (importMade use)

/-- The declarations before the fields of structures, with their symbols. -/
def earlyMade : List Made :=
  packagesMade known members ++ (structDeclarations members).map Walk.structMade

open Walk in
/-- The fields that the structures get, each with the name of its structure. -/
def givenFields : List (String × List Variable) :=
  (fieldsStep.all.run (structsNamed known last members).1 (structsNamed known last members).2).1

open Walk in
/-- The declarations in the region of a program with the symbols that they make. -/
def programMade : List Made :=
  (earlyMade known members).map (Made.setAll (givenFields known last members)) ++
    (structsDeclared known last members).signaturesMade members ++
    (functionsDeclared known last members).globalsMade (globalVariables members)

theorem map_packagesMade :
    (packagesMade known members).map Made.declaration = packageDeclarations known members := by
  rw [packagesMade, packageDeclarations, List.map_append, List.map_map, List.map_flatMap]
  simp only [List.map_map]
  rfl

theorem map_earlyMade : (earlyMade known members).map Made.declaration =
    packageDeclarations known members ++ (structDeclarations members).map .struct := by
  rw [earlyMade, List.map_append, map_packagesMade, List.map_map]
  rfl

theorem map_programMade :
    (programMade known last members).map Made.declaration = programDeclarations known members := by
  have hearly : ((earlyMade known members).map (Made.setAll (givenFields known last members))).map
      Made.declaration = (earlyMade known members).map Made.declaration := by
    rw [List.map_map]
    rfl
  rw [programMade, List.map_append, List.map_append, hearly, map_earlyMade,
    Walk.map_signaturesMade, Walk.map_globalsMade]
  rfl

/-- No package and no function is a structure. -/
theorem asStruct?_of_other {d : Declaration}
    (h : d ∈ packageDeclarations known members ∨
      d ∈ members.filterMap Member.functionDeclaration? ++
        (globalVariables members).map .variable) : d.asStruct? = none := by
  rcases h with h | h
  · rcases List.mem_append.1 h with h | h
    · obtain ⟨reference, -, rfl⟩ := List.mem_map.1 h
      rfl
    · obtain ⟨use, -, hf⟩ := List.mem_flatMap.1 h
      obtain ⟨f, -, rfl⟩ := List.mem_map.1 hf
      rfl
  · rcases List.mem_append.1 h with h | h
    · obtain ⟨member, -, hmember⟩ := List.mem_filterMap.1 h
      cases member with
      | function f =>
        obtain rfl := Option.some.inj hmember
        rfl
      | external e =>
        obtain rfl := Option.some.inj hmember
        rfl
      | _ => cases hmember
    · obtain ⟨d, -, rfl⟩ := List.mem_map.1 h
      rfl

/-- The structures that are kept are told by the packages in front of them and by each other. -/
theorem keptStructs_eq : keptStructs known members =
    firsts (·.name.name) ((packageDeclarations known members).map (·.name.name))
      (structDeclarations members) := by
  let late := members.filterMap Member.functionDeclaration? ++
    (globalVariables members).map Declaration.variable
  have hdeclarations : programDeclarations known members =
      packageDeclarations known members ++ ((structDeclarations members).map .struct ++ late) := by
    rw [programDeclarations, List.append_assoc, List.append_assoc]
  have hfront (taken : List String) : (firsts (fun d : Declaration => d.name.name) taken
      (packageDeclarations known members)).filterMap Declaration.asStruct? = [] := by
    rw [List.filterMap_eq_nil_iff]
    intro d hd
    exact asStruct?_of_other known members (.inl ((sift_sublist _ _ _).subset hd))
  have hback (taken : List String) : (firsts (fun d : Declaration => d.name.name) taken
      late).filterMap Declaration.asStruct? = [] := by
    rw [List.filterMap_eq_nil_iff]
    intro d hd
    exact asStruct?_of_other known members (.inr ((sift_sublist _ _ _).subset hd))
  rw [keptStructs, hdeclarations, firsts_append, firsts_append, List.filterMap_append,
    List.filterMap_append, hfront, hback, List.nil_append, List.append_nil, firsts_map,
    List.filterMap_map]
  exact List.filterMap_some

open Walk in
/-- Packages, what is used of them and structures are declared, and the structures that are kept are
those that get fields. -/
theorem declares_earlyMade :
    (beginning last).Declares (structsNamed known last members).2 [] ⟨earlyMade known members, []⟩ ∧
      (structsNamed known last members).1 = keptStructs known members := by
  let packages := (packageReferences members).map (packageMade known)
  have hstart : (beginning last).scope.inner = .ofMade [] := rfl
  have hpackages : (beginning last).Declares (packagesDeclared known last members) []
      ⟨packages, []⟩ :=
    declares_foldl (packageMade known) (fun _ _ => rfl) (packageReferences members) hstart
  have hsymbols : packages.map Made.symbol = (packageSymbols known members).map .package ++ [] := by
    rw [List.append_nil, packageSymbols, List.map_map, List.map_map]
    rfl
  have hpackageless : (packagesDeclared known last members).scope.Packageless := by
    unfold Scope.Packageless Scope.around?
    rw [hpackages.outer]
    exact packageless_beginning last
  have huses : (beginning last).Declares (usesDeclared known last members) []
      ⟨packagesMade known members, []⟩ :=
    hpackages.trans (declares_packageUses hpackages.inner hpackageless hsymbols
      (List.forall_mem_nil _) (packageUses members))
  obtain ⟨hstructs, haccepted⟩ := declares_structNames huses.inner (structDeclarations members)
  have hnames : (packagesMade known members).map (·.name.name) =
      (packageDeclarations known members).map (·.name.name) := by
    rw [← map_packagesMade, List.map_map]
    rfl
  refine ⟨huses.trans hstructs, ?_⟩
  rw [keptStructs_eq, ← hnames]
  exact haccepted

open Walk in
/-- Structures get their fields in the program's region, and fields of one name are found to be
declared already. -/
theorem structsDeclared_made :
    (structsDeclared known last members).scope.inner =
        .ofMade ((earlyMade known members).map (Made.setAll (givenFields known last members))) ∧
      (doubles (structsDeclared known last members).findings).Perm
        (repeats Ident.name [] ((earlyMade known members).map Made.name) ++
          (keptStructs known members).flatMap StructDeclaration.repeated) := by
  obtain ⟨hearly, haccepted⟩ := declares_earlyMade known last members
  let named := (structsNamed known last members).2
  let accepted := (structsNamed known last members).1
  have hgiven : structsDeclared known last members =
      (fieldsStep.all.run accepted named).2.within
        (named.scope.setAll (givenFields known last members)) :=
    foldl_structFields (w := named) (s := named.scope) (fun names => named.scope.alike_refl names)
      accepted
  have hdoubles := (named.giveFields_firsts accepted).2
  rw [hgiven]
  constructor
  · change named.scope.inner.setAll _ = _
    rw [hearly.inner, Region.setAll_ofMade]
    rfl
  · change (doubles (fieldsStep.all.run accepted named).2.findings).Perm _
    rw [hdoubles]
    refine (hearly.doubles.append_right _).trans (.of_eq ?_)
    rw [← haccepted]
    change (([] ++ (repeats Ident.name [] ((earlyMade known members).map Made.name) ++ [])) ++ _) =
      _
    rw [List.nil_append, List.append_nil]

open Walk in
/-- Once all members are declared, the program's region holds what they make, and the names that are
found to be declared already are those that are not the first of theirs. -/
theorem declaring_made :
    (declaring known last members).scope.inner = .ofMade (programMade known last members) ∧
      (doubles (declaring known last members).findings).Perm (programRepeats known members) := by
  obtain ⟨hinner, hstructs⟩ := structsDeclared_made known last members
  have hsignatures := declares_signatures hinner members
  have hlate := hsignatures.trans (declares_globals hsignatures.inner (globalVariables members))
  constructor
  · rw [programMade, List.append_assoc]
    exact hlate.inner
  let late := (structsDeclared known last members).signaturesMade members ++
    (functionsDeclared known last members).globalsMade (globalVariables members)
  have hearly : ((earlyMade known members).map (Made.setAll (givenFields known last members))).map
      Made.name = (earlyMade known members).map Made.name := by
    rw [List.map_map]
    rfl
  have hnames : (programDeclarations known members).map Declaration.name =
      (earlyMade known members).map Made.name ++ late.map Made.name := by
    rw [← hearly, ← List.map_append, ← List.append_assoc, ← map_programMade known last members,
      List.map_map]
    rfl
  have hall := hlate.doubles.trans (hstructs.append_right _)
  rw [hearly] at hall
  rw [programRepeats, hnames, repeats_append]
  refine hall.trans ?_
  change ((repeats Ident.name [] ((earlyMade known members).map Made.name) ++ _) ++
    (repeats Ident.name (((earlyMade known members).map Made.name).map Ident.name)
      (late.map Made.name) ++ [])).Perm _
  rw [List.append_nil, List.append_assoc, List.append_assoc]
  exact List.Perm.append_left _ List.perm_append_comm

/-- All names that a program is found to declare again. -/
theorem bindProgram_doubles :
    ((bindProgram known last members).errors.filterMap SemanticError.double?).Perm
      (programRepeats known members ++ members.flatMap Member.repeated) := by
  have hsigns : List.Forall₂ Signs (functionDeclarations members)
      ((Walk.beginning last).declareMembers known members).1 := Walk.signatures_sign _ members
  have hbodies := (Walk.bindMembers_carries hsigns (Walk.declaring known last members)).2
  exact hbodies.trans ((declaring_made known last members).2.append_right _)

/-- A declaration in a program's region that is not the first of its name is reported. -/
theorem mem_errors_of_mem_repeats {d : Declaration}
    (h : d ∈ repeats (·.name.name) [] (programDeclarations known members)) :
    ⟨.alreadyDeclared d.name.name, d.name.span⟩ ∈ (bindProgram known last members).errors := by
  have hname : d.name ∈
      repeats Ident.name [] ((programDeclarations known members).map Declaration.name) := by
    rw [repeats_map]
    exact List.mem_map_of_mem h
  have hdouble := (bindProgram_doubles known last members).mem_iff.2
    (List.mem_append_left _ (List.mem_append_left _ hname))
  obtain ⟨e, he, hn⟩ := List.mem_filterMap.1 hdouble
  rwa [SemanticError.double?_eq_some_iff.1 hn] at he

end

/-! ### The symbols that declarations make -/

/-- Whether a function is the one that is declared without a body. -/
structure ExternalDeclaration.Declares (d : ExternalDeclaration) (f : FunctionSymbol) : Prop where
  name : f.name = d.name.name
  parameters : List.Forall₂
    (fun p v => v.name = p.name.name ∧ v.declaration = some p.name.span) d.parameters f.parameters
  declaration : f.declaration = some (Member.external d).span
  isExternal : f.isExternal = true
  isPublic : f.isPublic = true
  isBuiltin : f.isBuiltin = false

open Walk in
/-- The symbol that a declaration makes in a program's region. A function with a body has the symbol
that its body is bound with, a structure has its fields, and a global variable is the one of its
site. -/
def Declaration.Makes (known : List PackageSymbol) (last : Nat) (members : List Member) :
    Declaration → Symbol → Prop
  | .package span name, s => s = .package (packageSymbol known span name)
  | .imported _ f, s => s = .function f
  | .struct d, s => ∃ fields, d.MakesFields (structsNamed known last members).2.scope fields ∧
      s = .struct ⟨d.name.name, fields, some (Member.struct d).span⟩
  | .function d, s => ∃ f, s = .function f ∧ d.Declares f ∧ Signs d f ∧
      (d, f) ∈ (functionDeclarations members).zip
        ((bindProgram known last members).functions.map BoundFunction.symbol)
  | .external d, s => ∃ f, s = .function f ∧ d.Declares f
  | .variable d, s => ∃ site ∈ globalVariableSites known last members,
      site.declaration = d ∧ s = .globalVariable site.symbol
  | .parameter _, _ => False

namespace Walk

/-- The declaration of a function makes the symbol that its body is bound with. -/
theorem signaturesMade_function (w : Walk) (members : List Member) {m : Made}
    (hm : m ∈ w.signaturesMade members) :
    (∃ d f, m.entry = (.function d, .function f) ∧ d.Declares f ∧ Signs d f ∧
      (d, f) ∈ (functionDeclarations members).zip (w.signatures members).1) ∨
    ∃ d f, m.entry = (.external d, .function f) ∧ d.Declares f := by
  induction members generalizing w with
  | nil => cases hm
  | cons member others ih =>
    cases member with
    | function d =>
      rcases List.mem_cons.1 hm with rfl | hm
      · exact .inl ⟨d, _, rfl, ⟨rfl, rfl, rfl, rfl, rfl⟩, ⟨rfl, parameters_sign w d.parameters⟩,
          List.mem_cons_self⟩
      · rcases ih _ hm with ⟨e, f, hentry, hdeclares, hsigns, hmem⟩ | hexternal
        · exact .inl ⟨e, f, hentry, hdeclares, hsigns, List.mem_cons_of_mem _ hmem⟩
        · exact .inr hexternal
    | external d =>
      rcases List.mem_cons.1 hm with rfl | hm
      · exact .inr ⟨d, _, rfl, rfl, parameters_sign w d.parameters, rfl, rfl, rfl, rfl⟩
      · exact ih _ hm
    | _ => exact ih w hm

theorem globalsMade_site (final : Scope) (w : Walk) (ds : List VariableDeclaration) {m : Made}
    (hm : m ∈ w.globalsMade ds) :
    ∃ site ∈ globalSites final w ds,
      m.entry = (.variable site.declaration, .globalVariable site.symbol) := by
  induction ds generalizing w with
  | nil => cases hm
  | cons d others ih =>
    rcases List.mem_cons.1 hm with rfl | hm
    · exact ⟨_, List.mem_cons_self, rfl⟩
    · obtain ⟨site, hsite, hentry⟩ := ih _ hm
      exact ⟨site, List.mem_cons_of_mem _ hsite, hentry⟩

end Walk

section

variable (known : List PackageSymbol) (last : Nat) (members : List Member)

/-- A structure that is kept gets its own fields. -/
theorem givenFields_kept {d : StructDeclaration} (hd : d ∈ keptStructs known members) :
    ∃ fields, d.MakesFields (Walk.structsNamed known last members).2.scope fields ∧
      (givenFields known last members).reverse.find? (·.1 == d.name.name) =
        some (d.name.name, fields) := by
  have hgiven := ((Walk.structsNamed known last members).2.giveFields_firsts
    (Walk.structsNamed known last members).1).1
  have hmap := Walk.map_fieldsStep (Walk.structsNamed known last members).1
    (Walk.structsNamed known last members).2
  rw [(declares_earlyMade known last members).2] at hgiven hmap
  have hnames : ((givenFields known last members).reverse.map Prod.fst).Nodup := by
    rw [List.map_reverse, List.nodup_reverse, givenFields,
      (declares_earlyMade known last members).2, hmap, keptStructs_eq]
    exact nodup_names_firsts _ _
  obtain ⟨⟨name, fields⟩, hf, rfl, hfields⟩ := exists_mem_of_forall₂ hgiven hd
  refine ⟨fields, hfields, ?_⟩
  rw [← (declares_earlyMade known last members).2] at hf
  have hmem : (d.name.name, fields) ∈ (givenFields known last members).reverse :=
    List.mem_reverse.2 hf
  have hfound : ((givenFields known last members).reverse.find? (·.1 == d.name.name)).isSome :=
    List.find?_isSome.2 ⟨_, hmem, by simp⟩
  obtain ⟨g, hg⟩ := Option.isSome_iff_exists.1 hfound
  have hname : g.1 = d.name.name := by simpa using List.find?_some hg
  rw [hg, List.inj_on_of_nodup_map hnames (List.mem_of_find?_eq_some hg) hmem hname]

/-- The first declaration of each name in a program's region makes its symbol. -/
theorem makes_of_mem_firsts {m : Made}
    (hm : m ∈ firsts (·.name.name) [] (programMade known last members)) :
    m.declaration.Makes known last members m.symbol := by
  have hmem := (sift_sublist _ _ _).subset hm
  rcases List.mem_append.1 hmem with hmem | hmem
  · rcases List.mem_append.1 hmem with hmem | hmem
    · obtain ⟨early, hearly, rfl⟩ := List.mem_map.1 hmem
      rcases List.mem_append.1 hearly with hearly | hearly
      · rcases List.mem_append.1 hearly with hearly | hearly
        · obtain ⟨reference, -, rfl⟩ := List.mem_map.1 hearly
          exact Symbol.setAll_of_asStruct?_eq_none rfl _
        · obtain ⟨use, -, himport⟩ := List.mem_flatMap.1 hearly
          obtain ⟨f, -, rfl⟩ := List.mem_map.1 himport
          exact Symbol.setAll_of_asStruct?_eq_none rfl _
      · obtain ⟨d, -, rfl⟩ := List.mem_map.1 hearly
        have hkept : d ∈ keptStructs known members := by
          have hfirst : Declaration.struct d ∈
              firsts (·.name.name) [] (programDeclarations known members) := by
            rw [← map_programMade known last members, firsts_map]
            exact List.mem_map.2 ⟨_, hm, rfl⟩
          exact List.mem_filterMap.2 ⟨_, hfirst, rfl⟩
        obtain ⟨fields, hfields, hfind⟩ := givenFields_kept known last members hkept
        refine ⟨fields, hfields, ?_⟩
        change (Walk.structSymbol d).setAll _ = _
        rw [Walk.structSymbol, Symbol.setAll_struct, hfind]
        rfl
    · have hsymbols : (bindProgram known last members).functions.map BoundFunction.symbol =
          ((Walk.structsDeclared known last members).signatures members).1 :=
        Walk.bindMembers_symbols (Walk.signatures_sign _ members) _
      obtain ⟨declaration, symbol, hnamed⟩ := m
      rcases Walk.signaturesMade_function _ members hmem with
        ⟨d, f, hentry, hdeclares, hsigns, hpair⟩ | ⟨d, f, hentry, hdeclares⟩
      · obtain ⟨rfl, rfl⟩ := Prod.mk.inj hentry
        exact ⟨f, rfl, hdeclares, hsigns, hsymbols ▸ hpair⟩
      · obtain ⟨rfl, rfl⟩ := Prod.mk.inj hentry
        exact ⟨f, rfl, hdeclares⟩
  · obtain ⟨declaration, symbol, hnamed⟩ := m
    obtain ⟨site, hsite, hentry⟩ := Walk.globalsMade_site
      (Walk.declaring known last members).scope _ _ hmem
    obtain ⟨rfl, rfl⟩ := Prod.mk.inj hentry
    exact ⟨site, hsite, rfl, rfl⟩

/-- Binding the bodies leaves the region of a program as its declarations have made it. -/
theorem bindProgram_region : (⟨(bindProgram known last members).symbols⟩ : Region) =
    .ofMade (programMade known last members) :=
  (congrArg Scope.inner (programScope_eq known last members)).trans
    (declaring_made known last members).1

/-- A name stands for its first declaration. -/
theorem bindProgram_symbol? (name : String) : (bindProgram known last members).symbol? name =
    ((programMade known last members).find? (·.name.name == name)).map Made.symbol := by
  have hnames : (fun s : Symbol => s.name == name) ∘ Made.symbol =
      fun m : Made => m.name.name == name :=
    funext fun m => congrArg (· == name) m.named
  change (Region.mk (bindProgram known last members).symbols).lookup? name = _
  rw [bindProgram_region, Region.ofMade, Region.lookup?_ofDeclared, List.find?_map, hnames]

end

/-- The region of a program holds its symbols in the order of their names, and for each name the
first declaration, as it was made: packages come before functions that are used of them, these
before structures, functions and global variables, each in the order of the members. Every other
declaration of a name is found to be declared already, once, and so are all fields of the kept
structures that are not the first of their name, and nothing else but what is declared in bodies. -/
theorem bindProgram_firstDeclarations (known : List PackageSymbol) (last : Nat)
    (members : List Member) :
    let p := bindProgram known last members
    let made := programMade known last members
    made.map Made.declaration = programDeclarations known members ∧
      (Region.mk p.symbols).HoldsFirsts made ∧
      (∀ name, p.symbol? name = (made.find? (·.name.name == name)).map Made.symbol) ∧
      (∀ m ∈ firsts (·.name.name) [] made, m.declaration.Makes known last members m.symbol) ∧
      (p.errors.filterMap SemanticError.double?).Perm
        (programRepeats known members ++ members.flatMap Member.repeated) := by
  intro p made
  refine ⟨map_programMade known last members, ?_, bindProgram_symbol? known last members, ?_,
    bindProgram_doubles known last members⟩
  · rw [bindProgram_region]
    exact holdsFirsts_ofMade made
  · intro m hm
    exact makes_of_mem_firsts known last members hm

end TodLang
