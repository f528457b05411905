import TodLang.Proofs.Binding.Origin
import TodLang.Proofs.Binding.Places
/-!
Calls of functions of packages. A call is bound in a body, where every package is one that the
program refers to, so that what is found there is what the known package of that name makes of the
call (`bindProgram_packageCall`). No other reference has a name at its place, so that this is all
that the program says of the call (`answers_of_calls`). The functions that a program declares itself
are the ones that its members sign (`signatures_declares`).
-/

namespace TodLang

open TodLang.Symbol (Comes)

/-- Whether a reference calls a function of a package, itself or behind `main`. The last scope is
the one that the package is looked up in. -/
inductive Reference.Calls (package callee : Ident) (count : Nat) : Reference → Scope → Scope → Prop
  | here (s : Scope) : Calls package callee count (.packageCall package callee count) s s
  | own {r : Reference} {s scope : Scope} (h : Calls package callee count r s.program scope) :
      Calls package callee count (.own r) s scope

namespace Reference.Calls

variable {package callee : Ident} {count : Nat} {r : Reference} {s scope : Scope}

theorem findings (h : r.Calls package callee count s scope) (functions : List TypeFunction) :
    r.findings functions s = scope.usePackageCall package callee count := by
  induction h with
  | here s => rfl
  | own _ ih => exact ih

theorem names (h : r.Calls package callee count s scope) : r.names = [package, callee] := by
  induction h with
  | here s => rfl
  | own _ ih => exact ih

theorem among {A : Symbol → Prop} (h : r.Calls package callee count s scope) (hs : s.Among A) :
    scope.Among A := by
  induction h with
  | here s => exact hs
  | own _ ih => exact ih hs.program

end Reference.Calls

namespace Walk

theorem mem_follow {α : Type} {step : Walk → α → Walk} {sites : Walk → α → List Site} {w : Walk}
    {l : List α} {site : Site} (h : site ∈ follow step sites w l) :
    ∃ v, ∃ x, site ∈ sites v x := by
  induction l generalizing w with
  | nil => cases h
  | cons x others ih =>
    rcases List.mem_append.1 h with h | h
    · exact ⟨w, x, h⟩
    · exact ih h

end Walk

section

variable {package callee : Ident} {count : Nat} {known : List PackageSymbol} {last : Nat}
  {members : List Member} {site : Site} {scope : Scope}

/-- Whether a reference is no more than a written type. -/
def Reference.IsType (r : Reference) : Prop :=
  ∃ clause, r = .type clause

theorem isType_parameterReferences {ps : List Parameter} {r : Reference}
    (h : r ∈ parameterReferences ps) : r.IsType := by
  obtain ⟨p, -, rfl⟩ := List.mem_map.1 h
  exact ⟨p.type, rfl⟩

theorem isType_optional {clause : Option TypeClause} {r : Reference}
    (h : r ∈ (clause.map Reference.type).toList) : r.IsType := by
  cases clause with
  | none => cases h
  | some clause =>
    obtain rfl := List.mem_singleton.1 h
    exact ⟨clause, rfl⟩

theorem isType_signatureReferences {member : Member} {r : Reference}
    (h : r ∈ member.signatureReferences) : r.IsType := by
  cases member with
  | function f =>
    rcases List.mem_append.1 h with h | h
    · exact isType_parameterReferences h
    · exact isType_optional h
  | external e =>
    rcases List.mem_append.1 h with h | h
    · exact isType_parameterReferences h
    · exact isType_optional h
  | _ => cases h

theorem Reference.Calls.not_isType {r : Reference} {s : Scope}
    (h : r.Calls package callee count s scope) : ¬ r.IsType := by
  rintro ⟨clause, rfl⟩
  cases h

theorem Reference.Calls.not_mem_sitesOf {w : Walk} {references : List Reference}
    (h : site.reference.Calls package callee count site.scope scope)
    (hreferences : ∀ r ∈ references, r.IsType) : site ∉ w.sitesOf references := by
  intro hsite
  obtain ⟨r, hr, rfl⟩ := List.mem_map.1 hsite
  exact h.not_isType (hreferences r hr)

/-- Calls stand in the bodies, in the values of global variables and in the other statements. -/
theorem Reference.Calls.mem_bodySites
    (h : site.reference.Calls package callee count site.scope scope)
    (hsite : site ∈ programSites known last members) :
    site ∈ (Walk.declaring known last members).bodySites members
      ((Walk.structsDeclared known last members).signatures members).1 := by
  rcases List.mem_append.1 hsite with hsite | hbodies
  · exfalso
    rcases List.mem_append.1 hsite with hsite | hglobals
    · rcases List.mem_append.1 hsite with hsite | hsignatures
      · rcases List.mem_append.1 hsite with huses | hfields
        · obtain ⟨w, name, hname⟩ := Walk.mem_follow huses
          obtain rfl := List.mem_singleton.1 hname
          cases h
        · obtain ⟨w, d, hd⟩ := Walk.mem_follow hfields
          exact h.not_mem_sitesOf (fun _ => isType_parameterReferences) hd
      · obtain ⟨w, member, hmember⟩ := Walk.mem_follow hsignatures
        exact h.not_mem_sitesOf (fun _ => isType_signatureReferences) hmember
    · obtain ⟨w, d, hd⟩ := Walk.mem_follow hglobals
      exact h.not_mem_sitesOf (fun _ => isType_optional) hd
  · exact hbodies

/-- Where the package of a call is found, the program refers to it, and what is found of the call
is what the package makes of it. -/
theorem bindProgram_packageCall (hsite : site ∈ programSites known last members)
    (hcalls : site.reference.Calls package callee count site.scope scope) {p : PackageSymbol}
    (hp : scope.lookupPackage? package.name = some p) :
    (p ∈ packageSymbols known members ∧ p.name = package.name) ∧
      site.findings (typeFunctions last) =
        .resolved package p.fingerprint :: Scope.usePackageFunction p package callee count := by
  have hscope := hcalls.among (Walk.among_bodySites known last members site
    (hcalls.mem_bodySites hsite))
  refine ⟨hscope.lookupPackage? hp, ?_⟩
  have hcall := hcalls.findings (typeFunctions last)
  unfold Scope.usePackageCall at hcall
  rw [hp] at hcall
  exact hcall

end

/-! ### What a program says of a call -/

/-- Whether a program says of a call what a package makes of it. The function's name stands for the
function of the package, with a fault if the arguments are too few or too many, and if there is no
such function, this is the fault. -/
structure PackageSymbol.Answers (p : PackageSymbol) (package callee : Ident) (count : Nat)
    (program : BoundProgram) : Prop where
  mem_resolutions : ⟨package, some p.fingerprint⟩ ∈ program.resolutions
  resolved_iff : ∀ fingerprint, ⟨callee, some fingerprint⟩ ∈ program.resolutions ↔
    ∃ f ∈ p.functions, f.name = callee.name ∧ f.fingerprint = fingerprint
  undefined_iff : ∀ text, ⟨.undefinedFunction text, callee.span⟩ ∈ program.errors ↔
    text = package.name ++ "::" ++ callee.name ∧ ∀ f ∈ p.functions, f.name ≠ callee.name
  argumentCount_iff : ∀ name expected found,
    ⟨.argumentCount name expected found, callee.span⟩ ∈ program.errors ↔
      (name = callee.name ∧ found = count) ∧
        ∃ f ∈ p.functions, f.name = callee.name ∧ f.parameters.length = expected ∧ expected ≠ count

section

variable {file : Nat} {hashComments : Bool} {source : String} {tokens : List Token}
  {members : List Member} {known : List PackageSymbol} {last : Nat} {site : Site} {scope : Scope}
  {package callee : Ident} {count : Nat} {p : PackageSymbol}

theorem PackageSymbol.exists_function_iff (hsorted : p.functions.Pairwise (·.name < ·.name))
    {name : String} {Q : FunctionSymbol → Prop} :
    (∃ f ∈ p.functions, f.name = name ∧ Q f) ↔ ∃ f, p.function? name = some f ∧ Q f := by
  constructor
  · rintro ⟨f, hf, rfl, hQ⟩
    exact ⟨f, find?_of_sorted hsorted hf, hQ⟩
  · rintro ⟨f, hf, hQ⟩
    exact ⟨f, List.mem_of_find?_eq_some hf, by simpa using List.find?_some hf, hQ⟩

theorem PackageSymbol.forall_function_iff {name : String} :
    (∀ f ∈ p.functions, f.name ≠ name) ↔ p.function? name = none := by
  rw [PackageSymbol.function?, List.find?_eq_none]
  simp only [beq_iff_eq, ne_eq]

namespace Scope

theorem mem_usePackageFunction_resolved {fingerprint : String} :
    .use ⟨callee, some fingerprint⟩ ∈ usePackageFunction p package callee count ↔
      ∃ f, p.function? callee.name = some f ∧ f.fingerprint = fingerprint := by
  unfold usePackageFunction
  cases p.function? callee.name with
  | some f =>
    dsimp only
    rw [List.mem_append, List.mem_singleton]
    unfold checkCount
    split <;> simp [Finding.resolved, Finding.fault, eq_comm (a := fingerprint)]
  | none =>
    dsimp only
    split <;> simp [Finding.unresolved, Finding.fault]

theorem mem_usePackageFunction_undefined (hresolved : p.isResolved = true) {text : String} :
    .error ⟨.undefinedFunction text, callee.span⟩ ∈ usePackageFunction p package callee count ↔
      text = package.name ++ "::" ++ callee.name ∧ p.function? callee.name = none := by
  unfold usePackageFunction
  cases p.function? callee.name with
  | some f =>
    dsimp only
    unfold checkCount
    split <;> simp [Finding.resolved, Finding.fault]
  | none => simp [hresolved, Finding.unresolved, Finding.fault]

theorem mem_usePackageFunction_argumentCount {name : String} {expected found : Nat} :
    .error ⟨.argumentCount name expected found, callee.span⟩ ∈
        usePackageFunction p package callee count ↔
      (name = callee.name ∧ found = count) ∧
        ∃ f, p.function? callee.name = some f ∧ f.parameters.length = expected ∧
          expected ≠ count := by
  unfold usePackageFunction
  cases p.function? callee.name with
  | some f =>
    dsimp only
    unfold checkCount
    split
    · next hcount =>
      constructor
      · intro hmem
        cases List.mem_singleton.1 hmem
      · rintro ⟨-, g, hg, hexpected, hne⟩
        obtain rfl := Option.some.inj hg
        exact absurd (hexpected.symm.trans hcount) hne
    · next hcount =>
      constructor
      · intro hmem
        obtain ⟨rfl, rfl, rfl⟩ : name = callee.name ∧ expected = f.parameters.length ∧
            found = count := by
          simpa [Finding.resolved, Finding.fault] using hmem
        exact ⟨⟨rfl, rfl⟩, f, rfl, rfl, hcount⟩
      · rintro ⟨⟨rfl, rfl⟩, g, hg, rfl, hne⟩
        obtain rfl := Option.some.inj hg
        exact List.mem_cons_self
  | none =>
    dsimp only
    split <;> simp [Finding.unresolved, Finding.fault]

end Scope

/-- The two names of a call stand at different places. -/
theorem Reference.Calls.span_ne (htokens : tokenize file hashComments source = .ok tokens)
    (hparse : parseProgram tokens = .ok members) (hsite : site ∈ programSites known last members)
    (hcalls : site.reference.Calls package callee count site.scope scope) :
    package.span ≠ callee.span := by
  have hnodup := sites_spans_nodup htokens hparse known last
  have hnames := (List.nodup_flatMap.1 hnodup).1 site hsite
  rw [hcalls.names] at hnames
  simpa using hnames

/-- What a program says of a call is what the package makes of it. -/
theorem answers_of_calls (htokens : tokenize file hashComments source = .ok tokens)
    (hparse : parseProgram tokens = .ok members) (hsite : site ∈ programSites known last members)
    (hcalls : site.reference.Calls package callee count site.scope scope)
    (hp : scope.lookupPackage? package.name = some p) (hresolved : p.isResolved = true)
    (hsorted : p.functions.Pairwise (·.name < ·.name)) :
    p.Answers package callee count (bindProgram known last members) := by
  obtain ⟨-, hfindings⟩ := bindProgram_packageCall hsite hcalls hp
  have hne := hcalls.span_ne htokens hparse hsite
  have hfound {g : Finding} (hplace : g.place? = some callee.span) :
      g ∈ (bindProgram known last members).findings ↔
        g ∈ Scope.usePackageFunction p package callee count := by
    have hspan : callee.span ∈ site.reference.names.map Ident.span := by simp [hcalls.names]
    rw [mem_findings_iff htokens hparse hsite hplace hspan, hfindings, List.mem_cons]
    apply or_iff_right
    rintro rfl
    exact hne (Option.some.inj hplace)
  have hpackage : ⟨package, some p.fingerprint⟩ ∈
      (bindProgram known last members).resolutions := by
    have hspan : package.span ∈ site.reference.names.map Ident.span := by simp [hcalls.names]
    rw [BoundProgram.mem_resolutions, mem_findings_iff htokens hparse hsite rfl hspan, hfindings]
    exact List.mem_cons_self
  refine ⟨hpackage, ?_, ?_, ?_⟩
  · intro fingerprint
    rw [BoundProgram.mem_resolutions, hfound rfl, Scope.mem_usePackageFunction_resolved,
      PackageSymbol.exists_function_iff hsorted]
  · intro text
    rw [BoundProgram.mem_errors, hfound rfl, Scope.mem_usePackageFunction_undefined hresolved,
      PackageSymbol.forall_function_iff]
  · intro name expected found
    rw [BoundProgram.mem_errors, hfound rfl, Scope.mem_usePackageFunction_argumentCount,
      PackageSymbol.exists_function_iff hsorted]

end

/-! ### The functions of a program -/

/-- Whether a symbol is the one that a function of a program is given: it is declared where the
function is, and it is public if the function is. -/
structure FunctionDeclaration.Declares (d : FunctionDeclaration) (f : FunctionSymbol) : Prop where
  name : f.name = d.name.name
  declaration : f.declaration = some (Member.function d).span
  isPublic : f.isPublic = d.visibility.isSome
  isExternal : f.isExternal = false
  isBuiltin : f.isBuiltin = false

theorem Walk.signatures_declares (w : Walk) (members : List Member) :
    List.Forall₂ FunctionDeclaration.Declares (functionDeclarations members)
      (w.signatures members).1 := by
  induction members generalizing w with
  | nil => exact .nil
  | cons member others ih =>
    cases member with
    | function f => exact .cons ⟨rfl, rfl, rfl, rfl, rfl⟩ (ih _)
    | external e => exact ih _
    | _ => exact ih w

theorem mem_functionDeclarations {members : List Member} {d : FunctionDeclaration}
    (h : d ∈ functionDeclarations members) : .function d ∈ members := by
  obtain ⟨member, hmember, hfunction⟩ := List.mem_filterMap.1 h
  cases member with
  | function f =>
    obtain rfl := Option.some.inj hfunction
    exact hmember
  | _ => cases hfunction

/-- The program's own region, and where its symbols come from. -/
theorem bindProgram_symbols (known : List PackageSymbol) (last : Nat) (members : List Member) :
    let p := bindProgram known last members
    let signed := p.functions.map BoundFunction.symbol
    List.Forall₂ FunctionDeclaration.Declares (functionDeclarations members) signed ∧
      (Region.mk p.symbols).Valid ∧ ∀ symbol ∈ p.symbols, symbol.Comes known members signed := by
  intro p signed
  let declared := Walk.declaring known last members
  let symbols := ((Walk.structsDeclared known last members).signatures members).1
  have hsigned : signed = symbols :=
    Walk.bindMembers_symbols (Walk.signatures_sign _ members) declared
  have houter : declared.scope.outer = [prelude (last + typeFunctionIds)] :=
    Walk.declareMembers_outer known (Walk.beginning last) members
  have hbound := (Walk.Follows.ofOuter houter).members members symbols
  have hprogram : (⟨p.symbols⟩ : Region) = declared.scope.inner := hbound.inner_eq
  have hdeclared := Walk.orderly_declaring known last members
  rw [hsigned]
  refine ⟨Walk.signatures_declares _ members, ?_, ?_⟩
  · rw [hprogram]
    exact hdeclared.valid
  · intro symbol hsymbol
    apply hdeclared.among declared.scope.inner List.mem_cons_self
    rw [← hprogram]
    exact hsymbol

end TodLang
