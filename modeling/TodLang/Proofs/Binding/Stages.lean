import TodLang.Proofs.Binding.Sites
/-!
The sites of a whole program, stage by stage. What binding a program finds of names is what comes of
its sites, one after another (`bindProgram_lookups`), and the references of the sites are those that
can be read off the tree (`map_programSites`).
-/

namespace TodLang

open Finding (lookups Composed)
open Reference (Explains explains_nil explains_single explains_aside)

namespace Walk

variable {P : Span → Prop}

/-- The sites of a walk that does one thing after another. -/
def follow {α : Type} (step : Walk → α → Walk) (sites : Walk → α → List Site) (w : Walk) :
    List α → List Site
  | [] => []
  | x :: others => sites w x ++ follow step sites (step w x) others

section

variable {α : Type} {step : Walk → α → Walk} {sites : Walk → α → List Site}

theorem adds_foldl (hstep : ∀ w x, Adds P w (step w x) (sites w x)) (w : Walk) (l : List α) :
    w.Adds P (l.foldl step w) (follow step sites w l) := by
  induction l generalizing w with
  | nil => exact adds_nil rfl rfl
  | cons x others ih => exact (hstep w x).trans (ih (step w x))

theorem adds_foldl_nil (hstep : ∀ w x, Adds P w (step w x) []) (w : Walk) (l : List α) :
    w.Adds P (l.foldl step w) [] := by
  induction l generalizing w with
  | nil => exact adds_nil rfl rfl
  | cons x others ih => exact (hstep w x).trans (ih (step w x))

theorem map_follow {references : α → List Reference}
    (hsites : ∀ w x, (sites w x).map Site.reference = references x) (w : Walk) (l : List α) :
    (follow step sites w l).map Site.reference = l.flatMap references := by
  induction l generalizing w with
  | nil => rfl
  | cons x others ih => rw [follow, List.map_append, hsites, ih, List.flatMap_cons]

end

/-! ### Declaring the members -/

theorem adds_packageReference (known : List PackageSymbol) (w : Walk) (span : Span)
    (name : Ident) : w.Adds P (w.packageReference known span name) [] :=
  w.adds_declare ..

theorem adds_packageUse (w : Walk) (name : Ident) :
    w.Adds P (w.packageUse name) (w.sitesOf [.packageUse name]) := by
  have hreport : w.Adds P (w.report (w.scope.usePackage name)) (w.sitesOf [.packageUse name]) :=
    w.adds_report (explains_single (.packageUse name))
  unfold packageUse
  unfold Scope.usePackage at hreport
  cases hpackage : w.scope.lookupPackage? name.name with
  | none =>
    rw [hpackage] at hreport
    exact hreport
  | some package =>
    rw [hpackage] at hreport
    have hall := hreport.trans (adds_foldl_nil
      (fun w f => adds_declare w (.function f) name.span) _ package.functions)
    rwa [List.append_nil] at hall

/-- After the type of a field or a parameter, the others. -/
theorem Adds.parameters {w w' : Walk} {p : Parameter} {others : List Parameter}
    (h : (w.type p.type).2.Adds P w' (w.sitesOf (parameterReferences others))) :
    w.Adds P w' (w.sitesOf (parameterReferences (p :: others))) :=
  (w.adds_type p.type).trans h

theorem adds_fields (w : Walk) (known : List Variable) (ps : List Parameter) :
    w.Adds P (w.fields known ps).2 (w.sitesOf (parameterReferences ps)) := by
  induction ps generalizing w known with
  | nil => exact adds_nil rfl rfl
  | cons field others ih =>
    apply Adds.parameters
    unfold fields
    dsimp only
    split
    · have hfault : Explains w.typeFunctions w.scope P []
          [.fault (.alreadyDeclared field.name.name) field.name.span] := explains_aside trivial
      exact ((w.type field.type).2.adds_report hfault).trans (ih _ known)
    · exact (ih (w.type field.type).2.countVariable _).precede rfl rfl

theorem adds_structNames (w : Walk) (ds : List StructDeclaration) :
    w.Adds P (w.structNames ds).2 [] := by
  induction ds generalizing w with
  | nil => exact adds_nil rfl rfl
  | cons d others ih => exact (w.adds_declare _ d.name.span).trans (ih (w.structName d).2)

theorem adds_structFields (w : Walk) (d : StructDeclaration) :
    w.Adds P (w.structFields d) (w.sitesOf (parameterReferences d.fields)) :=
  (w.adds_fields [] d.fields).congr rfl rfl

theorem adds_parameters (w : Walk) (ps : List Parameter) :
    w.Adds P (w.parameters ps).2 (w.sitesOf (parameterReferences ps)) := by
  induction ps generalizing w with
  | nil => exact adds_nil rfl rfl
  | cons p others ih =>
    apply Adds.parameters
    exact (ih (w.type p.type).2.countVariable).precede rfl rfl

theorem adds_signature (w : Walk) (name : Ident) (ps : List Parameter)
    (returnType : Option TypeClause) (span : Span) :
    w.Adds P (w.signature name ps returnType span).2
      (w.sitesOf (headReferences ps returnType)) := by
  have hparameters : w.Adds P _ _ := w.adds_parameters ps
  have hscope := w.parameters_scope ps
  rw [headReferences, sitesOf_append]
  cases returnType with
  | none => exact hparameters.trans (adds_nil rfl rfl)
  | some clause =>
    have htype : (w.parameters ps).2.Adds P _ _ := (w.parameters ps).2.adds_type clause
    rw [sitesOf, hscope] at htype
    exact hparameters.trans htype

theorem signatures_snd (w : Walk) (members : List Member) :
    (w.signatures members).2 = members.foldl (fun w member => (w.signatures [member]).2) w := by
  induction members generalizing w with
  | nil => rfl
  | cons member others ih =>
    rw [List.foldl_cons, ← ih]
    cases member <;> rfl

theorem adds_signatures (w : Walk) (member : Member) :
    w.Adds P (w.signatures [member]).2 (w.sitesOf member.signatureReferences) := by
  cases member with
  | function f =>
    have hsignature : w.Adds P _ _ :=
      w.adds_signature f.name f.parameters f.returnType (Member.function f).span
    exact hsignature.declare _ f.name.span
  | external e =>
    have hsignature : w.Adds P _ _ :=
      w.adds_signature e.name e.parameters e.returnType (Member.external e).span
    exact hsignature.declare _ e.name.span
  | _ => exact adds_nil rfl rfl

/-! ### Binding the members -/

/-- The sites of the bodies of a program, the values of its global variables and its other
statements. -/
def bodySites (w : Walk) : List Member → List FunctionSymbol → List Site
  | [], _ => []
  | .function f :: others, symbol :: symbols =>
    ({ w with closed := [] }.enter.declareParameters f.body.opening symbol.parameters).sitesAll
      f.body.statements ++ (w.functionBody symbol f.body).2.bodySites others symbols
  | .statement (.declaration d) :: others, symbols =>
    w.sitesOf d.valueReferences ++ (w.optionalExpression d.value).bodySites others symbols
  | .statement s :: others, symbols =>
    w.enter.sites s ++ (w.globalStatement s).bodySites others symbols
  | _ :: others, symbols => w.bodySites others symbols

theorem adds_functionBody (w : Walk) (symbol : FunctionSymbol) {body : Block}
    (hbody : ∀ span ∈ Statement.structuresAll body.statements, P span) :
    w.Adds P (w.functionBody symbol body).2
      (({ w with closed := [] }.enter.declareParameters body.opening symbol.parameters).sitesAll
        body.statements) := by
  let inside := { w with closed := [] }.enter.declareParameters body.opening symbol.parameters
  have henter : w.Adds P { w with closed := [] }.enter [] := adds_nil rfl rfl
  have hparameters : { w with closed := [] }.enter.Adds P inside [] :=
    adds_foldl_nil (fun w p => adds_declare w (.parameter p) _) _ symbol.parameters
  have hall := (henter.trans hparameters).trans (adds_statements inside body.statements hbody)
  have hleave := hall.trans (adds_leave _)
  rw [List.append_nil] at hleave
  exact hleave.congr rfl rfl

theorem adds_globalStatement (w : Walk) {s : Statement} (hs : ∀ span ∈ s.structures, P span) :
    w.Adds P (w.globalStatement s) (w.enter.sites s) :=
  (adds_statement w.enter s hs).inside.congr rfl rfl

theorem adds_members (w : Walk) {members : List Member} (symbols : List FunctionSymbol)
    (hmembers : ∀ member ∈ members, ∀ span ∈ member.structures, P span) :
    w.Adds P (w.bindMembers members symbols).2 (w.bodySites members symbols) := by
  induction members generalizing w symbols with
  | nil => exact adds_nil rfl rfl
  | cons member others ih =>
    obtain ⟨hmember, hothers⟩ := List.forall_mem_cons.1 hmembers
    cases member with
    | function f =>
      cases symbols with
      | nil => exact ih w [] hothers
      | cons symbol symbols =>
        exact (w.adds_functionBody symbol hmember).trans (ih _ symbols hothers)
    | statement s =>
      have hstatement :=
        (w.adds_globalStatement hmember).trans (ih (w.globalStatement s) symbols hothers)
      cases s with
      | declaration d =>
        have hvalue := w.adds_optionalExpression hmember
        exact hvalue.trans (ih (w.optionalExpression d.value) symbols hothers)
      | _ => exact hstatement
    | _ => exact ih w symbols hothers

/-- If every function has its symbol, the sites of the bodies are those of all references in
them. -/
theorem map_bodySites {members : List Member} {symbols : List FunctionSymbol}
    (h : List.Forall₂ Signs (functionDeclarations members) symbols) (w : Walk) :
    (w.bodySites members symbols).map Site.reference = members.flatMap Member.bodyReferences := by
  induction members generalizing w symbols with
  | nil => rfl
  | cons member others ih =>
    cases member with
    | function f =>
      cases h with
      | cons _ hrest =>
        rw [bodySites, List.map_append, map_sitesAll, ih hrest]
        rfl
    | statement s =>
      have hothers := ih h (w.globalStatement s)
      cases s with
      | declaration d =>
        rw [bodySites, List.map_append, map_sitesOf, ih h]
        rfl
      | _ =>
        rw [bodySites, List.map_append, map_sites, hothers]
        · rfl
        · intro d hd
          cases hd
    | _ => exact ih h w

/-! ### The whole program -/

/-- The walk once the packages are declared. -/
def packagesDeclared (known : List PackageSymbol) (last : Nat) (members : List Member) : Walk :=
  (packageReferences members).foldl
    (fun w reference => w.packageReference known reference.1 reference.2) (beginning last)

/-- The walk once the functions of the used packages are declared, too. -/
def usesDeclared (known : List PackageSymbol) (last : Nat) (members : List Member) : Walk :=
  (packageUses members).foldl packageUse (packagesDeclared known last members)

/-- The walk once the structures are declared without their fields, and those that were the first
of their name. -/
def structsNamed (known : List PackageSymbol) (last : Nat) (members : List Member) :
    List StructDeclaration × Walk :=
  (usesDeclared known last members).structNames (structDeclarations members)

/-- The walk once the structures have their fields. -/
def structsDeclared (known : List PackageSymbol) (last : Nat) (members : List Member) : Walk :=
  (structsNamed known last members).1.foldl structFields (structsNamed known last members).2

/-- The walk once the functions are declared. -/
def functionsDeclared (known : List PackageSymbol) (last : Nat) (members : List Member) : Walk :=
  ((structsDeclared known last members).signatures members).2

end Walk

open Walk in
/-- The sites of a program, in the order in which they are bound. -/
def programSites (known : List PackageSymbol) (last : Nat) (members : List Member) : List Site :=
  follow packageUse (fun w name => w.sitesOf [.packageUse name])
      (packagesDeclared known last members) (packageUses members) ++
    follow structFields (fun w d => w.sitesOf (parameterReferences d.fields))
      (structsNamed known last members).2 (structsNamed known last members).1 ++
    follow (fun w member => (w.signatures [member]).2)
      (fun w member => w.sitesOf member.signatureReferences) (structsDeclared known last members)
      members ++
    follow (declareVariable · .globalVariable ·) (fun w d => w.sitesOf d.typeReferences)
      (functionsDeclared known last members) (globalVariables members) ++
    (declaring known last members).bodySites members
      ((structsDeclared known last members).signatures members).1

open Walk in
/-- Declaring the members of a program adds their sites. -/
theorem Walk.adds_declaring {P : Span → Prop} (known : List PackageSymbol) (last : Nat)
    (members : List Member) :
    (beginning last).Adds P (declaring known last members)
      (follow packageUse (fun w name => w.sitesOf [.packageUse name])
          (packagesDeclared known last members) (packageUses members) ++
        follow structFields (fun w d => w.sitesOf (parameterReferences d.fields))
          (structsNamed known last members).2 (structsNamed known last members).1 ++
        follow (fun w member => (w.signatures [member]).2)
          (fun w member => w.sitesOf member.signatureReferences)
          (structsDeclared known last members) members ++
        follow (declareVariable · .globalVariable ·) (fun w d => w.sitesOf d.typeReferences)
          (functionsDeclared known last members) (globalVariables members)) := by
  have hpackages : (beginning last).Adds P (packagesDeclared known last members) [] := by
    apply adds_foldl_nil
    intro w reference
    exact adds_packageReference known w reference.1 reference.2
  have huses : Adds P _ _ _ := adds_foldl adds_packageUse (packagesDeclared known last members)
    (packageUses members)
  have hnames : Adds P _ _ _ :=
    (usesDeclared known last members).adds_structNames (structDeclarations members)
  have hfields : Adds P _ _ _ := adds_foldl adds_structFields (structsNamed known last members).2
    (structsNamed known last members).1
  have hsignatures : Adds P _ _ _ :=
    adds_foldl adds_signatures (structsDeclared known last members) members
  rw [← signatures_snd] at hsignatures
  have hglobals : Adds P _ _ _ :=
    adds_foldl (fun w d => adds_declareVariable w .globalVariable d)
      (functionsDeclared known last members) (globalVariables members)
  have hnaming := ((hpackages.trans huses).trans hnames).trans hfields
  have hall := (hnaming.trans hsignatures).trans hglobals
  rwa [List.nil_append, List.append_nil] at hall

open Walk in
/-- What binding a program finds is what comes of its sites, one after another. In between, only
names are declared twice and fields of structures are counted. -/
theorem bindProgram_composed {P : Span → Prop} (known : List PackageSymbol) (last : Nat)
    (members : List Member) (hmembers : ∀ member ∈ members, ∀ span ∈ member.structures, P span) :
    Composed P ((programSites known last members).map (Site.findings (typeFunctions last)))
      (bindProgram known last members).findings := by
  have hdeclaring : Adds P _ _ _ := adds_declaring known last members
  have hbodies := (declaring known last members).adds_members
    ((structsDeclared known last members).signatures members).1 hmembers
  obtain ⟨found, hfound, hcomposed⟩ := (hdeclaring.trans hbodies).findings
  have hprogram : (bindProgram known last members).findings = found := hfound
  rw [hprogram]
  exact hcomposed

/-- What binding a program finds of names is what comes of its sites, one after another. -/
theorem bindProgram_lookups (known : List PackageSymbol) (last : Nat) (members : List Member) :
    lookups (bindProgram known last members).findings =
      (programSites known last members).flatMap (Site.lookups (typeFunctions last)) := by
  have hcomposed : Composed (fun _ => True) _ _ :=
    bindProgram_composed known last members fun _ _ _ _ => trivial
  rw [hcomposed.lookups_eq, List.flatMap_map]
  rfl

/-- What is done for the members of one kind is done member by member. -/
theorem flatMap_filterMap_eq {α β γ : Type} {pick : α → Option β} {f : β → List γ} {g : α → List γ}
    (h : ∀ a, g a = (pick a).elim [] f) (l : List α) :
    (l.filterMap pick).flatMap f = l.flatMap g := by
  induction l with
  | nil => rfl
  | cons a others ih =>
    rw [List.flatMap_cons, h, ← ih]
    cases hpick : pick a with
    | none => rw [List.filterMap_cons_none hpick, Option.elim_none, List.nil_append]
    | some b => rw [List.filterMap_cons_some hpick, Option.elim_some, List.flatMap_cons]

theorem flatMap_filter_eq {α γ : Type} (p : α → Bool) (f : α → List γ) (l : List α) :
    (l.filter p).flatMap f = l.flatMap fun a => if p a then f a else [] := by
  rw [← List.filterMap_eq_filter]
  apply flatMap_filterMap_eq
  intro a
  cases hp : p a <;> simp [Option.guard, hp]

open Walk in
/-- The references of a program's sites are those that can be read off the tree, if it is known
which structures are accepted. -/
theorem map_programSites {known : List PackageSymbol} {last : Nat} {members : List Member}
    {accepted : StructDeclaration → Bool}
    (haccepted : (structsNamed known last members).1 =
      (structDeclarations members).filter accepted) :
    (programSites known last members).map Site.reference = programReferences accepted members := by
  have huses : (packageUses members).flatMap (fun name => [Reference.packageUse name]) =
      members.flatMap (Member.references accepted .uses) := by
    apply flatMap_filterMap_eq
    intro member
    cases member <;> rfl
  have hfields : ((structDeclarations members).filter accepted).flatMap
      (fun d => parameterReferences d.fields) =
        members.flatMap (Member.references accepted .fields) := by
    rw [flatMap_filter_eq]
    apply flatMap_filterMap_eq
    intro member
    cases member <;> rfl
  have hglobals : (globalVariables members).flatMap VariableDeclaration.typeReferences =
      members.flatMap (Member.references accepted .globals) := by
    apply flatMap_filterMap_eq
    intro member
    cases member with
    | statement s => cases s <;> rfl
    | _ => rfl
  have hsigns : List.Forall₂ Signs (functionDeclarations members)
      ((structsDeclared known last members).signatures members).1 := signatures_sign _ members
  rw [programSites, List.map_append, List.map_append, List.map_append, List.map_append,
    map_follow (fun w name => map_sitesOf w [.packageUse name]),
    map_follow (fun w d => map_sitesOf w (parameterReferences d.fields)),
    map_follow (fun w member => map_sitesOf w member.signatureReferences),
    map_follow (fun w d => map_sitesOf w d.typeReferences), map_bodySites hsigns, huses,
    haccepted, hfields, hglobals]
  simp only [programReferences, Stage.all, List.flatMap_cons, List.flatMap_nil, List.append_nil,
    List.append_assoc]
  rfl

end TodLang
