import TodLang.Proofs.Binding.Numbers
import TodLang.Proofs.Binding.Unresolved
/-!
The variables that the declarations of a program make, each with the scope that its value is bound
in. A local variable's value is bound in the scope that its type is found in. A global variable's
type is found while the global variables behind it are not declared yet, but its value is bound when
they are. So a variable whose value is a name has the type of what the name stands for if that has
the lesser number, and else the type of a value of which nothing is known
(`inferredType_eq_iff`).
-/

namespace TodLang

open Finding (recorded)

namespace Expression

/-- The name that an expression consists of, perhaps in parentheses. -/
def plainName? : Expression → Option Ident
  | .name n => some n
  | .parenthesized _ inner _ => inner.plainName?
  | _ => none

theorem references_of_plainName {e : Expression} {n : Ident} (h : e.plainName? = some n) :
    e.references = [.value n] := by
  cases e with
  | name m =>
    obtain rfl := Option.some.inj h
    rfl
  | parenthesized opening inner closing => exact references_of_plainName (e := inner) h
  | _ => cases h

theorem inferType_of_plainName {e : Expression} {n : Ident} (h : e.plainName? = some n)
    (functions : List TypeFunction) (s : Scope) : s.inferType functions e = s.variableType n := by
  cases e with
  | name m =>
    obtain rfl := Option.some.inj h
    rfl
  | parenthesized opening inner closing => exact inferType_of_plainName (e := inner) h functions s
  | _ => cases h

end Expression

mutual

/-- The declarations of local variables in a statement. -/
def Statement.declarations : Statement → List VariableDeclaration
  | .block _ statements _ => Statement.declarationsAll statements
  | .declaration d => [d]
  | .ifThen _ _ body => body.declarations
  | .ifElse _ _ body _ alternative => body.declarations ++ alternative.declarations
  | .return _ _ => []
  | .for _ init _ step body => init :: (step.declarations ++ body.declarations)
  | .while _ _ body => body.declarations
  | .break _ => []
  | .continue _ => []
  | .expression _ => []

/-- The declarations of local variables in statements one after another. -/
def Statement.declarationsAll : List Statement → List VariableDeclaration
  | [] => []
  | s :: others => s.declarations ++ Statement.declarationsAll others

end

/-- The declarations of local variables in a member. -/
def Member.localDeclarations : Member → List VariableDeclaration
  | .function f => Statement.declarationsAll f.body.statements
  | .statement (.declaration _) => []
  | .statement s => s.declarations
  | _ => []

/-- A declaration of a variable, the scope that its value is bound in, and the variable that it
makes. -/
structure VariableSite where
  scope : Scope
  declaration : VariableDeclaration
  symbol : Variable

/-- Whether the type of a variable comes from a name alone, and the name stands for a given
variable. -/
structure VariableSite.Copies (site : VariableSite) (name : Ident) (v : Variable) : Prop where
  untyped : site.declaration.type = none
  value : site.declaration.value.bind Expression.plainName? = some name
  found : site.scope.lookupVariable? name.name = some v

namespace Walk

theorem declaredVariable_type (w : Walk) {d : VariableDeclaration} {n : Ident}
    (htype : d.type = none) (hvalue : d.value.bind Expression.plainName? = some n) :
    (w.declaredVariable d).type = w.scope.variableType n := by
  obtain ⟨e, he, hname⟩ := Option.bind_eq_some_iff.1 hvalue
  change (w.declaredType d).1 = w.scope.variableType n
  simp only [declaredType, htype, he]
  exact Expression.inferType_of_plainName hname w.typeFunctions w.scope

theorem variableType_eq {s : Scope} {n : Ident} {v : Variable}
    (h : s.lookupVariable? n.name = some v) : s.variableType n = v.type := by
  rw [Scope.variableType, h]
  rfl

/-! ### Local variables -/

/-- The site of a local variable. -/
def localSite (w : Walk) (d : VariableDeclaration) : VariableSite :=
  ⟨w.scope, d, (w.optionalExpression d.value).declaredVariable d⟩

mutual

/-- The sites of the local variables in a statement. -/
def variableSites (w : Walk) : Statement → List VariableSite
  | .block _ statements _ => w.enter.variableSitesAll statements
  | .declaration d => [w.localSite d]
  | .ifThen _ condition body => (w.expression condition).enter.variableSites body
  | .ifElse _ condition body _ alternative =>
    (w.expression condition).enter.variableSites body ++
      ((w.expression condition).enter.statement body).leave.enter.variableSites alternative
  | .return _ _ => []
  | .for _ init condition step body =>
    let head := (w.enter.localVariable init).expression condition
    w.enter.localSite init ::
      (head.variableSites step ++ (head.statement step).enter.variableSites body)
  | .while _ condition body => (w.expression condition).enter.variableSites body
  | .break _ => []
  | .continue _ => []
  | .expression _ => []

/-- The sites of the local variables in statements one after another. -/
def variableSitesAll (w : Walk) : List Statement → List VariableSite
  | [] => []
  | s :: others => w.variableSites s ++ (w.statement s).variableSitesAll others

end

mutual

theorem map_variableSites (w : Walk) (s : Statement) :
    (w.variableSites s).map VariableSite.declaration = s.declarations := by
  cases s with
  | block opening statements closing => exact map_variableSitesAll w.enter statements
  | declaration d => rfl
  | ifThen keyword condition body => exact map_variableSites (w.expression condition).enter body
  | ifElse keyword condition body elseKeyword alternative =>
    have hbody := map_variableSites (w.expression condition).enter body
    have halternative :=
      map_variableSites ((w.expression condition).enter.statement body).leave.enter alternative
    rw [variableSites, Statement.declarations, List.map_append, hbody, halternative]
  | «return» keyword value => rfl
  | «for» keyword init condition step body =>
    let head := (w.enter.localVariable init).expression condition
    have hstep := map_variableSites head step
    have hbody := map_variableSites (head.statement step).enter body
    rw [variableSites, Statement.declarations, List.map_cons, List.map_append, hstep, hbody]
    rfl
  | «while» keyword condition body => exact map_variableSites (w.expression condition).enter body
  | «break» keyword => rfl
  | «continue» keyword => rfl
  | expression e => rfl

theorem map_variableSitesAll (w : Walk) (statements : List Statement) :
    (w.variableSitesAll statements).map VariableSite.declaration =
      Statement.declarationsAll statements := by
  cases statements with
  | nil => rfl
  | cons s others =>
    have hfirst := map_variableSites w s
    have hothers := map_variableSitesAll (w.statement s) others
    rw [variableSitesAll, Statement.declarationsAll, List.map_append, hfirst, hothers]

end

/-- Whether a local variable that copies another one has its type and a greater number. -/
def Follower (site : VariableSite) : Prop :=
  ∀ n v, site.Copies n v → site.symbol.type = v.type ∧ v.id < site.symbol.id

theorem follower_localSite {w : Walk} (hw : w.Numbered) (d : VariableDeclaration) :
    Follower (w.localSite d) := by
  intro n v h
  have hscope := w.optionalExpression_scope d.value
  have hlast : (w.optionalExpression d.value).last = w.last := by
    cases d.value <;> rfl
  have hfound : w.scope.lookupVariable? n.name = some v := h.found
  constructor
  · have htype := (w.optionalExpression d.value).declaredVariable_type h.untyped h.value
    rw [hscope, variableType_eq hfound] at htype
    exact htype
  · have hid := (w.optionalExpression d.value).declaredVariable_id d
    have hle := hw.lookupVariable? hfound
    change v.id < ((w.optionalExpression d.value).declaredVariable d).id
    omega

mutual

theorem follower_variableSites {w : Walk} (hw : w.Numbered) (s : Statement) :
    ∀ site ∈ w.variableSites s, Follower site := by
  cases s with
  | block opening statements closing =>
    exact follower_variableSitesAll (w.continues_enter.numbered hw) statements
  | declaration d => exact List.forall_mem_singleton.2 (follower_localSite hw d)
  | ifThen keyword condition body | «while» keyword condition body =>
    have hbranch := (w.continues_expression condition).trans (continues_enter _)
    exact follower_variableSites (hbranch.numbered hw) body
  | ifElse keyword condition body elseKeyword alternative =>
    have hbranch := (w.continues_expression condition).trans (continues_enter _)
    have hbody := (continues_statement (w.expression condition).enter body).inside
    have hother := ((w.continues_expression condition).trans hbody).trans (continues_enter _)
    exact List.forall_mem_append.2 ⟨follower_variableSites (hbranch.numbered hw) body,
      follower_variableSites (hother.numbered hw) alternative⟩
  | «for» keyword init condition step body =>
    let head := w.enter.localVariable init
    have henter := w.continues_enter
    have hhead := (henter.trans (w.enter.continues_localVariable init)).trans
      (head.continues_expression condition)
    have hstep := (hhead.trans (continues_statement _ step)).trans (continues_enter _)
    have hrest := List.forall_mem_append.2 ⟨follower_variableSites (hhead.numbered hw) step,
      follower_variableSites (hstep.numbered hw) body⟩
    exact List.forall_mem_cons.2 ⟨follower_localSite (henter.numbered hw) init, hrest⟩
  | «return» keyword value => exact List.forall_mem_nil _
  | «break» keyword => exact List.forall_mem_nil _
  | «continue» keyword => exact List.forall_mem_nil _
  | expression e => exact List.forall_mem_nil _

theorem follower_variableSitesAll {w : Walk} (hw : w.Numbered) (statements : List Statement) :
    ∀ site ∈ w.variableSitesAll statements, Follower site := by
  cases statements with
  | nil => exact List.forall_mem_nil _
  | cons s others =>
    have hfirst := follower_variableSites hw s
    have hothers := follower_variableSitesAll ((w.continues_statement s).numbered hw) others
    exact List.forall_mem_append.2 ⟨hfirst, hothers⟩

end

/-- Whether all values of variables are among the references that are looked up. -/
def Binds (sites : List Site) (made : List VariableSite) : Prop :=
  ∀ site ∈ made, ∀ r ∈ site.declaration.valueReferences, ⟨site.scope, r⟩ ∈ sites

theorem Binds.mono {sites others : List Site} {made : List VariableSite}
    (h : Binds sites made) (hsub : sites ⊆ others) : Binds others made :=
  fun site hsite r hr => hsub (h site hsite r hr)

theorem Binds.append {sites : List Site} {front back : List VariableSite}
    (h : Binds sites front) (hback : Binds sites back) : Binds sites (front ++ back) :=
  List.forall_mem_append.2 ⟨h, hback⟩

theorem binds_nil (sites : List Site) : Binds sites [] :=
  List.forall_mem_nil _

theorem binds_localSite (w : Walk) (d : VariableDeclaration) :
    Binds (w.sitesOf (d.valueReferences ++ d.typeReferences)) [w.localSite d] := by
  intro site hsite r hr
  obtain rfl := List.mem_singleton.1 hsite
  exact List.mem_map.2 ⟨r, List.mem_append_left _ hr, rfl⟩

mutual

theorem binds_variableSites (w : Walk) (s : Statement) :
    Binds (w.sites s) (w.variableSites s) := by
  cases s with
  | block opening statements closing => exact binds_variableSitesAll w.enter statements
  | declaration d => exact w.binds_localSite d
  | ifThen keyword condition body | «while» keyword condition body =>
    have hbody := binds_variableSites (w.expression condition).enter body
    exact hbody.mono (List.subset_append_right ..)
  | ifElse keyword condition body elseKeyword alternative =>
    have hbody := binds_variableSites (w.expression condition).enter body
    have halternative :=
      binds_variableSites ((w.expression condition).enter.statement body).leave.enter alternative
    rw [sites]
    exact ((hbody.mono (List.subset_append_right ..)).mono (List.subset_append_left ..)).append
      (halternative.mono (List.subset_append_right ..))
  | «for» keyword init condition step body =>
    let head := (w.enter.localVariable init).expression condition
    have hinit := w.enter.binds_localSite init
    have hstep := binds_variableSites head step
    have hbody := binds_variableSites (head.statement step).enter body
    have hmade : w.variableSites (.for keyword init condition step body) =
        [w.enter.localSite init] ++ (head.variableSites step ++
          (head.statement step).enter.variableSites body) := by
      rw [variableSites, List.singleton_append]
    rw [sites, hmade, List.append_assoc, List.append_assoc]
    apply Binds.append (hinit.mono (List.subset_append_left ..))
    apply Binds.mono ?_ (List.subset_append_of_subset_right _ (List.subset_append_right ..))
    exact (hstep.mono (List.subset_append_left ..)).append
      (hbody.mono (List.subset_append_right ..))
  | «return» keyword value => exact binds_nil _
  | «break» keyword => exact binds_nil _
  | «continue» keyword => exact binds_nil _
  | expression e => exact binds_nil _

theorem binds_variableSitesAll (w : Walk) (statements : List Statement) :
    Binds (w.sitesAll statements) (w.variableSitesAll statements) := by
  cases statements with
  | nil => exact binds_nil _
  | cons s others =>
    have hfirst := binds_variableSites w s
    have hothers := binds_variableSitesAll (w.statement s) others
    exact (hfirst.mono (List.subset_append_left ..)).append
      (hothers.mono (List.subset_append_right ..))

end

/-- The sites of the local variables of a program. -/
def bodyVariables (w : Walk) : List Member → List FunctionSymbol → List VariableSite
  | [], _ => []
  | .function f :: others, symbol :: symbols =>
    (w.body symbol f.body.opening).variableSitesAll f.body.statements ++
      (w.functionBody symbol f.body).2.bodyVariables others symbols
  | .statement (.declaration d) :: others, symbols =>
    (w.optionalExpression d.value).bodyVariables others symbols
  | .statement s :: others, symbols =>
    w.enter.variableSites s ++ (w.globalStatement s).bodyVariables others symbols
  | _ :: others, symbols => w.bodyVariables others symbols

theorem map_bodyVariables {members : List Member} {symbols : List FunctionSymbol}
    (h : List.Forall₂ Signs (functionDeclarations members) symbols) (w : Walk) :
    (w.bodyVariables members symbols).map VariableSite.declaration =
      members.flatMap Member.localDeclarations := by
  induction members generalizing w symbols with
  | nil => rfl
  | cons member others ih =>
    cases member with
    | function f =>
      cases h with
      | cons _ hrest =>
        rw [bodyVariables, List.map_append, map_variableSitesAll, ih hrest]
        rfl
    | statement s =>
      have hothers := ih h (w.globalStatement s)
      cases s with
      | declaration d => exact ih h (w.optionalExpression d.value)
      | _ =>
        rw [bodyVariables, List.map_append, map_variableSites, hothers]
        · rfl
        · intro d hd
          cases hd
    | _ => exact ih h w

/-- A local variable that copies another one has its type. -/
theorem follower_bodyVariables {w : Walk} (hw : w.Numbered) (members : List Member)
    {symbols : List FunctionSymbol} (hcounts : w.Counts symbols) :
    ∀ site ∈ w.bodyVariables members symbols, Follower site := by
  induction members generalizing w symbols with
  | nil => exact List.forall_mem_nil _
  | cons member others ih =>
    cases member with
    | function f =>
      cases symbols with
      | nil => exact ih hw hcounts
      | cons symbol symbols =>
        obtain ⟨hsymbol, hsymbols⟩ := List.forall_mem_cons.1 hcounts
        have hbody := (continues_body hsymbol f.body.opening).numbered hw
        have hnext := continues_functionBody hsymbol f.body
        have hothers := ih (hnext.numbered hw) (Counts.mono hsymbols hnext.last)
        exact List.forall_mem_append.2 ⟨follower_variableSitesAll hbody _, hothers⟩
    | statement s =>
      have hnext := w.continues_globalStatement s
      have hothers := ih (hnext.numbered hw) (hcounts.mono hnext.last)
      have henter := follower_variableSites (w.continues_enter.numbered hw) s
      cases s with
      | declaration d =>
        have hvalue := w.continues_optionalExpression d.value
        exact ih (hvalue.numbered hw) (hcounts.mono hvalue.last)
      | _ => exact List.forall_mem_append.2 ⟨henter, hothers⟩
    | _ => exact ih hw hcounts

theorem binds_bodyVariables (w : Walk) (members : List Member) (symbols : List FunctionSymbol) :
    Binds (w.bodySites members symbols) (w.bodyVariables members symbols) := by
  induction members generalizing w symbols with
  | nil => exact binds_nil _
  | cons member others ih =>
    cases member with
    | function f =>
      cases symbols with
      | nil => exact ih w []
      | cons symbol symbols =>
        have hbody := binds_variableSitesAll (w.body symbol f.body.opening) f.body.statements
        exact (hbody.mono (List.subset_append_left ..)).append
          ((ih _ symbols).mono (List.subset_append_right ..))
    | statement s =>
      have hstatement := w.enter.binds_variableSites s
      have hothers := ih (w.globalStatement s) symbols
      cases s with
      | declaration d => exact (ih _ symbols).mono (List.subset_append_right ..)
      | _ =>
        exact (hstatement.mono (List.subset_append_left ..)).append
          (hothers.mono (List.subset_append_right ..))
    | _ => exact ih w symbols

/-! ### Global variables -/

/-- The sites of global variables, given the scope that their values are bound in. -/
def globalSites (final : Scope) (w : Walk) : List VariableDeclaration → List VariableSite
  | [] => []
  | d :: others =>
    ⟨final, d, w.declaredVariable d⟩ ::
      globalSites final (w.declareVariable .globalVariable d) others

theorem map_globalSites (final : Scope) (w : Walk) (ds : List VariableDeclaration) :
    (globalSites final w ds).map VariableSite.declaration = ds := by
  induction ds generalizing w with
  | nil => rfl
  | cons d others ih => exact congrArg (d :: ·) (ih _)

theorem scope_globalSites {final : Scope} {w : Walk} {ds : List VariableDeclaration}
    {site : VariableSite} (h : site ∈ globalSites final w ds) : site.scope = final := by
  induction ds generalizing w with
  | nil => cases h
  | cons d others ih =>
    rcases List.mem_cons.1 h with rfl | h
    · rfl
    · exact ih h

/-- Whether the regions around a walk have no variables. -/
def Outermost (w : Walk) : Prop :=
  ∀ r ∈ w.scope.outer, ∀ symbol ∈ r.symbols, symbol.asVariable? = none

theorem Outermost.of_eq {w w' : Walk} (h : w.Outermost) (houter : w'.scope.outer = w.scope.outer) :
    w'.Outermost := by
  unfold Outermost
  rw [houter]
  exact h

/-- There, no name stands for a variable unless the innermost region declares it. -/
theorem Outermost.lookupVariable? {w : Walk} (h : w.Outermost) {name : String}
    (hname : w.scope.inner.lookup? name = none) : w.scope.lookupVariable? name = none := by
  rw [Scope.lookupVariable?, Scope.lookup?_of_not_inner hname]
  cases hfound : w.scope.outer.findSome? (·.lookup? name) with
  | none => rfl
  | some symbol =>
    obtain ⟨r, hr, hsymbol⟩ := List.exists_of_findSome?_eq_some hfound
    exact h r hr symbol (List.mem_of_find?_eq_some hsymbol)

/-- A name keeps its meaning when a variable is declared, unless it gets one first then. -/
theorem lookup?_declare (w : Walk) (symbol : Symbol) (span : Span) (name : String) :
    (w.declare symbol span).scope.lookup? name = w.scope.lookup? name ∨
      w.scope.inner.lookup? name = none ∧
        (w.declare symbol span).scope.lookup? name = some symbol := by
  have houter := w.declare_outer symbol span
  have hkept : (w.declare symbol span).scope.inner.lookup? name = w.scope.inner.lookup? name →
      (w.declare symbol span).scope.lookup? name = w.scope.lookup? name := by
    intro hinner
    simp only [Scope.lookup?, Scope.regions, List.findSome?_cons, hinner, houter]
  rcases w.inner_declare symbol span with hdeclare | ⟨-, hinner⟩
  · have hlookup := Region.lookup?_declare? hdeclare name
    by_cases hname : symbol.name = name
    · have hnone : w.scope.inner.lookup? name = none := by
        have hfresh := Region.declares_of_declare? hdeclare
        simpa [Region.declares, hname] using hfresh
      rw [if_pos hname] at hlookup
      exact .inr ⟨hnone, Scope.lookup?_of_inner hlookup⟩
    · rw [if_neg hname] at hlookup
      exact .inl (hkept hlookup)
  · exact .inl (hkept (congrArg (·.lookup? name) hinner))

theorem lookupVariable?_declareVariable {w : Walk} (h : w.Outermost) (d : VariableDeclaration)
    (name : String) :
    (w.declareVariable .globalVariable d).scope.lookupVariable? name =
        w.scope.lookupVariable? name ∨
      w.scope.lookupVariable? name = none ∧
        (w.declareVariable .globalVariable d).scope.lookupVariable? name =
          some (w.declaredVariable d) := by
  have hscope : (w.declaredType d).2.countVariable.scope = w.scope := w.declaredType_scope d
  have hlookup := (w.declaredType d).2.countVariable.lookup?_declare
    (.globalVariable (w.declaredVariable d)) d.name.span name
  rw [hscope] at hlookup
  rw [declareVariable_eq]
  rcases hlookup with hsame | ⟨hnone, hnew⟩
  · exact .inl (congrArg (Option.bind · Symbol.asVariable?) hsame)
  · exact .inr ⟨h.lookupVariable? hnone, congrArg (Option.bind · Symbol.asVariable?) hnew⟩

/-- What a name stands for in the end, it stood for already, or it stood for no variable and got one
that was declared later. -/
theorem lookupVariable?_foldl {w : Walk} (h : w.Outermost) (ds : List VariableDeclaration)
    {name : String} {v : Variable}
    (hv : (ds.foldl (declareVariable · .globalVariable ·) w).scope.lookupVariable? name = some v) :
    w.scope.lookupVariable? name = some v ∨
      w.scope.lookupVariable? name = none ∧ w.last < v.id := by
  induction ds generalizing w with
  | nil => exact .inl hv
  | cons d others ih =>
    have hcontinues : w.Continues (w.declareVariable .globalVariable d) :=
      w.continues_declareVariable (fun _ => rfl) d
    have hothers := ih (h.of_eq (w.declareVariable_outer .globalVariable d)) hv
    rcases lookupVariable?_declareVariable h d name with hsame | ⟨hnone, hnew⟩
    · rw [hsame] at hothers
      rcases hothers with hearlier | ⟨hnone, hlater⟩
      · exact .inl hearlier
      · exact .inr ⟨hnone, hcontinues.last.trans_lt hlater⟩
    · rw [hnew] at hothers
      rcases hothers with hearlier | ⟨habsent, -⟩
      · obtain rfl := Option.some.inj hearlier
        exact .inr ⟨hnone, by rw [declaredVariable_id]; exact Nat.lt_succ_self w.last⟩
      · cases habsent

/-- A global variable that copies another one has its type if the other one is declared before it,
and is of unknown type otherwise. -/
theorem type_globalSites {w : Walk} (houter : w.Outermost) (hw : w.Numbered)
    {ds : List VariableDeclaration} {final : Scope}
    (hfinal : (ds.foldl (declareVariable · .globalVariable ·) w).scope = final)
    {site : VariableSite} (hsite : site ∈ globalSites final w ds) {n : Ident} {v : Variable}
    (h : site.Copies n v) :
    v.id < site.symbol.id ∧ site.symbol.type = v.type ∨
      site.symbol.id ≤ v.id ∧ site.symbol.type = .any := by
  induction ds generalizing w with
  | nil => cases hsite
  | cons d others ih =>
    rcases List.mem_cons.1 hsite with rfl | hsite
    · have hid := w.declaredVariable_id d
      have htype := w.declaredVariable_type h.untyped h.value
      have hfound : final.lookupVariable? n.name = some v := h.found
      rw [← hfinal] at hfound
      dsimp only
      rcases lookupVariable?_foldl houter (d :: others) hfound with hearlier | ⟨hnone, hlater⟩
      · have hle := hw.lookupVariable? hearlier
        exact .inl ⟨by omega, htype.trans (variableType_eq hearlier)⟩
      · have hany : w.scope.variableType n = .any := by
          rw [Scope.variableType, hnone]
          rfl
        exact .inr ⟨by omega, htype.trans hany⟩
    · have hdeclare : w.Continues (w.declareVariable .globalVariable d) :=
        w.continues_declareVariable (fun _ => rfl) d
      exact ih (houter.of_eq (w.declareVariable_outer .globalVariable d)) (hdeclare.numbered hw)
        hfinal hsite

theorem Follows.scope_eq {program root : Region} {start : List Resolution} {uses : List Use}
    {last : Nat} {w : Walk} (h : w.Follows program root start uses [] last) :
    w.scope = ⟨program, [root]⟩ := by
  rcases h.sees with ⟨locals, hregions, hlocals⟩
  cases hlocals
  obtain ⟨hinner, houter⟩ := List.cons.inj hregions
  rw [← hinner, ← houter]

/-- The values of global variables are bound in the program's scope. -/
theorem Follows.mem_bodySites {program root : Region} {start : List Resolution} {uses : List Use}
    {last : Nat} {w : Walk} (h : w.Follows program root start uses [] last)
    {members : List Member} (symbols : List FunctionSymbol) {d : VariableDeclaration}
    (hd : d ∈ globalVariables members) {r : Reference} (hr : r ∈ d.valueReferences) :
    ⟨⟨program, [root]⟩, r⟩ ∈ w.bodySites members symbols := by
  induction members generalizing w uses last symbols with
  | nil => cases hd
  | cons member others ih =>
    cases member with
    | function f =>
      cases symbols with
      | nil => exact ih h [] hd
      | cons symbol symbols =>
        exact List.mem_append_right _ (ih (h.functionBody symbol f.body) symbols hd)
    | statement s =>
      have hothers := ih (h.globalStatement s) symbols
      cases s with
      | declaration e =>
        rcases List.mem_cons.1 hd with rfl | hd
        · apply List.mem_append_left
          exact List.mem_map.2 ⟨r, hr, by rw [h.scope_eq]⟩
        · exact List.mem_append_right _ (ih (h.optionalExpression e.value) symbols hd)
      | _ => exact List.mem_append_right _ (hothers hd)
    | _ => exact ih h symbols hd

/-- What is around a program is the prelude, which has no variables. -/
theorem outermost_functionsDeclared (known : List PackageSymbol) (last : Nat)
    (members : List Member) : (functionsDeclared known last members).Outermost := by
  have hbeginning : (beginning last).Outermost := by
    intro r hr symbol hsymbol
    obtain rfl := List.mem_singleton.1 hr
    exact asVariable?_prelude hsymbol
  apply hbeginning.of_eq
  refine (signatures_outer _ members).trans ?_
  refine (foldl_outer structFields_outer _ _).trans ?_
  refine (structNames_outer _ _).trans ?_
  refine (foldl_outer packageUse_outer _ _).trans ?_
  exact foldl_outer (fun w _ => declare_outer w _ _) _ _

end Walk

/-! ### The whole program -/

section

variable (known : List PackageSymbol) (last : Nat) (members : List Member)

open Walk in
/-- The sites of a program's global variables. -/
def globalVariableSites : List VariableSite :=
  globalSites (declaring known last members).scope (functionsDeclared known last members)
    (globalVariables members)

open Walk in
/-- The sites of a program's local variables. -/
def localVariableSites : List VariableSite :=
  (declaring known last members).bodyVariables members
    ((structsDeclared known last members).signatures members).1

/-- The sites of all variables of a program. -/
def variableSites : List VariableSite :=
  globalVariableSites known last members ++ localVariableSites known last members

/-- The sites of a program are those of all declarations of variables in it. -/
theorem map_variableSites :
    (variableSites known last members).map VariableSite.declaration =
      globalVariables members ++ members.flatMap Member.localDeclarations := by
  have hsigns : List.Forall₂ Signs (functionDeclarations members)
      ((Walk.structsDeclared known last members).signatures members).1 :=
    Walk.signatures_sign _ members
  rw [variableSites, List.map_append, globalVariableSites, Walk.map_globalSites,
    localVariableSites, Walk.map_bodyVariables hsigns]

open Walk in
/-- The values of all variables are looked up in the scopes of their sites. -/
theorem binds_variableSites :
    Binds (programSites known last members) (variableSites known last members) := by
  have houter : (declaring known last members).scope.outer = [prelude (last + typeFunctionIds)] :=
    declareMembers_outer known (beginning last) members
  have hfollows := Follows.ofOuter houter
  have hbodies : (declaring known last members).bodySites members
      ((structsDeclared known last members).signatures members).1 ⊆
        programSites known last members := List.subset_append_right ..
  refine Binds.append ?_ ((binds_bodyVariables _ members _).mono hbodies)
  intro site hsite r hr
  have hd : site.declaration ∈ globalVariables members := by
    rw [← map_globalSites (declaring known last members).scope _ (globalVariables members)]
    exact List.mem_map.2 ⟨site, hsite, rfl⟩
  rw [scope_globalSites hsite, hfollows.scope_eq]
  exact hbodies (hfollows.mem_bodySites _ hd hr)

variable {known last members}

/-- The name in a variable's value is recorded with what it stands for. -/
theorem VariableSite.Copies.mem_resolutions {site : VariableSite} {n : Ident} {v : Variable}
    (h : site.Copies n v) (hsite : site ∈ variableSites known last members) :
    ∃ symbol : Symbol, symbol.asVariable? = some v ∧
      ⟨n, some symbol.fingerprint⟩ ∈ (bindProgram known last members).resolutions := by
  obtain ⟨e, he, hname⟩ := Option.bind_eq_some_iff.1 h.value
  obtain ⟨symbol, hsymbol, hv⟩ := Option.bind_eq_some_iff.1 h.found
  have hreferences : .value n ∈ site.declaration.valueReferences := by
    rw [VariableDeclaration.valueReferences, he, Option.elim_some,
      Expression.references_of_plainName hname]
    exact List.mem_singleton_self _
  have hbound := binds_variableSites known last members site hsite (.value n) hreferences
  have hresolutions : (bindProgram known last members).resolutions =
      recorded (Finding.lookups (bindProgram known last members).findings) :=
    (Finding.recorded_lookups _).symm
  have huse : ⟨n, some symbol.fingerprint⟩ ∈
      recorded (Site.lookups (typeFunctions last) ⟨site.scope, .value n⟩) := by
    change _ ∈ recorded (Finding.lookups (site.scope.useName n))
    rw [Finding.recorded_lookups, Scope.useName, hsymbol]
    exact List.mem_singleton_self _
  refine ⟨symbol, hv, ?_⟩
  rw [hresolutions, bindProgram_lookups, recorded, List.filterMap_flatMap]
  exact List.mem_flatMap.2 ⟨_, hbound, huse⟩

/-- A local variable that copies another one has its type. -/
theorem VariableSite.Copies.type_local {site : VariableSite} {n : Ident} {v : Variable}
    (h : site.Copies n v) (hsite : site ∈ localVariableSites known last members) :
    site.symbol.type = v.type ∧ v.id < site.symbol.id := by
  have hcounts := (Walk.continues_signatures (Walk.structsDeclared known last members) members).2
  have hlast := (Walk.continues_declaring known last members).last
  have hnumbered := Walk.numbered_declaring known last members
  exact Walk.follower_bodyVariables hnumbered members (hcounts.mono hlast) site hsite n v h

/-- A global variable that copies another one has its type if the other one is declared before it,
and is of unknown type otherwise. -/
theorem VariableSite.Copies.type_global {site : VariableSite} {n : Ident} {v : Variable}
    (h : site.Copies n v) (hsite : site ∈ globalVariableSites known last members) :
    v.id < site.symbol.id ∧ site.symbol.type = v.type ∨
      site.symbol.id ≤ v.id ∧ site.symbol.type = .any :=
  Walk.type_globalSites (Walk.outermost_functionsDeclared known last members)
    (Walk.numbered_functionsDeclared known last members) rfl hsite h

/-- If a variable without a written type has a name for its value, and the name stands for a
variable, then the use is recorded, and the types of the two are equal if and only if the other one
takes the lesser number or is itself of unknown type. It always takes the lesser number if the first
is a local variable. -/
theorem inferredType_eq_iff {site : VariableSite} {n : Ident} {v : Variable}
    (hsite : site ∈ variableSites known last members) (h : site.Copies n v) :
    (∃ symbol : Symbol, symbol.asVariable? = some v ∧
      ⟨n, some symbol.fingerprint⟩ ∈ (bindProgram known last members).resolutions) ∧
    (site.symbol.type = v.type ↔ v.id < site.symbol.id ∨ v.type = .any) ∧
    (site ∈ localVariableSites known last members → v.id < site.symbol.id) := by
  refine ⟨h.mem_resolutions hsite, ?_, fun hlocal => (h.type_local hlocal).2⟩
  rcases List.mem_append.1 hsite with hglobal | hlocal
  · rcases h.type_global hglobal with ⟨hlt, heq⟩ | ⟨hle, hany⟩
    · exact iff_of_true heq (.inl hlt)
    · rw [hany, or_iff_right (not_lt.2 hle)]
      exact eq_comm
  · obtain ⟨heq, hlt⟩ := h.type_local hlocal
    exact iff_of_true heq (.inl hlt)

end

/-- In `var b = 1 var a = (b)`, the first variable has the lesser number, so both are integers. -/
theorem inferredType_eq_iff_parenthesized :
    ∃ members site n v, site ∈ variableSites [] 0 members ∧ site.Copies n v ∧
      site.symbol.type = v.type ∧ v.type = .builtin "int" := by
  let one : Token := ⟨.integer, "1", some (.integer 1), ⟨0, 8, 9, 1, 9, 1, 10⟩, true⟩
  let use : Ident := ⟨"b", ⟨0, 19, 20, 1, 20, 1, 21⟩⟩
  let first : VariableDeclaration :=
    ⟨⟨0, 0, 3, 1, 1, 1, 4⟩, false, none, ⟨"b", ⟨0, 4, 5, 1, 5, 1, 6⟩⟩, some (.literal one)⟩
  let second : VariableDeclaration :=
    ⟨⟨0, 10, 13, 1, 11, 1, 14⟩, false, none, ⟨"a", ⟨0, 14, 15, 1, 15, 1, 16⟩⟩,
      some (.parenthesized ⟨0, 18, 19, 1, 19, 1, 20⟩ (.name use) ⟨0, 20, 21, 1, 21, 1, 22⟩)⟩
  let members : List Member :=
    [.statement (.declaration first), .statement (.declaration second)]
  let b : Variable := ⟨"b", false, .builtin "int", 6, some ⟨0, 4, 5, 1, 5, 1, 6⟩⟩
  let w := (Walk.functionsDeclared [] 0 members).declareVariable .globalVariable first
  let site : VariableSite :=
    ⟨(Walk.declaring [] 0 members).scope, second, w.declaredVariable second⟩
  have hsite : site ∈ variableSites [] 0 members :=
    List.mem_append_left _ (List.mem_cons_of_mem _ List.mem_cons_self)
  have hcopies : site.Copies use b := by
    refine ⟨rfl, rfl, ?_⟩
    dsimp only [site, one, members, first, second, use, b]
    rfl
  have hid : site.symbol.id = 7 := rfl
  have hlt : b.id < site.symbol.id := by
    rw [hid]
    decide
  exact ⟨members, site, use, b, hsite, hcopies,
    (inferredType_eq_iff hsite hcopies).2.1.2 (.inl hlt), rfl⟩

/-- In `var a = b  var b = 1`, the name is found to stand for the second variable, which is an
integer, but nothing is known of the first one. -/
theorem not_inferredType_eq_forward :
    ∃ tokens members site n v,
      tokenize 0 true "var a = b  var b = 1" = .ok tokens ∧
      parseProgram tokens = .ok members ∧
      site ∈ variableSites [] 0 members ∧ site.Copies n v ∧ v.id ≠ site.symbol.id ∧
      (bindProgram [] 0 members).symbols = [.globalVariable site.symbol, .globalVariable v] ∧
      ⟨n, some (Symbol.globalVariable v).fingerprint⟩ ∈
        (bindProgram [] 0 members).resolutions ∧
      site.symbol.type ≠ v.type := by
  let one : Token := ⟨.integer, "1", some (.integer 1), ⟨0, 19, 20, 1, 20, 1, 21⟩, true⟩
  let tokens : List Token :=
    [⟨.keyword .varWord, "var", none, ⟨0, 0, 3, 1, 1, 1, 4⟩, true⟩,
      ⟨.identifier, "a", none, ⟨0, 4, 5, 1, 5, 1, 6⟩, true⟩,
      ⟨.sign .assign, "=", none, ⟨0, 6, 7, 1, 7, 1, 8⟩, true⟩,
      ⟨.identifier, "b", none, ⟨0, 8, 9, 1, 9, 1, 10⟩, true⟩,
      ⟨.keyword .varWord, "var", none, ⟨0, 11, 14, 1, 12, 1, 15⟩, true⟩,
      ⟨.identifier, "b", none, ⟨0, 15, 16, 1, 16, 1, 17⟩, true⟩,
      ⟨.sign .assign, "=", none, ⟨0, 17, 18, 1, 18, 1, 19⟩, true⟩,
      one, Token.ending ⟨0, 20, 20, 1, 21, 1, 21⟩]
  let use : Ident := ⟨"b", ⟨0, 8, 9, 1, 9, 1, 10⟩⟩
  let first : VariableDeclaration :=
    ⟨⟨0, 0, 3, 1, 1, 1, 4⟩, false, none, ⟨"a", ⟨0, 4, 5, 1, 5, 1, 6⟩⟩, some (.name use)⟩
  let second : VariableDeclaration :=
    ⟨⟨0, 11, 14, 1, 12, 1, 15⟩, false, none, ⟨"b", ⟨0, 15, 16, 1, 16, 1, 17⟩⟩,
      some (.literal one)⟩
  let members : List Member :=
    [.statement (.declaration first), .statement (.declaration second)]
  let a : Variable := ⟨"a", false, .any, 6, some ⟨0, 4, 5, 1, 5, 1, 6⟩⟩
  let b : Variable := ⟨"b", false, .builtin "int", 7, some ⟨0, 15, 16, 1, 16, 1, 17⟩⟩
  have htokens : tokenize 0 true "var a = b  var b = 1" = .ok tokens := by
    decide +kernel
  have hmembers : parseProgram tokens = .ok members := by
    dsimp only [tokens, one, members, first, second, use]
    cbv
  have hsymbols : (bindProgram [] 0 members).symbols = [.globalVariable a, .globalVariable b] := by
    dsimp only [one, members, first, second, use, a, b]
    rfl
  refine ⟨tokens, members, ⟨(Walk.declaring [] 0 members).scope, first, a⟩, use, b, htokens,
    hmembers, ?_, ⟨rfl, rfl, ?_⟩, by decide, hsymbols, ?_, ?_⟩
  · apply List.mem_append_left
    have hsite : (Walk.functionsDeclared [] 0 members).declaredVariable first = a := by
      dsimp only [one, members, first, second, use, a]
      rfl
    rw [← hsite]
    exact List.mem_cons_self
  · dsimp only [one, members, first, second, use, b]
    rfl
  · decide +kernel
  · intro htype
    have hname := congrArg Ty.name htype
    revert hname
    decide

end TodLang
