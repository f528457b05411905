import TodLang.Proofs.Binding.Outcome
import TodLang.Proofs.Binding.Resolution
/-!
The sites of a program: its references, each with the scope that the walk is in when it comes there.
What binding a program finds of names is what comes of its sites, one after another
(`bindProgram_lookups`). A walk adds the sites of each thing that it does: one lemma a thing, then
statements by induction, then the stages of a program.
-/

namespace TodLang

open Finding (Composed)
open Reference (Explains explains_nil explains_single explains_aside)

/-- A reference and the scope that it is looked up in. -/
structure Site where
  scope : Scope
  reference : Reference

namespace Site

/-- What is found at a site. -/
def findings (functions : List TypeFunction) (site : Site) : List Finding :=
  site.reference.findings functions site.scope

/-- The uses and the faults of looking up at a site. -/
def lookups (functions : List TypeFunction) (site : Site) : List Finding :=
  site.reference.lookups functions site.scope

/-- The second name of a site's reference if it is looked up. -/
def followed? (site : Site) : Option Ident :=
  site.reference.followed? site.scope

/-- The names that are looked up at a site. -/
def names (site : Site) : List Ident :=
  site.reference.head :: site.followed?.toList

/-- Whether the second name may stand for something that is not known. -/
def isUnchecked (functions : List TypeFunction) (site : Site) : Bool :=
  site.reference.isUnchecked functions site.scope

theorem outcome (functions : List TypeFunction) (site : Site) :
    site.reference.Outcome functions site.scope (site.lookups functions) :=
  site.reference.outcome functions site.scope

end Site

namespace Walk

/-- The sites of references in the scope that a walk is in. -/
def sitesOf (w : Walk) (references : List Reference) : List Site :=
  references.map (Site.mk w.scope)

@[simp] theorem map_sitesOf (w : Walk) (references : List Reference) :
    (w.sitesOf references).map Site.reference = references := by
  simp [sitesOf, Function.comp_def]

theorem sitesOf_append (w : Walk) (front back : List Reference) :
    w.sitesOf (front ++ back) = w.sitesOf front ++ w.sitesOf back :=
  List.map_append

mutual

/-- The sites of the references in a statement. -/
def sites (w : Walk) : Statement → List Site
  | .block _ statements _ => w.enter.sitesAll statements
  | .declaration d => w.sitesOf (d.valueReferences ++ d.typeReferences)
  | .ifThen _ condition body =>
    w.sitesOf condition.references ++ (w.expression condition).enter.sites body
  | .ifElse _ condition body _ alternative =>
    w.sitesOf condition.references ++ (w.expression condition).enter.sites body ++
      ((w.expression condition).enter.statement body).leave.enter.sites alternative
  | .return _ value => w.sitesOf (value.elim [] Expression.references)
  | .for _ init condition step body =>
    let head := w.enter.localVariable init
    w.enter.sitesOf (init.valueReferences ++ init.typeReferences) ++
      head.sitesOf condition.references ++ (head.expression condition).sites step ++
      ((head.expression condition).statement step).enter.sites body
  | .while _ condition body =>
    w.sitesOf condition.references ++ (w.expression condition).enter.sites body
  | .break _ => []
  | .continue _ => []
  | .expression e => w.sitesOf e.references

/-- The sites of the references in statements one after another. -/
def sitesAll (w : Walk) : List Statement → List Site
  | [] => []
  | s :: others => w.sites s ++ (w.statement s).sitesAll others

end

mutual

theorem map_sites (w : Walk) (s : Statement) :
    (w.sites s).map Site.reference = s.references := by
  cases s with
  | block opening statements closing => exact map_sitesAll w.enter statements
  | declaration d => exact map_sitesOf w _
  | ifThen keyword condition body =>
    have hbody := map_sites (w.expression condition).enter body
    rw [sites, Statement.references, List.map_append, map_sitesOf, hbody]
  | ifElse keyword condition body elseKeyword alternative =>
    have hbody := map_sites (w.expression condition).enter body
    have halternative :=
      map_sites ((w.expression condition).enter.statement body).leave.enter alternative
    rw [sites, Statement.references, List.map_append, List.map_append, map_sitesOf, hbody,
      halternative]
  | «return» keyword value => exact map_sitesOf w _
  | «for» keyword init condition step body =>
    let head := w.enter.localVariable init
    have hstep := map_sites (head.expression condition) step
    have hbody := map_sites ((head.expression condition).statement step).enter body
    rw [sites, Statement.references, List.map_append, List.map_append, List.map_append,
      map_sitesOf, map_sitesOf, hstep, hbody]
  | «while» keyword condition body =>
    have hbody := map_sites (w.expression condition).enter body
    rw [sites, Statement.references, List.map_append, map_sitesOf, hbody]
  | «break» keyword => rfl
  | «continue» keyword => rfl
  | expression e => exact map_sitesOf w _

theorem map_sitesAll (w : Walk) (statements : List Statement) :
    (w.sitesAll statements).map Site.reference = Statement.referencesAll statements := by
  cases statements with
  | nil => rfl
  | cons s others =>
    have hfirst := map_sites w s
    have hothers := map_sitesAll (w.statement s) others
    rw [sitesAll, Statement.referencesAll, List.map_append, hfirst, hothers]

end

/-- Whether a walk leads to another one, and what it finds on the way is what comes of given sites.
In between, only names are declared twice and fields of structures are counted, these at regions
with a property. -/
structure Adds (P : Span → Prop) (w w' : Walk) (sites : List Site) : Prop where
  functions : w'.typeFunctions = w.typeFunctions
  findings : ∃ found, w'.findings = w.findings ++ found ∧
    Composed P (sites.map (Site.findings w.typeFunctions)) found

section

variable {P : Span → Prop}

/-- A walk that changes neither its functions nor what it has found adds nothing. -/
theorem adds_nil {w w' : Walk} (hfunctions : w'.typeFunctions = w.typeFunctions)
    (hfindings : w'.findings = w.findings) : w.Adds P w' [] :=
  ⟨hfunctions, [], by rw [hfindings, List.append_nil], .nil⟩

theorem Adds.trans {w₁ w₂ w₃ : Walk} {front back : List Site} (h : w₁.Adds P w₂ front)
    (hothers : w₂.Adds P w₃ back) : w₁.Adds P w₃ (front ++ back) := by
  obtain ⟨found, hfound, hcomposed⟩ := h.findings
  obtain ⟨more, hmore, hcomposed'⟩ := hothers.findings
  rw [h.functions] at hcomposed'
  refine ⟨hothers.functions.trans h.functions, found ++ more, ?_, ?_⟩
  · rw [hmore, hfound, List.append_assoc]
  · rw [List.map_append]
    exact hcomposed.append hcomposed'

/-- A walk goes on in the same way if only its scope and its numbers change. -/
theorem Adds.congr {w₁ w₂ w₃ : Walk} {sites : List Site} (h : w₁.Adds P w₂ sites)
    (hfunctions : w₃.typeFunctions = w₂.typeFunctions) (hfindings : w₃.findings = w₂.findings) :
    w₁.Adds P w₃ sites := by
  have hnothing := h.trans (adds_nil hfunctions hfindings)
  rwa [List.append_nil] at hnothing

theorem Adds.precede {w₁ w₂ w₃ : Walk} {sites : List Site} (h : w₂.Adds P w₃ sites)
    (hfunctions : w₂.typeFunctions = w₁.typeFunctions) (hfindings : w₂.findings = w₁.findings) :
    w₁.Adds P w₃ sites :=
  (adds_nil hfunctions hfindings).trans h

section

variable (w : Walk)

theorem adds_report {references : List Reference} {found : List Finding}
    (h : Explains w.typeFunctions w.scope P references found) :
    w.Adds P (w.report found) (w.sitesOf references) := by
  refine ⟨rfl, found, rfl, ?_⟩
  rw [sitesOf, List.map_map]
  exact h

theorem adds_declare (symbol : Symbol) (span : Span) : w.Adds P (w.declare symbol span) [] := by
  unfold declare
  cases w.scope.declare? symbol with
  | some scope => exact adds_nil rfl rfl
  | none =>
    have hfault : Explains w.typeFunctions w.scope P []
        [.fault (.alreadyDeclared symbol.name) span] := explains_aside trivial
    exact w.adds_report hfault

variable {w} in
theorem Adds.declare {w' : Walk} {sites : List Site} (h : w.Adds P w' sites) (symbol : Symbol)
    (span : Span) : w.Adds P (w'.declare symbol span) sites := by
  have hdeclare := h.trans (w'.adds_declare symbol span)
  rwa [List.append_nil] at hdeclare

theorem adds_enter : w.Adds P w.enter [] := adds_nil rfl rfl

theorem adds_leave : w.Adds P w.leave [] := by
  unfold leave
  cases w.scope.outer with
  | nil => exact adds_nil rfl rfl
  | cons next others => exact adds_nil rfl rfl

theorem adds_type (clause : TypeClause) : w.Adds P (w.type clause).2 (w.sitesOf [.type clause]) :=
  w.adds_report (explains_single (.type clause))

theorem adds_expression {e : Expression} (he : ∀ span ∈ e.structures, P span) :
    w.Adds P (w.expression e) (w.sitesOf e.references) :=
  w.adds_report (Scope.explains_expression w.typeFunctions w.scope e he)

theorem adds_optionalExpression {value : Option Expression}
    (hvalue : ∀ span ∈ value.elim [] Expression.structures, P span) :
    w.Adds P (w.optionalExpression value) (w.sitesOf (value.elim [] Expression.references)) := by
  cases value with
  | none => exact adds_nil rfl rfl
  | some e => exact w.adds_expression hvalue

theorem adds_declaredType (d : VariableDeclaration) :
    w.Adds P (w.declaredType d).2 (w.sitesOf d.typeReferences) := by
  unfold declaredType VariableDeclaration.typeReferences
  cases d.type with
  | some clause => exact w.adds_type clause
  | none => cases d.value <;> exact adds_nil rfl rfl

theorem adds_declareVariable (make : Variable → Symbol) (d : VariableDeclaration) :
    w.Adds P (w.declareVariable make d) (w.sitesOf d.typeReferences) := by
  have htype : w.Adds P _ (w.sitesOf d.typeReferences) := w.adds_declaredType d
  unfold declareVariable
  generalize w.declaredType d = typed at htype ⊢
  obtain ⟨type, next⟩ := typed
  have hcount : w.Adds P next.countVariable (w.sitesOf d.typeReferences) := htype.congr rfl rfl
  exact hcount.declare (make (next.newVariable d.name d.readOnly type)) d.name.span

theorem optionalExpression_scope (value : Option Expression) :
    (w.optionalExpression value).scope = w.scope := by
  cases value <;> rfl

theorem adds_localVariable {d : VariableDeclaration} (hd : ∀ span ∈ d.structures, P span) :
    w.Adds P (w.localVariable d) (w.sitesOf (d.valueReferences ++ d.typeReferences)) := by
  have hvalue := w.adds_optionalExpression hd
  have htype : (w.optionalExpression d.value).Adds P _ _ :=
    (w.optionalExpression d.value).adds_declareVariable .localVariable d
  have hsites : (w.optionalExpression d.value).sitesOf d.typeReferences =
      w.sitesOf d.typeReferences := by
    rw [sitesOf, sitesOf, optionalExpression_scope]
  rw [hsites] at htype
  rw [sitesOf_append]
  exact hvalue.trans htype

end

/-- What is added in a region is added around it. -/
theorem Adds.inside {w w' : Walk} {sites : List Site} (h : w.enter.Adds P w' sites) :
    w.Adds P w'.leave sites := by
  have hall := (w.adds_enter.trans h).trans w'.adds_leave
  rwa [List.append_nil, List.nil_append] at hall

mutual

/-- Binding a statement adds its sites. -/
theorem adds_statement (w : Walk) (s : Statement) (hs : ∀ span ∈ s.structures, P span) :
    w.Adds P (w.statement s) (w.sites s) := by
  cases s with
  | block opening statements closing => exact (adds_statements w.enter statements hs).inside
  | declaration d => exact w.adds_localVariable hs
  | ifThen keyword condition body =>
    obtain ⟨hcondition, hbody⟩ := List.forall_mem_append.1 hs
    have hbody := adds_statement (w.expression condition).enter body hbody
    exact (w.adds_expression hcondition).trans hbody.inside
  | ifElse keyword condition body elseKeyword alternative =>
    obtain ⟨hfront, halternative⟩ := List.forall_mem_append.1 hs
    obtain ⟨hcondition, hbody⟩ := List.forall_mem_append.1 hfront
    have hbody := adds_statement (w.expression condition).enter body hbody
    have halternative :=
      adds_statement ((w.expression condition).enter.statement body).leave.enter alternative
        halternative
    exact ((w.adds_expression hcondition).trans hbody.inside).trans halternative.inside
  | «return» keyword value => exact w.adds_optionalExpression hs
  | «for» keyword init condition step body =>
    obtain ⟨hhead, hbody⟩ := List.forall_mem_append.1 hs
    obtain ⟨hfront, hstep⟩ := List.forall_mem_append.1 hhead
    obtain ⟨hinit, hcondition⟩ := List.forall_mem_append.1 hfront
    let head := w.enter.localVariable init
    have hinit := w.enter.adds_localVariable hinit
    have hstep := adds_statement (head.expression condition) step hstep
    have hbody := adds_statement ((head.expression condition).statement step).enter body hbody
    exact (((hinit.trans (head.adds_expression hcondition)).trans hstep).trans hbody.inside).inside
  | «while» keyword condition body =>
    obtain ⟨hcondition, hbody⟩ := List.forall_mem_append.1 hs
    have hbody := adds_statement (w.expression condition).enter body hbody
    exact (w.adds_expression hcondition).trans hbody.inside
  | «break» keyword => exact adds_nil rfl rfl
  | «continue» keyword => exact adds_nil rfl rfl
  | expression e => exact w.adds_expression hs

theorem adds_statements (w : Walk) (statements : List Statement)
    (hstatements : ∀ span ∈ Statement.structuresAll statements, P span) :
    w.Adds P (w.statements statements) (w.sitesAll statements) := by
  cases statements with
  | nil => exact adds_nil rfl rfl
  | cons s others =>
    obtain ⟨hs, hothers⟩ := List.forall_mem_append.1 hstatements
    have hfirst := adds_statement w s hs
    have hothers := adds_statements (w.statement s) others hothers
    exact hfirst.trans hothers

end

end

end Walk

end TodLang
