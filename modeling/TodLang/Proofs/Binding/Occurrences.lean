import TodLang.Proofs.Binding.Bodies
import TodLang.Proofs.Binding.Places
/-!
The expressions of a program that use names, each with the scope that it is bound in. Wherever such
an expression stands in a program, it is bound in a scope that sees regions of a body
(`exists_boundIn`), and what the program records and reports at one of its names is what comes of
its reference in this scope (`BoundIn.foundAt_eq`).
-/

namespace TodLang

open Node

namespace Reference

/-- Whether looking up a reference in a scope is looking up another one in another scope: behind
`main`, names are looked up in the program's scope. -/
inductive ComesTo : Reference → Scope → Reference → Scope → Prop
  | self (r : Reference) (s : Scope) : ComesTo r s r s
  | own {r r' : Reference} {s s' : Scope} (h : ComesTo r s.program r' s') : ComesTo (own r) s r' s'

namespace ComesTo

variable {r r' : Reference} {s s' : Scope}

theorem findings (h : r.ComesTo s r' s') (functions : List TypeFunction) :
    r.findings functions s = r'.findings functions s' := by
  induction h with
  | self => rfl
  | own _ ih => exact ih

theorem names (h : r.ComesTo s r' s') : r.names = r'.names := by
  induction h with
  | self => rfl
  | own _ ih => exact ih

theorem trans {r'' : Reference} {s'' : Scope} (h : r.ComesTo s r' s') (h' : r'.ComesTo s' r'' s'') :
    r.ComesTo s r'' s'' := by
  induction h with
  | self => exact h'
  | own _ ih => exact .own (ih h')

theorem sees {program root : Region} (h : r.ComesTo s r' s')
    (hs : ∃ regions, s.Sees program root regions) : ∃ regions, s'.Sees program root regions := by
  induction h with
  | self => exact hs
  | own _ ih =>
    obtain ⟨regions, hsees⟩ := hs
    exact ih ⟨[], hsees.toProgram⟩

end ComesTo

/-- Whether one of given references comes to another one, whatever scope it is looked up in. -/
def Covers (references : List Reference) (r : Reference) : Prop :=
  ∃ whole ∈ references, ∀ s, ∃ s', whole.ComesTo s r s'

variable {references others : List Reference} {r : Reference}

theorem covers_of_mem (h : r ∈ references) : Covers references r :=
  ⟨r, h, fun s => ⟨s, .self r s⟩⟩

theorem Covers.mono (h : Covers references r) (hsub : references ⊆ others) : Covers others r := by
  obtain ⟨whole, hwhole, hcomes⟩ := h
  exact ⟨whole, hsub hwhole, hcomes⟩

theorem Covers.trans {r' : Reference} (h : Covers references r') (h' : Covers [r'] r) :
    Covers references r := by
  obtain ⟨whole, hwhole, hcomes⟩ := h
  obtain ⟨_, hr', hcomes'⟩ := h'
  obtain rfl := List.mem_singleton.1 hr'
  refine ⟨whole, hwhole, fun s => ?_⟩
  obtain ⟨s', h⟩ := hcomes s
  obtain ⟨s'', h'⟩ := hcomes' s'
  exact ⟨s'', h.trans h'⟩

/-- Behind `main`, the same references are looked up elsewhere. -/
theorem Covers.own (h : Covers references r) : Covers (references.map .own) r := by
  obtain ⟨whole, hwhole, hcomes⟩ := h
  refine ⟨whole.own, List.mem_map_of_mem hwhole, fun s => ?_⟩
  obtain ⟨s', h'⟩ := hcomes s.program
  exact ⟨s', .own h'⟩

end Reference

open Reference (Covers covers_of_mem)

namespace Expression

/-- How an expression uses a name itself, beside what is used in its parts. -/
def reference? : Expression → Option Reference
  | name n | reference _ n => some (.value n)
  | assignment target _ | edit target _ _ | step target _ => some (.target target)
  | call callee arguments _ => some (.call callee arguments.length)
  | packageCall package callee arguments _ => some (.packageCall package callee arguments.length)
  | typeCall receiver callee arguments _ => some (.typeCall receiver callee arguments.length)
  | fieldAccess object field | fieldAssignment object field _ => some (.fieldOf object field)
  | cast clause _ _ | make _ clause _ _ | makeSized _ clause _ _ | makeArray _ clause _ _
  | makeStruct _ clause _ _ => some (.type clause)
  | main _ inner => inner.reference?.map .own
  | _ => none

theorem references_subset_all {e : Expression} {es : List Expression} (h : e ∈ es) :
    e.references ⊆ referencesAll es := by
  induction es with
  | nil => cases h
  | cons first others ih =>
    rcases List.mem_cons.1 h with rfl | h
    · exact List.subset_append_left _ _
    · exact List.subset_append_of_subset_right _ (ih h)

/-- An expression's own reference is one of its references. -/
theorem mem_references {e : Expression} {r : Reference} (h : e.reference? = some r) :
    r ∈ e.references := by
  cases e with
  | main keyword inner =>
    obtain ⟨use, huse, rfl⟩ := Option.map_eq_some_iff.1 h
    have hinner : use ∈ inner.references := mem_references huse
    cases inner with
    | call _ _ _ | assignment _ _ =>
      obtain rfl := Option.some.inj huse
      exact List.mem_append_right _ (List.mem_singleton_self _)
    | _ => exact List.mem_map_of_mem hinner
  | literal _ | this _ | parenthesized _ _ _ | unary _ _ | binary _ _ _ | arrayAccess _ _ _
  | arrayAssignment _ _ _ | dereference _ _ => cases h
  | _ =>
    obtain rfl := Option.some.inj h
    simp [references]

/-- The references in a part of an expression are among those of the expression, perhaps behind
`main`. -/
theorem covers_part {e part : Expression} (hpart : part ∈ e.parts) {r : Reference}
    (hr : r ∈ part.references) : Covers e.references r := by
  cases e with
  | literal _ | name _ | step _ _ | fieldAccess _ _ | reference _ _ | this _ => cases hpart
  | main keyword inner =>
    obtain rfl := List.mem_singleton.1 hpart
    cases part with
    | call callee arguments closing =>
      rcases List.mem_append.1 hr with hr | hr
      · exact covers_of_mem (List.mem_append_left _ hr)
      · exact (covers_of_mem hr).own.mono (List.subset_append_right _ _)
    | assignment target value =>
      rcases List.mem_append.1 hr with hr | hr
      · exact covers_of_mem (List.mem_append_left _ hr)
      · exact (covers_of_mem hr).own.mono (List.subset_append_right _ _)
    | _ => exact (covers_of_mem hr).own
  | call _ _ _ | cast _ _ _ | packageCall _ _ _ _ | typeCall _ _ _ _ =>
    exact covers_of_mem (List.mem_append_left _ (references_subset_all hpart hr))
  | make _ _ _ _ | makeArray _ _ _ _ | makeStruct _ _ _ _ =>
    exact covers_of_mem (List.mem_cons_of_mem _ (references_subset_all hpart hr))
  | _ =>
    simp only [parts, List.mem_cons, List.not_mem_nil, or_false] at hpart
    apply covers_of_mem
    rcases hpart with rfl | rfl | rfl <;> simp [references, hr]

/-- The references in an expression are among those of an expression that it is in. -/
theorem covers_within {e whole : Expression} (h : Within (.expression e) (.expression whole))
    {r : Reference} (hr : r ∈ e.references) : Covers whole.references r := by
  rcases within_expression_iff.1 h with rfl | ⟨part, hpart, hwithin⟩
  · exact covers_of_mem hr
  · have hsize := sizeOf_lt_of_mem_parts hpart
    obtain ⟨use, huse, hcomes⟩ := covers_within hwithin hr
    exact (covers_part hpart huse).trans ⟨use, List.mem_singleton_self _, hcomes⟩
termination_by sizeOf whole

end Expression

/-! ### The references in the listed expressions of a program -/

theorem references_of_writtenValue {regions : List (List Declared)} {value : Option Expression}
    {entry : Written} (h : entry ∈ writtenValue regions value) :
    entry.expression.references ⊆ value.elim [] Expression.references := by
  cases value with
  | none => cases h
  | some e =>
    obtain rfl := List.mem_singleton.1 h
    exact List.Subset.refl _

namespace Place

mutual

/-- The references in the expressions of a statement are among those of the statement. -/
theorem references_of_written (p : Place) (s : Statement) {entry : Written}
    (h : entry ∈ p.written s) : entry.expression.references ⊆ s.references := by
  cases s with
  | block opening statements closing => exact p.enter.references_of_writtenAll statements h
  | declaration d => exact List.subset_append_of_subset_left _ (references_of_writtenValue h)
  | ifThen keyword condition body | «while» keyword condition body =>
    rcases List.mem_cons.1 h with rfl | h
    · exact List.subset_append_left _ _
    · exact List.subset_append_of_subset_right _ (p.enter.references_of_written body h)
  | ifElse keyword condition body elseKeyword alternative =>
    rw [Statement.references, List.append_assoc]
    rcases List.mem_cons.1 h with rfl | h
    · exact List.subset_append_left _ _
    · apply List.subset_append_of_subset_right
      rcases List.mem_append.1 h with h | h
      · exact List.subset_append_of_subset_left _ (p.enter.references_of_written body h)
      · exact List.subset_append_of_subset_right _
          ((p.resume (p.enter.after body)).enter.references_of_written alternative h)
  | «return» keyword value => exact references_of_writtenValue h
  | «for» keyword init condition step body =>
    let head := p.enter.declare init.name
    rw [Statement.references, List.append_assoc, List.append_assoc, List.append_assoc]
    rcases List.mem_append.1 h with h | h
    · exact List.subset_append_of_subset_left _ (references_of_writtenValue h)
    · apply List.subset_append_of_subset_right
      apply List.subset_append_of_subset_right
      rcases List.mem_cons.1 h with rfl | h
      · exact List.subset_append_left _ _
      · apply List.subset_append_of_subset_right
        rcases List.mem_append.1 h with h | h
        · exact List.subset_append_of_subset_left _ (head.references_of_written step h)
        · exact List.subset_append_of_subset_right _
            ((head.after step).enter.references_of_written body h)
  | «break» keyword => cases h
  | «continue» keyword => cases h
  | expression e =>
    obtain rfl := List.mem_singleton.1 h
    exact List.Subset.refl _

theorem references_of_writtenAll (p : Place) (statements : List Statement) {entry : Written}
    (h : entry ∈ p.writtenAll statements) :
    entry.expression.references ⊆ Statement.referencesAll statements := by
  cases statements with
  | nil => cases h
  | cons s others =>
    rcases List.mem_append.1 h with h | h
    · exact List.subset_append_of_subset_left _ (p.references_of_written s h)
    · exact List.subset_append_of_subset_right _ ((p.after s).references_of_writtenAll others h)

end

end Place

/-- The references in the listed expressions of a program are among those of its bodies. -/
theorem references_of_programWritten {members : List Member} {symbols : List FunctionSymbol}
    {last : Nat} {entry : Written} (h : entry ∈ programWritten last members symbols) :
    entry.expression.references ⊆ members.flatMap Member.bodyReferences := by
  induction members generalizing last symbols with
  | nil => cases h
  | cons member others ih =>
    rw [List.flatMap_cons]
    have hrest {last : Nat} {symbols : List FunctionSymbol}
        (h : entry ∈ programWritten last others symbols) :
        entry.expression.references ⊆
          member.bodyReferences ++ others.flatMap Member.bodyReferences :=
      List.subset_append_of_subset_right _ (ih h)
    cases member with
    | function f =>
      cases symbols with
      | nil =>
        have hothers : entry ∈ programWritten last others [] := by simpa [programWritten] using h
        exact hrest hothers
      | cons symbol symbols =>
        rcases List.mem_append.1 h with h | h
        · exact List.subset_append_of_subset_left _ (Place.references_of_writtenAll _ _ h)
        · exact hrest h
    | statement s =>
      cases s with
      | declaration d =>
        rcases List.mem_append.1 h with h | h
        · exact List.subset_append_of_subset_left _ (references_of_writtenValue h)
        · exact hrest h
      | _ =>
        rcases List.mem_append.1 h with h | h
        · exact List.subset_append_of_subset_left _ (Place.references_of_written _ _ h)
        · exact hrest h
    | _ => exact hrest h

/-! ### The scopes that bodies are bound in -/

/-- Whether each of given sites has a scope that sees regions of a body. -/
def SeeRegions (program root : Region) (sites : List Site) : Prop :=
  ∀ site ∈ sites, ∃ regions, site.scope.Sees program root regions

section

variable {program root : Region} {front back : List Site}

theorem seeRegions_nil : SeeRegions program root [] := List.forall_mem_nil _

theorem SeeRegions.append (h : SeeRegions program root front)
    (hback : SeeRegions program root back) : SeeRegions program root (front ++ back) :=
  List.forall_mem_append.2 ⟨h, hback⟩

end

namespace Walk.Follows

variable {program root : Region} {start : List Resolution}

theorem seeRegions_sitesOf {uses : List Use} {regions : List (List Declared)} {last : Nat}
    {w : Walk} (h : w.Follows program root start uses regions last)
    (references : List Reference) : SeeRegions program root (w.sitesOf references) := by
  intro site hsite
  obtain ⟨r, -, rfl⟩ := List.mem_map.1 hsite
  exact ⟨regions, h.sees⟩

mutual

theorem seeRegions_sites {uses : List Use} {w : Walk} {p : Place}
    (h : w.Follows program root start uses p.regions p.last) (s : Statement) :
    SeeRegions program root (w.sites s) := by
  cases s with
  | block opening statements closing => exact h.enter.seeRegions_sitesAll (p := p.enter) statements
  | declaration d => exact h.seeRegions_sitesOf _
  | ifThen keyword condition body | «while» keyword condition body =>
    have hbody := (h.expression condition).enter.seeRegions_sites (p := p.enter) body
    exact (h.seeRegions_sitesOf _).append hbody
  | ifElse keyword condition body elseKeyword alternative =>
    let q := p.resume (p.enter.after body)
    have hbody := (h.expression condition).enter.seeRegions_sites (p := p.enter) body
    have hfollows := ((h.expression condition).enter.statement (p := p.enter) body).resume
      (Place.after_outer p.enter body)
    have halternative := hfollows.enter.seeRegions_sites (p := q.enter) alternative
    exact ((h.seeRegions_sitesOf _).append hbody).append halternative
  | «return» keyword value => exact h.seeRegions_sitesOf _
  | «for» keyword init condition step body =>
    let head := p.enter.declare init.name
    have hready := h.enter.localVariable (p := p.enter) init
    have hstep := (hready.expression condition).seeRegions_sites (p := head) step
    have hfollows := (hready.expression condition).statement (p := head) step
    have hbody := hfollows.enter.seeRegions_sites (p := (head.after step).enter) body
    exact (((h.enter.seeRegions_sitesOf _).append (hready.seeRegions_sitesOf _)).append
      hstep).append hbody
  | «break» keyword => exact seeRegions_nil
  | «continue» keyword => exact seeRegions_nil
  | expression e => exact h.seeRegions_sitesOf _

theorem seeRegions_sitesAll {uses : List Use} {w : Walk} {p : Place}
    (h : w.Follows program root start uses p.regions p.last) (statements : List Statement) :
    SeeRegions program root (w.sitesAll statements) := by
  cases statements with
  | nil => exact seeRegions_nil
  | cons s others =>
    exact (h.seeRegions_sites s).append ((h.statement s).seeRegions_sitesAll others)

end

/-- Bodies, values of global variables and other statements are bound in scopes that see regions of
a body. -/
theorem seeRegions_bodySites {uses : List Use} {w : Walk} {last : Nat}
    (h : w.Follows program root start uses [] last) (members : List Member)
    (symbols : List FunctionSymbol) : SeeRegions program root (w.bodySites members symbols) := by
  induction members generalizing w uses last symbols with
  | nil => exact seeRegions_nil
  | cons member others ih =>
    cases member with
    | function f =>
      cases symbols with
      | nil => exact ih h []
      | cons symbol symbols =>
        have hclosed : Follows program root start uses [] last { w with closed := [] } :=
          ⟨h.sees, h.last, h.answers⟩
        have hparameters := hclosed.enter.declareParameters f.body.opening symbol.parameters
        have hbody := hparameters.seeRegions_sitesAll (p := Place.ofFunction symbol last)
          f.body.statements
        exact hbody.append (ih (h.functionBody symbol f.body) symbols)
    | statement s =>
      have hbody := h.enter.seeRegions_sites (p := Place.ofStatement last) s
      have hothers := ih (h.globalStatement s) symbols
      cases s with
      | declaration d =>
        exact (h.seeRegions_sitesOf _).append (ih (h.optionalExpression d.value) symbols)
      | _ => exact hbody.append hothers
    | _ => exact ih h symbols

end Walk.Follows

/-! ### What a program says of an expression -/

/-- The sites of the bodies of a program, of the values of its global variables and of its other
statements. -/
def programBodySites (known : List PackageSymbol) (last : Nat) (members : List Member) :
    List Site :=
  (Walk.declaring known last members).bodySites members
    ((Walk.structsDeclared known last members).signatures members).1

/-- Whether a program binds an expression that uses a name itself in a scope. -/
def BoundIn (known : List PackageSymbol) (last : Nat) (members : List Member) (e : Expression)
    (s : Scope) : Prop :=
  ∃ r, e.reference? = some r ∧
    ∃ site ∈ programBodySites known last members, site.reference.ComesTo site.scope r s

namespace BoundProgram

/-- The uses of names at a place. -/
def resolutionsAt (p : BoundProgram) (span : Span) : List Resolution :=
  p.resolutions.filter (·.name.span = span)

/-- The faults of using names at a place. -/
def errorsAt (p : BoundProgram) (span : Span) : List SemanticError :=
  p.errors.filter fun e => e.fault.isOfUse ∧ e.span = span

theorem resolutionsAt_eq (p : BoundProgram) (span : Span) :
    p.resolutionsAt span = (Finding.foundAt span p.findings).filterMap Finding.resolution? := by
  rw [resolutionsAt, resolutions, Finding.foundAt, List.filter_filterMap, List.filterMap_filter]
  apply List.filterMap_congr
  intro g _
  cases g <;> simp [Finding.place?, Finding.resolution?, Option.filter]

theorem errorsAt_eq (p : BoundProgram) (span : Span) :
    p.errorsAt span = (Finding.foundAt span p.findings).filterMap Finding.error? := by
  rw [errorsAt, errors, Finding.foundAt, List.filter_filterMap, List.filterMap_filter]
  apply List.filterMap_congr
  intro g _
  cases g <;> simp [Finding.place?, Finding.error?, Option.filter]

end BoundProgram

section

variable {file : Nat} {hashComments : Bool} {source : String} {tokens : List Token}
  {members : List Member} {known : List PackageSymbol} {last : Nat} {e : Expression} {s : Scope}
  {r : Reference}

/-- What is in a statement of a function's body is in the function. -/
theorem Node.Within.of_body {node : Node} {f : FunctionDeclaration} {statement : Statement}
    (hstatement : statement ∈ f.body.statements) (h : Within node (.statement statement)) :
    Within node (.member (.function f)) := by
  have hbody : Within node (.statement f.body.toStatement) :=
    .under (List.mem_map_of_mem hstatement) h
  exact .under (List.mem_append_right _ (List.mem_singleton_self _)) hbody

/-- An expression of a program that uses a name itself is bound in some scope. -/
theorem exists_boundIn {m : Member} (hm : m ∈ members)
    (hwithin : Within (.expression e) (.member m)) (hr : e.reference? = some r) :
    ∃ s, BoundIn known last members e s := by
  obtain ⟨entry, hentry, hin⟩ := (mentioned_writtenIn known last members).2 ⟨m, hm, hwithin⟩
  have hsigns : List.Forall₂ Signs (functionDeclarations members)
      ((Walk.structsDeclared known last members).signatures members).1 :=
    Walk.signatures_sign _ members
  have hsites := Walk.map_bodySites hsigns (Walk.declaring known last members)
  have hcovers := (Expression.covers_within hin (Expression.mem_references hr)).mono
    (references_of_programWritten hentry)
  rw [← hsites] at hcovers
  obtain ⟨whole, hwhole, hcomes⟩ := hcovers
  obtain ⟨site, hsite, rfl⟩ := List.mem_map.1 hwhole
  obtain ⟨s, h⟩ := hcomes site.scope
  exact ⟨s, r, hr, site, hsite, h⟩

namespace BoundIn

theorem sees (h : BoundIn known last members e s) :
    ∃ regions, s.Sees (programScope known last members).inner (prelude (last + typeFunctionIds))
      regions := by
  obtain ⟨r, -, site, hsite, hcomes⟩ := h
  rw [programScope_eq]
  exact hcomes.sees ((Walk.declaring_follows known last members).seeRegions_bodySites members _ site
    hsite)

/-- An expression's names stand at different places. -/
theorem spans_nodup (h : BoundIn known last members e s) (hr : e.reference? = some r)
    (htokens : tokenize file hashComments source = .ok tokens)
    (hparse : parseProgram tokens = .ok members) : (r.names.map Ident.span).Nodup := by
  obtain ⟨r', hr', site, hsite, hcomes⟩ := h
  obtain rfl := Option.some.inj (hr.symm.trans hr')
  rw [← hcomes.names]
  have hnodup := sites_spans_nodup htokens hparse known last
  exact (List.nodup_flatMap.1 hnodup).1 site (List.mem_append_right _ hsite)

/-- What is found in a program at a name of an expression comes of the expression's reference. -/
theorem foundAt_eq (h : BoundIn known last members e s) (hr : e.reference? = some r)
    (htokens : tokenize file hashComments source = .ok tokens)
    (hparse : parseProgram tokens = .ok members) {n : Ident} (hn : n ∈ r.names) :
    Finding.foundAt n.span (bindProgram known last members).findings =
      Finding.foundAt n.span (r.findings (typeFunctions last) s) := by
  obtain ⟨r', hr', site, hsite, hcomes⟩ := h
  obtain rfl := Option.some.inj (hr.symm.trans hr')
  have hspan : n.span ∈ site.reference.names.map Ident.span := by
    rw [hcomes.names]
    exact List.mem_map_of_mem hn
  rw [TodLang.foundAt_eq htokens hparse (List.mem_append_right _ hsite) hspan, Site.findings,
    hcomes.findings]

end BoundIn

end

end TodLang
