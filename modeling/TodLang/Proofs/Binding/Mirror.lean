import TodLang.Proofs.Binding.Numbers
import TodLang.Proofs.Binding.Renumbering
/-!
Walks that mirror each other. Two walks do the same if the scopes that they begin with differ in
numbers alone: what they find, declare and give back differs in the same numbers
(`Mirror.Shows`). The walks may count from different numbers, and may have found different things
before. One lemma for each thing that a walk does, then statements by induction.
-/

namespace TodLang

/-- How the numbers of two walks correspond. From a number on, those that the walks take correspond
one to one, up to a bound. -/
structure Mirror where
  renumber : Nat → Nat
  /-- The last numbers that the walks took when the correspondence began. -/
  last : Nat
  last' : Nat
  /-- What the walks had found then. -/
  found : List Finding
  found' : List Finding
  bound : Nat
  shifts : ∀ i, last < i → i ≤ bound → renumber i + last = i + last'

namespace Mirror

/-- Whether two walks correspond. -/
structure Reflects (m : Mirror) (w w' : Walk) : Prop where
  scope : w'.scope = w.scope.renumber m.renumber
  functions : w'.typeFunctions = w.typeFunctions
  closed : w'.closed = w.closed.map (Symbol.renumber m.renumber)
  least : m.last ≤ w.last
  last : w'.last + m.last = w.last + m.last'
  findings : ∃ added, w.findings = m.found ++ added ∧
    w'.findings = m.found' ++ added.map (Finding.renumber m.renumber)

/-- Whether two walks correspond if the first one has not counted beyond the bound. -/
def Shows (m : Mirror) (w w' : Walk) : Prop :=
  w.last ≤ m.bound → m.Reflects w w'

/-- Whether two walks give corresponding results and correspond if the first one has not counted
beyond the bound. -/
def Yields {α : Type} (m : Mirror) (renumber : α → α) (x x' : α × Walk) : Prop :=
  x.2.last ≤ m.bound → x'.1 = renumber x.1 ∧ m.Reflects x.2 x'.2

variable {m : Mirror} {w w' : Walk}

theorem Yields.shows {α : Type} {renumber : α → α} {x x' : α × Walk} (h : m.Yields renumber x x') :
    m.Shows x.2 x'.2 :=
  fun hbound => (h hbound).2

namespace Shows

theorem report (h : m.Shows w w') {findings findings' : List Finding}
    (hfindings : findings' = findings.map (Finding.renumber m.renumber)) :
    m.Shows (w.report findings) (w'.report findings') := by
  intro hbound
  have hw := h hbound
  obtain ⟨added, hfound, hfound'⟩ := hw.findings
  refine ⟨hw.scope, hw.functions, hw.closed, hw.least, hw.last, added ++ findings, ?_, ?_⟩
  · change w.findings ++ findings = _
    rw [hfound, List.append_assoc]
  · change w'.findings ++ findings' = _
    rw [hfound', hfindings, List.map_append, List.append_assoc]

theorem declare (h : m.Shows w w') (symbol : Symbol) (span : Span) :
    m.Shows (w.declare symbol span) (w'.declare (symbol.renumber m.renumber) span) := by
  intro hbound
  rw [Walk.declare_last] at hbound
  have hw := h hbound
  unfold Walk.declare
  rw [hw.scope, Scope.declare?_renumber]
  cases w.scope.declare? symbol with
  | some scope => exact ⟨rfl, hw.functions, hw.closed, hw.least, hw.last, hw.findings⟩
  | none =>
    have hfault : [Finding.fault (.alreadyDeclared (symbol.renumber m.renumber).name) span] =
        [Finding.fault (.alreadyDeclared symbol.name) span].map
          (Finding.renumber m.renumber) := by
      simp
    exact h.report hfault hbound

theorem enter (h : m.Shows w w') : m.Shows w.enter w'.enter := by
  intro hbound
  have hw := h hbound
  refine ⟨?_, hw.functions, hw.closed, hw.least, hw.last, hw.findings⟩
  change w'.scope.enter = _
  rw [hw.scope]
  rfl

theorem leave (h : m.Shows w w') : m.Shows w.leave w'.leave := by
  intro hbound
  rw [Walk.leave_last] at hbound
  have hw := h hbound
  have houter : w'.scope.outer = w.scope.outer.map (Region.renumber m.renumber) := by
    rw [hw.scope]
    rfl
  have hinner : w'.scope.inner.symbols =
      w.scope.inner.symbols.map (Symbol.renumber m.renumber) := by
    rw [hw.scope]
    rfl
  unfold Walk.leave
  rw [houter]
  cases w.scope.outer with
  | nil => exact hw
  | cons next others =>
    refine ⟨rfl, hw.functions, ?_, hw.least, hw.last, hw.findings⟩
    change w'.closed ++ w'.scope.inner.symbols = _
    rw [hw.closed, hinner, List.map_append]

theorem countVariable (h : m.Shows w w') : m.Shows w.countVariable w'.countVariable := by
  intro hbound
  have hw := h ((Nat.le_succ w.last).trans hbound)
  refine ⟨hw.scope, hw.functions, hw.closed, hw.least.trans (Nat.le_succ w.last), ?_, hw.findings⟩
  have hlast := hw.last
  change w'.last + 1 + m.last = w.last + 1 + m.last'
  omega

/-- The next numbers correspond. -/
theorem newVariable (h : m.Shows w w') (hbound : w.last + 1 ≤ m.bound) (name : Ident)
    (readOnly : Bool) (type : Ty) :
    w'.newVariable name readOnly type =
      (w.newVariable name readOnly type).renumber m.renumber := by
  have hw := h ((Nat.le_succ w.last).trans hbound)
  have hlast := hw.last
  have hnext := m.shifts (w.last + 1) (Nat.lt_succ_of_le hw.least) hbound
  have hid : w'.last + 1 = m.renumber (w.last + 1) := by omega
  unfold Walk.newVariable Variable.renumber
  rw [hid]

theorem type (h : m.Shows w w') (clause : TypeClause) :
    m.Yields id (w.type clause) (w'.type clause) := by
  intro hbound
  have hw := h hbound
  have hresolve : w'.scope.resolveType clause = w.scope.resolveType clause := by
    rw [hw.scope, Scope.resolveType_renumber]
  have hfindings : (w'.scope.resolveType clause).2 =
      (w.scope.resolveType clause).2.map (Finding.renumber m.renumber) := by
    rw [hresolve, Scope.map_resolveType]
  refine ⟨?_, h.report hfindings hbound⟩
  change (w'.scope.resolveType clause).1 = (w.scope.resolveType clause).1
  rw [hresolve]

theorem expression (h : m.Shows w w') (e : Expression) :
    m.Shows (w.expression e) (w'.expression e) := by
  intro hbound
  have hw := h hbound
  have hfindings : Scope.bindExpression w'.typeFunctions w'.scope e =
      (Scope.bindExpression w.typeFunctions w.scope e).map (Finding.renumber m.renumber) := by
    rw [hw.functions, hw.scope, Scope.bindExpression_renumber]
  exact h.report hfindings hbound

theorem optionalExpression (h : m.Shows w w') (value : Option Expression) :
    m.Shows (w.optionalExpression value) (w'.optionalExpression value) := by
  cases value with
  | none => exact h
  | some e => exact h.expression e

theorem declaredType (h : m.Shows w w') (d : VariableDeclaration) :
    m.Yields id (w.declaredType d) (w'.declaredType d) := by
  unfold Walk.declaredType
  cases d.type with
  | some clause => exact h.type clause
  | none =>
    cases d.value with
    | none => exact fun hbound => ⟨rfl, h hbound⟩
    | some value =>
      intro hbound
      have hw := h hbound
      refine ⟨?_, hw⟩
      dsimp only
      rw [hw.functions, hw.scope, Scope.inferType_renumber]
      rfl

theorem declareVariable (h : m.Shows w w') {make : Variable → Symbol}
    (hmake : ∀ v, make (v.renumber m.renumber) = (make v).renumber m.renumber)
    (d : VariableDeclaration) :
    m.Shows (w.declareVariable make d) (w'.declareVariable make d) := by
  intro hbound
  have hlast : (w.declareVariable make d).last = (w.declaredType d).2.last + 1 :=
    Walk.declare_last ..
  have htype := h.declaredType d
  have hbefore : (w.declaredType d).2.last + 1 ≤ m.bound := hlast ▸ hbound
  have hsame := (htype ((Nat.le_succ _).trans hbefore)).1
  have hvariable : w'.declaredVariable d = (w.declaredVariable d).renumber m.renumber := by
    unfold Walk.declaredVariable
    rw [htype.shows.newVariable hbefore, hsame]
    rfl
  rw [Walk.declareVariable_eq, Walk.declareVariable_eq, hvariable, hmake]
  rw [Walk.declareVariable_eq] at hbound
  exact htype.shows.countVariable.declare _ _ hbound

theorem localVariable (h : m.Shows w w') (d : VariableDeclaration) :
    m.Shows (w.localVariable d) (w'.localVariable d) :=
  (h.optionalExpression d.value).declareVariable (fun _ => rfl) d

mutual

/-- Corresponding walks bind a statement in the same way. -/
theorem statement {w w' : Walk} (h : m.Shows w w') (s : Statement) :
    m.Shows (w.statement s) (w'.statement s) := by
  cases s with
  | block opening statements closing => exact (h.enter.statements statements).leave
  | declaration d => exact h.localVariable d
  | ifThen keyword condition body | «while» keyword condition body =>
    exact ((h.expression condition).enter.statement body).leave
  | ifElse keyword condition body elseKeyword alternative =>
    have hbody := ((h.expression condition).enter.statement body).leave
    exact (hbody.enter.statement alternative).leave
  | «return» keyword value => exact h.optionalExpression value
  | «for» keyword init condition step body =>
    have hhead := ((h.enter.localVariable init).expression condition).statement step
    exact (hhead.enter.statement body).leave.leave
  | «break» keyword => exact h
  | «continue» keyword => exact h
  | expression e => exact h.expression e

theorem statements {w w' : Walk} (h : m.Shows w w') (statements : List Statement) :
    m.Shows (w.statements statements) (w'.statements statements) := by
  cases statements with
  | nil => exact h
  | cons s others => exact (h.statement s).statements others

end

/-! ### Fields and signatures -/

theorem fields (h : m.Shows w w') (known : List Variable) (ps : List Parameter) :
    m.Yields (List.map (Variable.renumber m.renumber)) (w.fields known ps)
      (w'.fields (known.map (Variable.renumber m.renumber)) ps) := by
  induction ps generalizing w w' known with
  | nil => exact fun hbound => ⟨rfl, h hbound⟩
  | cons field others ih =>
    intro hbound
    have htype := h.type field.type
    have hknown : ((known.map (Variable.renumber m.renumber)).any (·.name == field.name.name)) =
        known.any (·.name == field.name.name) := by
      rw [List.any_map]
      rfl
    unfold Walk.fields at hbound ⊢
    dsimp only at hbound ⊢
    rw [hknown]
    by_cases hduplicate : known.any (·.name == field.name.name) = true
    · have hfault : m.Shows
          ((w.type field.type).2.report
            [.fault (.alreadyDeclared field.name.name) field.name.span])
          ((w'.type field.type).2.report
            [.fault (.alreadyDeclared field.name.name) field.name.span]) :=
        htype.shows.report rfl
      rw [if_pos hduplicate] at hbound ⊢
      rw [if_pos hduplicate]
      exact ih hfault known hbound
    · rw [if_neg hduplicate] at hbound ⊢
      rw [if_neg hduplicate]
      have hlast := Walk.fields_last (w.type field.type).2.countVariable
        (known ++ [(w.type field.type).2.newVariable field.name false (w.type field.type).1]) others
      have hbefore : (w.type field.type).2.last + 1 ≤ m.bound := hlast.trans hbound
      have hvariable := htype.shows.newVariable hbefore field.name false (w.type field.type).1
      have hsame := (htype ((Nat.le_succ _).trans hbefore)).1
      have hothers := ih htype.shows.countVariable
        (known ++ [(w.type field.type).2.newVariable field.name false (w.type field.type).1]) hbound
      rw [List.map_append, List.map_singleton, ← hvariable] at hothers
      rw [hsame]
      exact hothers

theorem parameters (h : m.Shows w w') (ps : List Parameter) :
    m.Yields (List.map (Variable.renumber m.renumber)) (w.parameters ps) (w'.parameters ps) := by
  induction ps generalizing w w' with
  | nil => exact fun hbound => ⟨rfl, h hbound⟩
  | cons p others ih =>
    intro hbound
    have htype := h.type p.type
    have hlast := ((w.type p.type).2.countVariable.parameters_last others).1
    have hbefore : (w.type p.type).2.last + 1 ≤ m.bound := hlast.trans hbound
    have hvariable := htype.shows.newVariable hbefore p.name false (w.type p.type).1
    have hsame := (htype ((Nat.le_succ _).trans hbefore)).1
    obtain ⟨hothers, hw⟩ := ih htype.shows.countVariable hbound
    refine ⟨?_, hw⟩
    change (w'.type p.type).2.newVariable p.name false (w'.type p.type).1 ::
      ((w'.type p.type).2.countVariable.parameters others).1 = _
    rw [hsame, id, hvariable, hothers]
    rfl

theorem returnType (h : m.Shows w w') (clause : Option TypeClause) :
    m.Yields id (w.returnType clause) (w'.returnType clause) := by
  cases clause with
  | none => exact fun hbound => ⟨rfl, h hbound⟩
  | some clause => exact h.type clause

theorem signature (h : m.Shows w w') (name : Ident) (ps : List Parameter)
    (returnType : Option TypeClause) (span : Span) :
    m.Yields (FunctionSymbol.renumber m.renumber) (w.signature name ps returnType span)
      (w'.signature name ps returnType span) := by
  intro hbound
  have hparameters := h.parameters ps
  have hreturn := hparameters.shows.returnType returnType
  have hlast : ((w.parameters ps).2.returnType returnType).2.last = (w.parameters ps).2.last := by
    cases returnType <;> rfl
  obtain ⟨hsame, hw⟩ := hreturn hbound
  have hfirst := (hparameters (hlast ▸ hbound)).1
  refine ⟨?_, hw⟩
  unfold Walk.signature FunctionSymbol.renumber
  dsimp only
  rw [hfirst, hsame]
  rfl

/-! ### Bodies -/

theorem declareParameters (h : m.Shows w w') (opening : Span) (parameters : List Variable) :
    m.Shows (w.declareParameters opening parameters)
      (w'.declareParameters opening (parameters.map (Variable.renumber m.renumber))) := by
  induction parameters generalizing w w' with
  | nil => exact h
  | cons p others ih => exact ih (h.declare (.parameter p) (p.declaration.getD opening))

theorem forget (h : m.Shows w w') :
    m.Shows { w with closed := [] } { w' with closed := [] } := by
  intro hbound
  have hw := h hbound
  exact ⟨hw.scope, hw.functions, rfl, hw.least, hw.last, hw.findings⟩

theorem functionBody (h : m.Shows w w') (symbol : FunctionSymbol) (body : Block) :
    m.Yields (BoundFunction.renumber m.renumber) (w.functionBody symbol body)
      (w'.functionBody (symbol.renumber m.renumber) body) := by
  intro hbound
  have hinside := (h.forget.enter.declareParameters body.opening symbol.parameters).statements
    body.statements
  have hlast : (w.functionBody symbol body).2.last =
      (({ w with closed := [] }.enter.declareParameters body.opening symbol.parameters).statements
        body.statements).last := Walk.leave_last _
  have hw := hinside (hlast ▸ hbound)
  refine ⟨?_, hinside.leave.forget hbound⟩
  unfold Walk.functionBody BoundFunction.renumber
  dsimp only
  rw [List.map_append, ← hw.closed]
  congr 2
  exact congrArg (fun s : Scope => s.inner.symbols) hw.scope

theorem globalStatement (h : m.Shows w w') (s : Statement) :
    m.Shows (w.globalStatement s) (w'.globalStatement s) :=
  (h.enter.statement s).leave.forget

end Shows

end Mirror

end TodLang
