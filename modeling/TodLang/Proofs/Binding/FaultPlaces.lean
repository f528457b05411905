import TodLang.Proofs.Binding.Places
import TodLang.Proofs.Binding.RelocatedProgram
/-!
Where the faults of a program are. Binding reports a fault at the region of a name or of an
expression of the program, never at a place that it knows from a symbol alone. So if a relocation
takes every region to one with some property, all faults of a relocated program are at regions with
the property (`bindProgram_faultsIn`). The symbols that are known before may be declared anywhere.
One lemma for each thing that a walk does, then statements by induction, then the stages.
-/

namespace TodLang

/-- All faults among what is found are at regions with a property. -/
def FaultsIn (P : Span → Prop) (found : List Finding) : Prop :=
  ∀ e, .error e ∈ found → P e.span

section

variable {P : Span → Prop} {found front back : List Finding} {n : Ident}

@[simp] theorem faultsIn_nil : FaultsIn P [] :=
  fun _ he => absurd he List.not_mem_nil

@[simp] theorem faultsIn_resolved (fingerprint : String) :
    FaultsIn P (.resolved n fingerprint :: found) ↔ FaultsIn P found := by
  simp [FaultsIn, Finding.resolved]

@[simp] theorem faultsIn_unresolved : FaultsIn P (.unresolved n :: found) ↔ FaultsIn P found := by
  simp [FaultsIn, Finding.unresolved]

@[simp] theorem faultsIn_error {e : SemanticError} :
    FaultsIn P (.error e :: found) ↔ P e.span ∧ FaultsIn P found := by
  simp [FaultsIn]

@[simp] theorem faultsIn_fault {f : SemanticFault} {span : Span} :
    FaultsIn P (.fault f span :: found) ↔ P span ∧ FaultsIn P found :=
  faultsIn_error

theorem FaultsIn.append (hfront : FaultsIn P front) (hback : FaultsIn P back) :
    FaultsIn P (front ++ back) := by
  intro e he
  rcases List.mem_append.1 he with he | he
  · exact hfront e he
  · exact hback e he

end

namespace Scope

/-! ### Uses of names -/

section

variable {P : Span → Prop} (s : Scope) {n m : Ident}

theorem faultsIn_checkCount {span : Span} (h : P span) (name : String) (expected count : Nat) :
    FaultsIn P (checkCount name expected count span) := by
  unfold checkCount
  split <;> simp [h]

theorem faultsIn_useName (h : P n.span) : FaultsIn P (s.useName n) := by
  unfold useName
  split <;> simp [h]

theorem faultsIn_useTarget (h : P n.span) : FaultsIn P (s.useTarget n) := by
  unfold useTarget
  split
  · split <;> simp [h]
  · simp [h]

theorem faultsIn_useCallee (h : P n.span) (count : Nat) : FaultsIn P (s.useCallee n count) := by
  unfold useCallee
  split
  · exact (faultsIn_checkCount h _ _ _).append (by simp)
  · exact (faultsIn_checkCount h _ _ _).append (by simp)
  · simp [h]
  · simp [h]

theorem faultsIn_usePackageCall (hpackage : P n.span) (hcallee : P m.span) (count : Nat) :
    FaultsIn P (s.usePackageCall n m count) := by
  unfold usePackageCall
  split
  · rw [faultsIn_resolved]
    unfold usePackageFunction
    split
    · exact (faultsIn_checkCount hcallee _ _ _).append (by simp)
    · split <;> simp [hcallee]
  · simp [hpackage]

theorem faultsIn_useTypeCall (functions : List TypeFunction) (hreceiver : P n.span)
    (hcallee : P m.span) (count : Nat) : FaultsIn P (useTypeCall functions s n m count) := by
  unfold useTypeCall
  split
  · simp [hreceiver]
  · rw [faultsIn_resolved]
    split
    · unfold useTypeFunction
      split
      · exact (faultsIn_checkCount hcallee _ _ _).append (by simp)
      · split <;> simp [hcallee]
    · simp [hcallee]

theorem faultsIn_useField (hobject : P n.span) (hfield : P m.span) :
    FaultsIn P (s.useField n m) := by
  unfold useField
  split
  · simp [hobject]
  · rw [faultsIn_resolved]
    split
    · unfold useStructField
      split <;> simp [hfield]
    · simp

theorem faultsIn_checkFields {span : Span} (h : P span) (clause : TypeClause) (count : Nat) :
    FaultsIn P (s.checkFields clause count span) := by
  unfold checkFields
  split
  · split
    · simp
    · exact faultsIn_checkCount h _ _ _
  · simp

end

/-! ### Written types and expressions -/

section

variable {P : Span → Prop} {g : Relocation}

mutual

/-- The fault of a written type is at one of the names in it. -/
theorem fault_lookupType (hg : ∀ span, P (g.span span)) (s : Scope) (clause : TypeClause)
    {e : SemanticError} (h : s.lookupType (clause.relocate g) = .error e) : P e.span := by
  obtain ⟨package, name, arguments, closing⟩ := clause
  rw [TypeClause.relocate, lookupType] at h
  split at h
  · unfold namedType at h
    split at h
    · next heq =>
      obtain ⟨n, rfl, rfl⟩ := Option.map_eq_some_iff.1 heq
      split at h
      · cases h
      · cases h
        exact hg n.span
    · split at h
      · cases h
      · cases h
      · cases h
        exact hg name.span
  · next harguments =>
    cases h
    exact fault_lookupTypes hg s arguments harguments

theorem fault_lookupTypes (hg : ∀ span, P (g.span span)) (s : Scope)
    (clauses : List TypeClause) {e : SemanticError}
    (h : s.lookupTypes (TypeClause.relocateAll g clauses) = .error e) : P e.span := by
  cases clauses with
  | nil => cases h
  | cons clause others =>
    rw [TypeClause.relocateAll, lookupTypes] at h
    split at h
    · next hclause =>
      cases h
      exact fault_lookupType hg s clause hclause
    · split at h
      · cases h
      · next hothers =>
        cases h
        exact fault_lookupTypes hg s others hothers

end

theorem faultsIn_resolveType (hg : ∀ span, P (g.span span)) (s : Scope) (clause : TypeClause) :
    FaultsIn P (s.resolveType (clause.relocate g)).2 := by
  unfold resolveType
  split
  · simp
  · next herror => simp [fault_lookupType hg s clause herror]

mutual

theorem faultsIn_bindExpression (hg : ∀ span, P (g.span span)) (functions : List TypeFunction)
    (s : Scope) (e : Expression) :
    FaultsIn P (bindExpression functions s (e.relocate g)) := by
  cases e with
  | literal token => exact faultsIn_nil
  | this keyword => exact faultsIn_nil
  | parenthesized opening inner closing => exact faultsIn_bindExpression hg functions s inner
  | name n => exact s.faultsIn_useName (hg n.span)
  | assignment target value =>
    exact (faultsIn_bindExpression hg functions s value).append
      (s.faultsIn_useTarget (hg target.span))
  | call callee arguments closing =>
    exact (faultsIn_bindExpressions hg functions s arguments).append
      (s.faultsIn_useCallee (hg callee.span) _)
  | cast type arguments closing =>
    exact (faultsIn_bindExpressions hg functions s arguments).append
      (faultsIn_resolveType hg s type)
  | packageCall package callee arguments closing =>
    exact (faultsIn_bindExpressions hg functions s arguments).append
      (s.faultsIn_usePackageCall (hg package.span) (hg callee.span) _)
  | typeCall receiver callee arguments closing =>
    exact (faultsIn_bindExpressions hg functions s arguments).append
      (s.faultsIn_useTypeCall functions (hg receiver.span) (hg callee.span) _)
  | unary operator operand => exact faultsIn_bindExpression hg functions s operand
  | binary left operator right =>
    exact (faultsIn_bindExpression hg functions s left).append
      (faultsIn_bindExpression hg functions s right)
  | edit target operator value =>
    exact (faultsIn_bindExpression hg functions s value).append
      (s.faultsIn_useTarget (hg target.span))
  | step target operator => exact s.faultsIn_useTarget (hg target.span)
  | fieldAccess object field => exact s.faultsIn_useField (hg object.span) (hg field.span)
  | fieldAssignment object field value =>
    exact (faultsIn_bindExpression hg functions s value).append
      (s.faultsIn_useField (hg object.span) (hg field.span))
  | arrayAccess array index closing =>
    exact (faultsIn_bindExpression hg functions s array).append
      (faultsIn_bindExpression hg functions s index)
  | arrayAssignment array index value =>
    exact ((faultsIn_bindExpression hg functions s array).append
      (faultsIn_bindExpression hg functions s index)).append
        (faultsIn_bindExpression hg functions s value)
  | reference ampersand n => exact s.faultsIn_useName (hg n.span)
  | dereference star operand => exact faultsIn_bindExpression hg functions s operand
  | make keyword type arguments closing =>
    exact (faultsIn_resolveType hg s type).append
      (faultsIn_bindExpressions hg functions s arguments)
  | makeSized keyword type length closing =>
    exact (faultsIn_resolveType hg s type).append (faultsIn_bindExpression hg functions s length)
  | makeArray keyword type elements closing =>
    exact (faultsIn_resolveType hg s type).append (faultsIn_bindExpressions hg functions s elements)
  | makeStruct keyword type fields closing =>
    have hspan : P ((Expression.makeStruct keyword type fields closing).relocate g).span := by
      rw [Expression.relocate_span]
      exact hg _
    exact ((faultsIn_resolveType hg s type).append
      (faultsIn_bindExpressions hg functions s fields)).append (s.faultsIn_checkFields hspan _ _)
  | main keyword inner =>
    cases inner with
    | call callee arguments closing =>
      exact (faultsIn_bindExpressions hg functions s arguments).append
        (s.program.faultsIn_useCallee (hg callee.span) _)
    | assignment target value =>
      exact (faultsIn_bindExpression hg functions s value).append
        (s.program.faultsIn_useTarget (hg target.span))
    | _ => exact faultsIn_bindExpression hg functions s.program _

theorem faultsIn_bindExpressions (hg : ∀ span, P (g.span span)) (functions : List TypeFunction)
    (s : Scope) (es : List Expression) :
    FaultsIn P (bindExpressions functions s (Expression.relocateAll g es)) := by
  cases es with
  | nil => exact faultsIn_nil
  | cons e others =>
    exact (faultsIn_bindExpression hg functions s e).append
      (faultsIn_bindExpressions hg functions s others)

end

end

end Scope

namespace Walk

/-! ### Walks -/

/-- The parameters of a function, if they are declared anywhere, are at regions with a property. -/
def ParametersIn (P : Span → Prop) (symbol : FunctionSymbol) : Prop :=
  ∀ p ∈ symbol.parameters, ∀ span ∈ p.declaration, P span

/-- All faults that the walk has found are at regions with a property. -/
def FaultsIn (P : Span → Prop) (w : Walk) : Prop :=
  TodLang.FaultsIn P w.findings

section

variable {P : Span → Prop} {g : Relocation} {w : Walk}

theorem FaultsIn.report (h : w.FaultsIn P) {found : List Finding}
    (hfound : TodLang.FaultsIn P found) : (w.report found).FaultsIn P :=
  h.append hfound

theorem FaultsIn.declare (h : w.FaultsIn P) (symbol : Symbol) {span : Span} (hspan : P span) :
    (w.declare symbol span).FaultsIn P := by
  unfold Walk.declare
  split
  · exact h
  · exact h.report (by simp [hspan])

theorem FaultsIn.leave (h : w.FaultsIn P) : w.leave.FaultsIn P := by
  unfold Walk.leave
  split <;> exact h

theorem FaultsIn.foldl {α : Type} {step : Walk → α → Walk} {l : List α} (h : w.FaultsIn P)
    (hstep : ∀ w : Walk, w.FaultsIn P → ∀ a ∈ l, (step w a).FaultsIn P) :
    (l.foldl step w).FaultsIn P :=
  List.foldlRecOn l step h hstep

theorem FaultsIn.type (h : w.FaultsIn P) (hg : ∀ span, P (g.span span)) (clause : TypeClause) :
    (w.type (clause.relocate g)).2.FaultsIn P :=
  h.report (Scope.faultsIn_resolveType hg w.scope clause)

theorem FaultsIn.expression (h : w.FaultsIn P) (hg : ∀ span, P (g.span span)) (e : Expression) :
    (w.expression (e.relocate g)).FaultsIn P :=
  h.report (Scope.faultsIn_bindExpression hg w.typeFunctions w.scope e)

theorem FaultsIn.optionalExpression (h : w.FaultsIn P) (hg : ∀ span, P (g.span span))
    (value : Option Expression) :
    (w.optionalExpression (value.map (Expression.relocate g))).FaultsIn P := by
  cases value with
  | none => exact h
  | some e => exact h.expression hg e

theorem FaultsIn.declaredType (h : w.FaultsIn P) (hg : ∀ span, P (g.span span))
    (d : VariableDeclaration) : (w.declaredType (d.relocate g)).2.FaultsIn P := by
  obtain ⟨keyword, readOnly, type, name, value⟩ := d
  cases type with
  | some clause => exact h.type hg clause
  | none => cases value <;> exact h

theorem FaultsIn.declareVariable (h : w.FaultsIn P) (hg : ∀ span, P (g.span span))
    (make : Variable → Symbol) (d : VariableDeclaration) :
    (w.declareVariable make (d.relocate g)).FaultsIn P :=
  (h.declaredType hg d).declare (w := (w.declaredType (d.relocate g)).2.countVariable) _
    (hg d.name.span)

theorem FaultsIn.localVariable (h : w.FaultsIn P) (hg : ∀ span, P (g.span span))
    (d : VariableDeclaration) : (w.localVariable (d.relocate g)).FaultsIn P :=
  (h.optionalExpression hg d.value).declareVariable hg .localVariable d

mutual

theorem FaultsIn.statement {w : Walk} (h : w.FaultsIn P) (hg : ∀ span, P (g.span span))
    (s : Statement) : (w.statement (s.relocate g)).FaultsIn P := by
  cases s with
  | block opening statements closing =>
    exact (FaultsIn.statements (w := w.enter) h hg statements).leave
  | declaration d => exact h.localVariable hg d
  | ifThen keyword condition body =>
    exact (FaultsIn.statement (w := (w.expression _).enter) (h.expression hg condition) hg
      body).leave
  | ifElse keyword condition body elseKeyword alternative =>
    have hbody := FaultsIn.statement (w := (w.expression _).enter) (h.expression hg condition) hg
      body
    exact (FaultsIn.statement (w := (Walk.leave _).enter) hbody.leave hg alternative).leave
  | «return» keyword value => exact h.optionalExpression hg value
  | «for» keyword init condition step body =>
    have hinit := FaultsIn.localVariable (w := w.enter) h hg init
    have hstep := FaultsIn.statement (hinit.expression hg condition) hg step
    exact (FaultsIn.statement (w := (Walk.statement _ _).enter) hstep hg body).leave.leave
  | «while» keyword condition body =>
    exact (FaultsIn.statement (w := (w.expression _).enter) (h.expression hg condition) hg
      body).leave
  | «break» keyword => exact h
  | «continue» keyword => exact h
  | expression e => exact h.expression hg e

theorem FaultsIn.statements {w : Walk} (h : w.FaultsIn P) (hg : ∀ span, P (g.span span))
    (statements : List Statement) :
    (w.statements (Statement.relocateAll g statements)).FaultsIn P := by
  cases statements with
  | nil => exact h
  | cons s others => exact FaultsIn.statements (FaultsIn.statement h hg s) hg others

end

/-! ### Declaring the members -/

theorem FaultsIn.packageUse (h : w.FaultsIn P) {name : Ident} (hname : P name.span) :
    (w.packageUse name).FaultsIn P := by
  unfold Walk.packageUse
  split
  · next package _ =>
    have hresolved : (w.report [.resolved name package.fingerprint]).FaultsIn P :=
      h.report (by simp)
    exact hresolved.foldl fun w hw f _ => hw.declare _ hname
  · exact h.report (by simp [hname])

theorem FaultsIn.fields (h : w.FaultsIn P) (hg : ∀ span, P (g.span span)) (known : List Variable)
    (ps : List Parameter) : (w.fields known (ps.map (Parameter.relocate g))).2.FaultsIn P := by
  induction ps generalizing w known with
  | nil => exact h
  | cons p others ih =>
    have htype := h.type hg p.type
    simp only [List.map_cons, Walk.fields]
    split
    · exact ih (htype.report (by simpa [Parameter.relocate] using hg p.name.span)) _
    · exact ih (w := (w.type _).2.countVariable) htype _

theorem FaultsIn.structNames (h : w.FaultsIn P) (hg : ∀ span, P (g.span span))
    (ds : List StructDeclaration) :
    (w.structNames (ds.map (StructDeclaration.relocate g))).2.FaultsIn P := by
  induction ds generalizing w with
  | nil => exact h
  | cons d others ih => exact ih (h.declare _ (hg d.name.span))

theorem structNames_subset (w : Walk) (ds : List StructDeclaration) :
    (w.structNames ds).1 ⊆ ds := by
  induction ds generalizing w with
  | nil => exact List.Subset.refl _
  | cons d others ih =>
    have hothers := ih (w.structName d).2
    show (if (w.structName d).1 then d :: ((w.structName d).2.structNames others).1
      else ((w.structName d).2.structNames others).1) ⊆ d :: others
    split
    · exact List.cons_subset_cons d hothers
    · exact List.subset_cons_of_subset d hothers

theorem FaultsIn.parameters (h : w.FaultsIn P) (hg : ∀ span, P (g.span span))
    (ps : List Parameter) :
    (w.parameters (ps.map (Parameter.relocate g))).2.FaultsIn P ∧
      ∀ p ∈ (w.parameters (ps.map (Parameter.relocate g))).1, ∀ span ∈ p.declaration, P span := by
  induction ps generalizing w with
  | nil => exact ⟨h, List.forall_mem_nil _⟩
  | cons p others ih =>
    obtain ⟨hwalk, hvariables⟩ :=
      ih (w := (w.type (p.type.relocate g)).2.countVariable) (h.type hg p.type)
    refine ⟨hwalk, List.forall_mem_cons.2 ⟨?_, hvariables⟩⟩
    intro span hspan
    cases hspan
    exact hg p.name.span

theorem FaultsIn.signature (h : w.FaultsIn P) (hg : ∀ span, P (g.span span)) (name : Ident)
    (ps : List Parameter) (returnType : Option TypeClause) (span : Span) :
    (w.signature name (ps.map (Parameter.relocate g))
        (returnType.map (TypeClause.relocate g)) span).2.FaultsIn P ∧
      ParametersIn P (w.signature name (ps.map (Parameter.relocate g))
        (returnType.map (TypeClause.relocate g)) span).1 := by
  obtain ⟨hwalk, hvariables⟩ := h.parameters hg ps
  cases returnType with
  | none => exact ⟨hwalk, hvariables⟩
  | some clause => exact ⟨hwalk.type hg clause, hvariables⟩

theorem FaultsIn.signatures (h : w.FaultsIn P) (hg : ∀ span, P (g.span span))
    (members : List Member) :
    (w.signatures (members.map (Member.relocate g))).2.FaultsIn P ∧
      ∀ symbol ∈ (w.signatures (members.map (Member.relocate g))).1, ParametersIn P symbol := by
  induction members generalizing w with
  | nil => exact ⟨h, List.forall_mem_nil _⟩
  | cons member others ih =>
    cases member with
    | function f =>
      obtain ⟨hwalk, hvariables⟩ := h.signature hg (f.name.relocate g) f.parameters f.returnType
        (Member.function (f.relocate g)).span
      obtain ⟨hothers, hsymbols⟩ := ih (hwalk.declare _ (hg f.name.span))
      exact ⟨hothers, List.forall_mem_cons.2 ⟨hvariables, hsymbols⟩⟩
    | external e =>
      obtain ⟨hwalk, -⟩ := h.signature hg (e.name.relocate g) e.parameters e.returnType
        (Member.external (e.relocate g)).span
      exact ih (hwalk.declare _ (hg e.name.span))
    | _ => exact ih h

theorem FaultsIn.declareMembers (h : w.FaultsIn P) (hg : ∀ span, P (g.span span))
    (known : List PackageSymbol) (members : List Member) :
    (w.declareMembers known (members.map (Member.relocate g))).2.FaultsIn P ∧
      ∀ symbol ∈ (w.declareMembers known (members.map (Member.relocate g))).1,
        ParametersIn P symbol := by
  simp only [Walk.declareMembers, packageReferences_relocate, packageUses_relocate,
    structDeclarations_relocate, globalVariables_relocate]
  let referred := ((packageReferences members).map fun r => (g.span r.1, r.2.relocate g)).foldl
    (fun w r => w.packageReference known r.1 r.2) w
  have hreferred : referred.FaultsIn P := by
    apply h.foldl
    intro w hw r hr
    obtain ⟨r, -, rfl⟩ := List.mem_map.1 hr
    exact hw.declare _ (hg r.2.span)
  let used := ((packageUses members).map (Ident.relocate g)).foldl Walk.packageUse referred
  have hused : used.FaultsIn P := by
    apply hreferred.foldl
    intro w hw n hn
    obtain ⟨name, -, rfl⟩ := List.mem_map.1 hn
    exact hw.packageUse (hg name.span)
  let named := used.structNames ((structDeclarations members).map (StructDeclaration.relocate g))
  have hnamed : named.2.FaultsIn P := hused.structNames hg (structDeclarations members)
  have hfields : (named.1.foldl Walk.structFields named.2).FaultsIn P := by
    apply hnamed.foldl
    intro w hw d hd
    obtain ⟨d, -, rfl⟩ := List.mem_map.1 (structNames_subset used _ hd)
    exact FaultsIn.fields hw hg [] d.fields
  obtain ⟨hsigned, hsymbols⟩ := hfields.signatures hg members
  refine ⟨?_, hsymbols⟩
  apply hsigned.foldl
  intro w hw d hd
  obtain ⟨d, -, rfl⟩ := List.mem_map.1 hd
  exact hw.declareVariable hg .globalVariable d

/-! ### Binding the members -/

theorem FaultsIn.functionBody (h : w.FaultsIn P) (hg : ∀ span, P (g.span span))
    {symbol : FunctionSymbol} (hsymbol : ParametersIn P symbol) (body : Block) :
    (w.functionBody symbol (body.relocate g)).2.FaultsIn P := by
  have hparameters : Walk.FaultsIn P ({ w with closed := [] }.enter.declareParameters
      (body.relocate g).opening symbol.parameters) := by
    refine FaultsIn.foldl (w := Walk.enter _) h fun w hw p hp => hw.declare _ ?_
    cases hdeclared : p.declaration with
    | none => exact hg body.opening
    | some span => exact hsymbol p hp span hdeclared
  exact (hparameters.statements hg body.statements).leave

theorem FaultsIn.bindMembers (h : w.FaultsIn P) (hg : ∀ span, P (g.span span))
    (members : List Member) {symbols : List FunctionSymbol}
    (hsymbols : ∀ symbol ∈ symbols, ParametersIn P symbol) :
    (w.bindMembers (members.map (Member.relocate g)) symbols).2.FaultsIn P := by
  induction members generalizing w symbols with
  | nil => exact h
  | cons member others ih =>
    cases member with
    | function f =>
      cases symbols with
      | nil => exact ih h hsymbols
      | cons symbol symbols =>
        rw [List.forall_mem_cons] at hsymbols
        exact ih (h.functionBody hg hsymbols.1 f.body) hsymbols.2
    | statement s =>
      have hglobal : ∀ s : Statement, (w.globalStatement (s.relocate g)).FaultsIn P := fun s =>
        (FaultsIn.statement (w := w.enter) h hg s).leave
      cases s with
      | declaration d => exact ih (h.optionalExpression hg d.value) hsymbols
      | _ => exact ih (hglobal _) hsymbols
    | _ => exact ih h hsymbols

end

end Walk

/-- All faults of a program are at regions that come from its own: where a relocation takes all
regions to ones with a property, the faults of what it makes of a program are at such regions. -/
theorem bindProgram_faultsIn {P : Span → Prop} {g : Relocation} (hg : ∀ span, P (g.span span))
    (known : List PackageSymbol) (last : Nat) (members : List Member) {e : SemanticError}
    (he : e ∈ (bindProgram known last (members.map (Member.relocate g))).errors) : P e.span := by
  let start : Walk :=
    { scope := (Scope.root (prelude (last + typeFunctionIds))).enter
      last := last + typeFunctionIds + preludeIds
      typeFunctions := typeFunctions last }
  have hstart : start.FaultsIn P := faultsIn_nil
  obtain ⟨hdeclared, hsymbols⟩ := hstart.declareMembers hg known members
  have hbound := hdeclared.bindMembers hg members hsymbols
  exact hbound e (BoundProgram.mem_errors.1 he)

end TodLang
