import TodLang.Proofs.Binding.Relocation
import TodLang.Binding.Program
/-!
Programs at other places. Relocating a program relocates all that binding it comes to, and changes
nothing else of it: the numbers, types and fingerprints stay (`bindProgram_relocate`). The lemmas
follow a walk step by step.
-/

namespace TodLang

section

variable (g : Relocation)

def BoundFunction.relocate (f : BoundFunction) : BoundFunction :=
  ⟨f.symbol.relocate g, f.locals.map (Symbol.relocate g)⟩

/-- The program with its declarations and its findings where a relocation puts them. -/
def BoundProgram.relocate (p : BoundProgram) : BoundProgram where
  symbols := p.symbols.map (Symbol.relocate g)
  functions := p.functions.map (BoundFunction.relocate g)
  findings := p.findings.map (Finding.relocate g)
  last := p.last

/-- The walk with all that it keeps where a relocation puts it. -/
def Walk.relocate (w : Walk) : Walk :=
  { w with
    scope := w.scope.relocate g
    closed := w.closed.map (Symbol.relocate g)
    findings := w.findings.map (Finding.relocate g) }

namespace Region

theorem setFields_relocate (r : Region) (name : String) (fields : List Variable) :
    (r.map (Symbol.relocate g)).setFields name (fields.map (Variable.relocate g)) =
      (r.setFields name fields).map (Symbol.relocate g) := by
  simp only [setFields, map, List.map_map]
  congr 1
  apply List.map_congr_left
  intro symbol _
  cases symbol with
  | struct s =>
    by_cases hname : s.name = name
    · simp [Symbol.relocate, StructSymbol.relocate, hname]
    · simp [Symbol.relocate, StructSymbol.relocate, hname]
  | _ => rfl

end Region

namespace Walk

/-! ### Steps -/

theorem report_relocate (w : Walk) (findings : List Finding) :
    (w.relocate g).report (findings.map (Finding.relocate g)) =
      (w.report findings).relocate g := by
  simp [report, relocate]

theorem declare_relocate (w : Walk) (symbol : Symbol) (span : Span) :
    (w.relocate g).declare (symbol.relocate g) (g.span span) =
      (w.declare symbol span).relocate g := by
  have hscope : (w.relocate g).scope.declare? (symbol.relocate g) =
      (w.scope.declare? symbol).map (Scope.relocate g) :=
    w.scope.declare?_map (Symbol.relocate_name g) symbol
  unfold declare
  rw [hscope]
  cases w.scope.declare? symbol with
  | some scope => rfl
  | none =>
    dsimp only [Option.map_none]
    rw [Symbol.relocate_name]
    exact report_relocate g w [.fault (.alreadyDeclared symbol.name) span]

theorem enter_relocate (w : Walk) : (w.relocate g).enter = w.enter.relocate g := rfl

theorem leave_relocate (w : Walk) : (w.relocate g).leave = w.leave.relocate g := by
  obtain ⟨⟨inner, outer⟩, last, typeFunctions, closed, findings⟩ := w
  cases outer with
  | nil => rfl
  | cons next others =>
    simp [leave, relocate, Scope.relocate, Scope.map, Region.map]

theorem countVariable_relocate (w : Walk) :
    (w.relocate g).countVariable = w.countVariable.relocate g := rfl

theorem newVariable_relocate (w : Walk) (name : Ident) (readOnly : Bool) (type : Ty) :
    (w.relocate g).newVariable (name.relocate g) readOnly type =
      (w.newVariable name readOnly type).relocate g := rfl

theorem type_relocate (w : Walk) (clause : TypeClause) :
    (w.relocate g).type (clause.relocate g) =
      ((w.type clause).1, (w.type clause).2.relocate g) := by
  have hscope : (w.relocate g).scope = w.scope.relocate g := rfl
  simp only [type, hscope, Scope.resolveType_relocate, report_relocate]

theorem expression_relocate (w : Walk) (e : Expression) :
    (w.relocate g).expression (e.relocate g) = (w.expression e).relocate g := by
  have hfindings := Scope.bindExpression_relocate g w.typeFunctions w.scope e
  rw [expression, expression, ← report_relocate, ← hfindings]
  rfl

theorem optionalExpression_relocate (w : Walk) (e : Option Expression) :
    (w.relocate g).optionalExpression (e.map (Expression.relocate g)) =
      (w.optionalExpression e).relocate g := by
  cases e with
  | none => rfl
  | some e => exact w.expression_relocate g e

theorem declaredType_relocate (w : Walk) (d : VariableDeclaration) :
    (w.relocate g).declaredType (d.relocate g) =
      ((w.declaredType d).1, (w.declaredType d).2.relocate g) := by
  obtain ⟨keyword, readOnly, type, name, value⟩ := d
  cases type with
  | some clause => exact w.type_relocate g clause
  | none =>
    cases value with
    | none => rfl
    | some value =>
      have htype := Scope.inferType_relocate g w.typeFunctions w.scope value
      exact Prod.ext htype rfl

/-- Variables are declared where they go, of whatever kind they are. -/
theorem declareVariable_relocate {make : Variable → Symbol}
    (hmake : ∀ v, (make v).relocate g = make (v.relocate g)) (w : Walk)
    (d : VariableDeclaration) :
    (w.relocate g).declareVariable make (d.relocate g) =
      (w.declareVariable make d).relocate g := by
  simp only [declareVariable, declaredType_relocate, countVariable_relocate]
  rw [← declare_relocate, hmake, ← newVariable_relocate]
  rfl

theorem localVariable_relocate (w : Walk) (d : VariableDeclaration) :
    (w.relocate g).localVariable (d.relocate g) = (w.localVariable d).relocate g := by
  have hvalue := w.optionalExpression_relocate g d.value
  rw [localVariable, localVariable, ← declareVariable_relocate g (fun _ => rfl), ← hvalue]
  rfl

/-! ### Statements -/

mutual

theorem statement_relocate (w : Walk) (s : Statement) :
    (w.relocate g).statement (s.relocate g) = (w.statement s).relocate g := by
  cases s with
  | block opening ss closing =>
    simp only [Statement.relocate, statement, enter_relocate, leave_relocate,
      statements_relocate w.enter ss]
  | declaration d => exact w.localVariable_relocate g d
  | ifThen keyword condition body =>
    simp only [Statement.relocate, statement, expression_relocate, enter_relocate, leave_relocate,
      statement_relocate _ body]
  | ifElse keyword condition body elseKeyword alternative =>
    simp only [Statement.relocate, statement, expression_relocate, enter_relocate, leave_relocate,
      statement_relocate _ body, statement_relocate _ alternative]
  | «return» keyword value => exact w.optionalExpression_relocate g value
  | «for» keyword init condition step body =>
    simp only [Statement.relocate, statement, expression_relocate, localVariable_relocate,
      enter_relocate, leave_relocate, statement_relocate _ step, statement_relocate _ body]
  | «while» keyword condition body =>
    simp only [Statement.relocate, statement, expression_relocate, enter_relocate, leave_relocate,
      statement_relocate _ body]
  | «break» keyword => rfl
  | «continue» keyword => rfl
  | expression e => exact w.expression_relocate g e

theorem statements_relocate (w : Walk) (ss : List Statement) :
    (w.relocate g).statements (Statement.relocateAll g ss) = (w.statements ss).relocate g := by
  cases ss with
  | nil => rfl
  | cons s others =>
    simp only [Statement.relocateAll, statements, statement_relocate w s,
      statements_relocate _ others]

end

/-! ### Declarations -/

theorem packageReference_relocate (known : List PackageSymbol) (w : Walk) (span : Span)
    (name : Ident) :
    (w.relocate g).packageReference (known.map (PackageSymbol.relocate g)) (g.span span)
        (name.relocate g) =
      (w.packageReference known span name).relocate g := by
  have hfind : (known.map (PackageSymbol.relocate g)).reverse.find? (·.name == name.name) =
      (known.reverse.find? (·.name == name.name)).map (PackageSymbol.relocate g) := by
    rw [← List.map_reverse, List.find?_map]
    rfl
  unfold packageReference
  rw [← declare_relocate, Ident.relocate_name, hfind]
  cases known.reverse.find? (·.name == name.name) <;> rfl

theorem declareFunctions_relocate (w : Walk) (functions : List FunctionSymbol) (span : Span) :
    (functions.map (FunctionSymbol.relocate g)).foldl
        (fun w f => w.declare (.function f) (g.span span)) (w.relocate g) =
      (functions.foldl (fun w f => w.declare (.function f) span) w).relocate g := by
  induction functions generalizing w with
  | nil => rfl
  | cons f others ih =>
    have hfirst : (w.relocate g).declare (.function (f.relocate g)) (g.span span) =
        (w.declare (.function f) span).relocate g :=
      w.declare_relocate g (.function f) span
    rw [List.map_cons, List.foldl_cons, List.foldl_cons, hfirst, ih]

theorem packageUse_relocate (w : Walk) (name : Ident) :
    (w.relocate g).packageUse (name.relocate g) = (w.packageUse name).relocate g := by
  have hpackage : (w.relocate g).scope.lookupPackage? name.name =
      (w.scope.lookupPackage? name.name).map (PackageSymbol.relocate g) :=
    w.scope.lookupPackage?_relocate g name.name
  simp only [packageUse, Ident.relocate_name, hpackage]
  cases w.scope.lookupPackage? name.name with
  | none =>
    exact report_relocate g w [.fault (.undefinedPackage name.name) name.span, .unresolved name]
  | some package =>
    have hreport : (w.relocate g).report [.resolved (name.relocate g) package.fingerprint] =
        (w.report [.resolved name package.fingerprint]).relocate g :=
      report_relocate g w [.resolved name package.fingerprint]
    have hname : (package.relocate g).fingerprint = package.fingerprint := rfl
    simp only [Option.map_some, hname, hreport]
    exact declareFunctions_relocate g _ package.functions name.span

theorem fields_relocate (w : Walk) (known : List Variable) (ps : List Parameter) :
    (w.relocate g).fields (known.map (Variable.relocate g)) (ps.map (Parameter.relocate g)) =
      ((w.fields known ps).1.map (Variable.relocate g), (w.fields known ps).2.relocate g) := by
  induction ps generalizing w known with
  | nil => rfl
  | cons field others ih =>
    have hknown : (known.map (Variable.relocate g)).any (·.name == field.name.name) =
        known.any (·.name == field.name.name) := by
      rw [List.any_map]
      rfl
    simp only [List.map_cons, fields, Parameter.relocate, type_relocate, Ident.relocate_name,
      Ident.relocate_span, hknown]
    split
    · have hreport := report_relocate g (w.type field.type).2
        [.fault (.alreadyDeclared field.name.name) field.name.span]
      rw [List.map_singleton, Finding.relocate_fault] at hreport
      rw [hreport]
      exact ih _ known
    · rw [countVariable_relocate, newVariable_relocate, ← ih, List.map_append]
      rfl

theorem structName_relocate (w : Walk) (d : StructDeclaration) :
    (w.relocate g).structName (d.relocate g) =
      ((w.structName d).1, (w.structName d).2.relocate g) := by
  have hdeclares : (w.relocate g).scope.inner.declares d.name.name =
      w.scope.inner.declares d.name.name :=
    w.scope.inner.declares_map (Symbol.relocate_name g) d.name.name
  have hspan : (Member.struct (d.relocate g)).span = g.span (Member.struct d).span :=
    Member.relocate_span g (.struct d)
  have hdeclare := w.declare_relocate g
    (.struct ⟨d.name.name, [], some (Member.struct d).span⟩) d.name.span
  simp only [structName, hspan]
  exact Prod.ext (congrArg (!·) hdeclares) hdeclare

theorem structNames_relocate (w : Walk) (ds : List StructDeclaration) :
    (w.relocate g).structNames (ds.map (StructDeclaration.relocate g)) =
      ((w.structNames ds).1.map (StructDeclaration.relocate g),
        (w.structNames ds).2.relocate g) := by
  induction ds generalizing w with
  | nil => rfl
  | cons d others ih =>
    simp only [List.map_cons, structNames, structName_relocate, ih]
    split <;> rfl

theorem structFields_relocate (w : Walk) (d : StructDeclaration) :
    (w.relocate g).structFields (d.relocate g) = (w.structFields d).relocate g := by
  have hfields := fields_relocate g w [] d.fields
  have hset := (w.fields [] d.fields).2.scope.inner.setFields_relocate g d.name.name
    (w.fields [] d.fields).1
  have hname : (d.relocate g).fields = d.fields.map (Parameter.relocate g) := rfl
  rw [List.map_nil] at hfields
  simp only [structFields, hname, hfields]
  simp only [relocate, Scope.relocate, Scope.map, ← hset]
  rfl

theorem parameters_relocate (w : Walk) (ps : List Parameter) :
    (w.relocate g).parameters (ps.map (Parameter.relocate g)) =
      ((w.parameters ps).1.map (Variable.relocate g), (w.parameters ps).2.relocate g) := by
  induction ps generalizing w with
  | nil => rfl
  | cons p others ih =>
    simp only [List.map_cons, parameters, Parameter.relocate, type_relocate,
      countVariable_relocate, newVariable_relocate, ih]

theorem returnType_relocate (w : Walk) (clause : Option TypeClause) :
    (w.relocate g).returnType (clause.map (TypeClause.relocate g)) =
      ((w.returnType clause).1, (w.returnType clause).2.relocate g) := by
  cases clause with
  | none => rfl
  | some clause => exact w.type_relocate g clause

theorem signature_relocate (w : Walk) (name : Ident) (ps : List Parameter)
    (clause : Option TypeClause) (span : Span) :
    (w.relocate g).signature (name.relocate g) (ps.map (Parameter.relocate g))
        (clause.map (TypeClause.relocate g)) (g.span span) =
      ((w.signature name ps clause span).1.relocate g,
        (w.signature name ps clause span).2.relocate g) := by
  simp only [signature, parameters_relocate, returnType_relocate]
  rfl

/-- The symbols of the functions go where the members go that declare them. -/
theorem signatures_relocate (w : Walk) (members : List Member) :
    (w.relocate g).signatures (members.map (Member.relocate g)) =
      ((w.signatures members).1.map (FunctionSymbol.relocate g),
        (w.signatures members).2.relocate g) := by
  induction members generalizing w with
  | nil => rfl
  | cons member others ih =>
    have hspan := member.relocate_span g
    cases member with
    | function f =>
      have hvisible : (f.relocate g).visibility.isSome = f.visibility.isSome := Option.isSome_map
      have hdeclare (w : Walk) (symbol : FunctionSymbol) :
          (w.relocate g).declare (.function { symbol.relocate g with
              isPublic := f.visibility.isSome }) (f.relocate g).name.span =
            (w.declare (.function { symbol with isPublic := f.visibility.isSome })
              f.name.span).relocate g :=
        w.declare_relocate g (.function { symbol with isPublic := f.visibility.isSome }) f.name.span
      rw [Member.relocate] at hspan
      simp only [List.map_cons, Member.relocate, signatures, hspan, hvisible,
        FunctionDeclaration.relocate_parameters, FunctionDeclaration.relocate_returnType,
        FunctionDeclaration.relocate_name, signature_relocate]
      rw [← FunctionDeclaration.relocate_name, hdeclare, ih]
      rfl
    | external e =>
      have hdeclare (w : Walk) (symbol : FunctionSymbol) :
          (w.relocate g).declare (.function (symbol.relocate g).asExternal)
              (e.relocate g).name.span =
            (w.declare (.function symbol.asExternal) e.name.span).relocate g :=
        w.declare_relocate g (.function symbol.asExternal) e.name.span
      rw [Member.relocate] at hspan
      simp only [List.map_cons, Member.relocate, signatures, hspan,
        ExternalDeclaration.relocate_parameters, ExternalDeclaration.relocate_returnType,
        ExternalDeclaration.relocate_name, signature_relocate]
      rw [← ExternalDeclaration.relocate_name, hdeclare, ih]
    | _ => exact ih w

end Walk

/-! ### Programs -/

theorem packageReferences_relocate (members : List Member) :
    packageReferences (members.map (Member.relocate g)) =
      (packageReferences members).map fun r => (g.span r.1, r.2.relocate g) := by
  induction members with
  | nil => rfl
  | cons member others ih =>
    cases member with
    | packageReference keyword name =>
      have hspan := Member.relocate_span g (.packageReference keyword name)
      exact congr (congrArg _ (congrArg (·, name.relocate g) hspan)) ih
    | _ => exact ih

theorem packageUses_relocate (members : List Member) :
    packageUses (members.map (Member.relocate g)) =
      (packageUses members).map (Ident.relocate g) := by
  induction members with
  | nil => rfl
  | cons member others ih =>
    cases member with
    | packageUse keyword name => exact congrArg _ ih
    | _ => exact ih

theorem structDeclarations_relocate (members : List Member) :
    structDeclarations (members.map (Member.relocate g)) =
      (structDeclarations members).map (StructDeclaration.relocate g) := by
  induction members with
  | nil => rfl
  | cons member others ih =>
    cases member with
    | struct d => exact congrArg _ ih
    | _ => exact ih

theorem globalVariables_relocate (members : List Member) :
    globalVariables (members.map (Member.relocate g)) =
      (globalVariables members).map (VariableDeclaration.relocate g) := by
  induction members with
  | nil => rfl
  | cons member others ih =>
    cases member with
    | statement s =>
      cases s with
      | declaration d => exact congrArg _ ih
      | _ => exact ih
    | _ => exact ih

namespace Walk

/-- A fold whose steps are relocated is relocated. -/
theorem foldl_relocate {α β : Type} {step : Walk → α → Walk} {step' : Walk → β → Walk}
    {move : α → β}
    (hstep : ∀ w a, step' (w.relocate g) (move a) = (step w a).relocate g) (w : Walk)
    (entries : List α) :
    (entries.map move).foldl step' (w.relocate g) = (entries.foldl step w).relocate g := by
  induction entries generalizing w with
  | nil => rfl
  | cons a others ih => rw [List.map_cons, List.foldl_cons, List.foldl_cons, hstep, ih]

theorem declareMembers_relocate (known : List PackageSymbol) (w : Walk) (members : List Member) :
    (w.relocate g).declareMembers (known.map (PackageSymbol.relocate g))
        (members.map (Member.relocate g)) =
      ((w.declareMembers known members).1.map (FunctionSymbol.relocate g),
        (w.declareMembers known members).2.relocate g) := by
  have hreferences (w : Walk) (rs : List (Span × Ident)) :
      (rs.map fun r => (g.span r.1, r.2.relocate g)).foldl (fun w r =>
          w.packageReference (known.map (PackageSymbol.relocate g)) r.1 r.2) (w.relocate g) =
        (rs.foldl (fun w r => w.packageReference known r.1 r.2) w).relocate g :=
    foldl_relocate g (fun w r => w.packageReference_relocate g known r.1 r.2) w rs
  have huses (w : Walk) (names : List Ident) :
      (names.map (Ident.relocate g)).foldl packageUse (w.relocate g) =
        (names.foldl packageUse w).relocate g :=
    foldl_relocate g (fun w name => w.packageUse_relocate g name) w names
  have hfields (w : Walk) (ds : List StructDeclaration) :
      (ds.map (StructDeclaration.relocate g)).foldl structFields (w.relocate g) =
        (ds.foldl structFields w).relocate g :=
    foldl_relocate g (fun w d => w.structFields_relocate g d) w ds
  have hvariables (w : Walk) (ds : List VariableDeclaration) :
      (ds.map (VariableDeclaration.relocate g)).foldl (declareVariable · .globalVariable ·)
          (w.relocate g) =
        (ds.foldl (declareVariable · .globalVariable ·) w).relocate g :=
    foldl_relocate g (fun w d => declareVariable_relocate g (fun _ => rfl) w d) w ds
  simp only [declareMembers, packageReferences_relocate, packageUses_relocate,
    structDeclarations_relocate, globalVariables_relocate]
  rw [hreferences, huses, structNames_relocate, hfields, signatures_relocate, hvariables]

theorem declareParameters_relocate (w : Walk) (opening : Span) (parameters : List Variable) :
    (w.relocate g).declareParameters (g.span opening) (parameters.map (Variable.relocate g)) =
      (w.declareParameters opening parameters).relocate g := by
  apply foldl_relocate
  intro w p
  have hspan : (p.relocate g).declaration.getD (g.span opening) =
      g.span (p.declaration.getD opening) := by
    rw [Variable.relocate]
    cases p.declaration <;> rfl
  rw [hspan]
  exact w.declare_relocate g (.parameter p) _

theorem functionBody_relocate (w : Walk) (symbol : FunctionSymbol) (body : Block) :
    (w.relocate g).functionBody (symbol.relocate g) (body.relocate g) =
      ((w.functionBody symbol body).1.relocate g, (w.functionBody symbol body).2.relocate g) := by
  let inside := ({ w with closed := [] }.enter.declareParameters body.opening
    symbol.parameters).statements body.statements
  have hinside : ({ w.relocate g with closed := [] }.enter.declareParameters
      (body.relocate g).opening (symbol.relocate g).parameters).statements
        (body.relocate g).statements = inside.relocate g := by
    have hparameters := declareParameters_relocate g { w with closed := [] }.enter body.opening
      symbol.parameters
    rw [← statements_relocate, ← hparameters]
    rfl
  rw [functionBody, hinside]
  have hlocals : (inside.relocate g).scope.inner.symbols ++ (inside.relocate g).closed =
      (inside.scope.inner.symbols ++ inside.closed).map (Symbol.relocate g) :=
    List.map_append.symm
  rw [hlocals, leave_relocate]
  rfl

theorem globalStatement_relocate (w : Walk) (s : Statement) :
    (w.relocate g).globalStatement (s.relocate g) = (w.globalStatement s).relocate g := by
  rw [globalStatement, enter_relocate, statement_relocate, leave_relocate]
  rfl

theorem bindMembers_relocate (w : Walk) (members : List Member) (symbols : List FunctionSymbol) :
    (w.relocate g).bindMembers (members.map (Member.relocate g))
        (symbols.map (FunctionSymbol.relocate g)) =
      ((w.bindMembers members symbols).1.map (BoundFunction.relocate g),
        (w.bindMembers members symbols).2.relocate g) := by
  induction members generalizing w symbols with
  | nil => rfl
  | cons member others ih =>
    cases member with
    | function f =>
      cases symbols with
      | nil => exact ih w []
      | cons symbol symbols =>
        have hbody : (f.relocate g).body = f.body.relocate g := rfl
        simp only [List.map_cons, Member.relocate, bindMembers, hbody, functionBody_relocate, ih]
    | statement s =>
      have hglobal (s : Statement) :
          ((w.relocate g).globalStatement (s.relocate g)).bindMembers
              (others.map (Member.relocate g)) (symbols.map (FunctionSymbol.relocate g)) =
            (((w.globalStatement s).bindMembers others symbols).1.map (BoundFunction.relocate g),
              ((w.globalStatement s).bindMembers others symbols).2.relocate g) := by
        rw [globalStatement_relocate, ih]
      cases s with
      | declaration d =>
        have hvalue := w.optionalExpression_relocate g d.value
        have hnext := ih (w.optionalExpression d.value) symbols
        rw [← hvalue] at hnext
        exact hnext
      | _ => exact hglobal _
    | _ => exact ih w symbols

end Walk

theorem preludeFunctions_relocate (last : Nat) :
    (preludeFunctions last).map (FunctionSymbol.relocate g) = preludeFunctions last := rfl

/-- No source declares what every program begins with. -/
theorem prelude_relocate (last : Nat) : (prelude last).map (Symbol.relocate g) = prelude last := by
  have hsorted (l : List Symbol) :
      (l.foldr Region.insertSorted []).map (Symbol.relocate g) =
        (l.map (Symbol.relocate g)).foldr Region.insertSorted [] := by
    induction l with
    | nil => rfl
    | cons s others ih =>
      rw [List.foldr_cons, ← Region.insertSorted_map (Symbol.relocate_name g), ih, List.map_cons,
        List.foldr_cons]
  have htypes : (Ty.builtinNames.map (Symbol.type ∘ Ty.builtin)).map (Symbol.relocate g) =
      Ty.builtinNames.map (Symbol.type ∘ Ty.builtin) := rfl
  have hfunctions : ((preludeFunctions last).map Symbol.function).map (Symbol.relocate g) =
      (preludeFunctions last).map Symbol.function := by
    have hcomp : Symbol.relocate g ∘ Symbol.function =
        Symbol.function ∘ FunctionSymbol.relocate g := rfl
    rw [List.map_map, hcomp, ← List.map_map, preludeFunctions_relocate]
  rw [Region.map, prelude, hsorted, List.map_append, htypes, hfunctions]

/-- Relocating the members of a program and the packages that are known relocates all that binding
comes to, and changes nothing else. -/
theorem bindProgram_relocate (known : List PackageSymbol) (last : Nat) (members : List Member) :
    bindProgram (known.map (PackageSymbol.relocate g)) last (members.map (Member.relocate g)) =
      (bindProgram known last members).relocate g := by
  let start : Walk :=
    { scope := (Scope.root (prelude (last + typeFunctionIds))).enter
      last := last + typeFunctionIds + preludeIds
      typeFunctions := typeFunctions last }
  have hstart : start.relocate g = start := by
    simp [start, Walk.relocate, Scope.relocate, Scope.map, Scope.enter, Scope.root,
      prelude_relocate]
  have hdeclared := start.declareMembers_relocate g known members
  have hbound := (start.declareMembers known members).2.bindMembers_relocate g members
    (start.declareMembers known members).1
  rw [hstart] at hdeclared
  unfold bindProgram
  dsimp only
  rw [hdeclared]
  dsimp only
  rw [hbound]
  rfl

end

end TodLang
