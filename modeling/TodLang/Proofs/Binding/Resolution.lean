import TodLang.Grammar.Member
import TodLang.Token.Scan
import TodLang.Proofs.Binding.Answers
/-!
What binding a program records for the names in it. In the bodies of functions, in the values of
global variables and in the other statements, every name is recorded with the symbol that lexical
scoping gives (`bindProgram_lexical`). A walk keeps in step with a place of the tree: one lemma for
each thing that it does, then statements by induction, then the members of a program.
-/

namespace TodLang

namespace Walk

/-- The uses of names that were recorded so far. -/
def recorded (w : Walk) : List Resolution :=
  Finding.recorded w.findings

/-- Whether a walk sees given regions, counts from a given number, and has recorded the answers to
given uses since a given start. -/
structure Follows (program root : Region) (start : List Resolution) (uses : List Use)
    (regions : List (List Declared)) (last : Nat) (w : Walk) : Prop where
  sees : w.scope.Sees program root regions
  last : w.last = last
  answers : ∃ answers, w.recorded = start ++ answers ∧ Answers program root uses answers

namespace Follows

variable {program root : Region} {start : List Resolution} {uses : List Use}
  {regions : List (List Declared)} {last : Nat} {w : Walk}

theorem report (h : w.Follows program root start uses regions last) {others : List Use}
    {findings : List Finding}
    (hfindings : Answers program root others (Finding.recorded findings)) :
    (w.report findings).Follows program root start (uses ++ others) regions last := by
  rcases h.answers with ⟨answers, hrecorded, hanswers⟩
  refine ⟨h.sees, h.last, answers ++ Finding.recorded findings, ?_, hanswers.append hfindings⟩
  have hreport : (w.report findings).recorded = w.recorded ++ Finding.recorded findings :=
    Finding.recorded_append w.findings findings
  rw [hreport, hrecorded, List.append_assoc]

theorem expression (h : w.Follows program root start uses regions last) (e : Expression) :
    (w.expression e).Follows program root start (uses ++ e.uses regions) regions last :=
  h.report (h.sees.expression w.typeFunctions e)

theorem optionalExpression (h : w.Follows program root start uses regions last)
    (value : Option Expression) :
    (w.optionalExpression value).Follows program root start
      (uses ++ value.elim [] (Expression.uses regions)) regions last := by
  cases value with
  | none =>
    rw [Option.elim_none, List.append_nil]
    exact h
  | some e => exact h.expression e

theorem enter (h : w.Follows program root start uses regions last) :
    w.enter.Follows program root start uses ([] :: regions) last :=
  ⟨h.sees.enter, h.last, h.answers⟩

theorem leave {inner : List Declared}
    (h : w.Follows program root start uses (inner :: regions) last) :
    w.leave.Follows program root start uses regions last := by
  obtain ⟨next, others, houter, hsees⟩ := h.sees.leave
  have hleave : w.leave =
      { w with scope := ⟨next, others⟩, closed := w.closed ++ w.scope.inner.symbols } := by
    simp only [Walk.leave, houter]
  rw [hleave]
  exact ⟨hsees, h.last, h.answers⟩

theorem declare {inner : List Declared} {d : Declared} {symbol : Symbol}
    (h : w.Follows program root start uses (inner :: regions) last) (hd : d.Denotes symbol)
    (span : Span) :
    (w.declare symbol span).Follows program root start uses ((inner ++ [d]) :: regions)
      last := by
  unfold Walk.declare
  cases hdeclare : w.scope.declare? symbol with
  | some scope => exact ⟨h.sees.declare hd hdeclare, h.last, h.answers⟩
  | none =>
    -- The name keeps its meaning, since the first declaration of it counts.
    have hnothing : Answers program root []
        (Finding.recorded [.fault (.alreadyDeclared symbol.name) span]) := .nil
    have hreport := h.report hnothing
    rw [List.append_nil] at hreport
    exact ⟨h.sees.declare_none hd hdeclare, hreport.last, hreport.answers⟩

theorem declaredType (h : w.Follows program root start uses regions last)
    (d : VariableDeclaration) :
    (w.declaredType d).2.Follows program root start
      (uses ++ (d.type.map fun clause => ⟨regions, .other [clause.name]⟩).toList) regions
      last := by
  unfold Walk.declaredType
  cases d.type with
  | some clause => exact h.report (Scope.answers_type w.scope clause)
  | none =>
    rw [Option.map_none, Option.toList_none, List.append_nil]
    cases d.value <;> exact h

theorem localVariable {p : Place} (h : w.Follows program root start uses p.regions p.last)
    (d : VariableDeclaration) :
    (w.localVariable d).Follows program root start (uses ++ d.uses p.regions)
      (p.declare d.name).regions (p.declare d.name).last := by
  have htype := (h.optionalExpression d.value).declaredType d
  rw [List.append_assoc] at htype
  unfold Walk.localVariable Walk.declareVariable
  generalize (w.optionalExpression d.value).declaredType d = typed at htype ⊢
  obtain ⟨type, w⟩ := typed
  have hcount : w.countVariable.Follows program root start (uses ++ d.uses p.regions) p.regions
      (p.last + 1) := ⟨htype.sees, congrArg (· + 1) htype.last, htype.answers⟩
  have hdenotes : (Declared.localVariable d.name (p.last + 1)).Denotes
      (.localVariable (w.newVariable d.name d.readOnly type)) :=
    ⟨_, rfl, rfl, congrArg (· + 1) htype.last, rfl⟩
  exact hcount.declare hdenotes d.name.span

/-- The end of a region. What is declared in it is gone, the numbers that it took are not. -/
theorem resume {p q : Place} (h : w.Follows program root start uses q.regions q.last)
    (houter : q.outer = p.regions) :
    w.leave.Follows program root start uses (p.resume q).regions (p.resume q).last := by
  have hregions : q.regions = q.inner :: p.regions := congrArg (q.inner :: ·) houter
  rw [hregions] at h
  exact h.leave

end Follows

end Walk

namespace Place

/-- A statement declares nothing in the regions around its own. -/
theorem after_outer (p : Place) (s : Statement) : (p.after s).outer = p.outer := by
  cases s <;> rfl

theorem afterAll_outer (p : Place) (statements : List Statement) :
    (p.afterAll statements).outer = p.outer := by
  induction statements generalizing p with
  | nil => rfl
  | cons s others ih => exact (ih (p.after s)).trans (after_outer p s)

end Place

namespace Walk.Follows

variable {program root : Region} {start : List Resolution}

mutual

/-- Binding a statement records the answers to its uses and leads to the place behind it. -/
theorem statement {uses : List Use} {w : Walk} {p : Place}
    (h : w.Follows program root start uses p.regions p.last) (s : Statement) :
    (w.statement s).Follows program root start (uses ++ p.uses s) (p.after s).regions
      (p.after s).last := by
  cases s with
  | block opening statements closing =>
    have hinside := h.enter.statements (p := p.enter) statements
    exact hinside.resume (Place.afterAll_outer p.enter statements)
  | declaration d => exact h.localVariable d
  | ifThen keyword condition body =>
    have hbody := (h.expression condition).enter.statement (p := p.enter) body
    rw [List.append_assoc] at hbody
    exact hbody.resume (Place.after_outer p.enter body)
  | ifElse keyword condition body elseKeyword alternative =>
    have hbody := ((h.expression condition).enter.statement (p := p.enter) body).resume
      (Place.after_outer p.enter body)
    let q := p.resume (p.enter.after body)
    have halternative := hbody.enter.statement (p := q.enter) alternative
    rw [List.append_assoc, List.append_assoc, ← List.append_assoc (condition.uses p.regions)]
      at halternative
    exact halternative.resume (Place.after_outer q.enter alternative)
  | «return» keyword value => exact h.optionalExpression value
  | «for» keyword init condition step body =>
    let head := p.enter.declare init.name
    have hinit := h.enter.localVariable (p := p.enter) init
    have hstep := (hinit.expression condition).statement (p := head) step
    have hbody := hstep.enter.statement (p := (head.after step).enter) body
    have hhead := hbody.resume (p := head.after step) (Place.after_outer _ body)
    have houter : (head.after step).outer = p.regions := Place.after_outer head step
    have hend := hhead.resume houter
    simp only [Place.uses, ← List.append_assoc]
    exact hend
  | «while» keyword condition body =>
    have hbody := (h.expression condition).enter.statement (p := p.enter) body
    rw [List.append_assoc] at hbody
    exact hbody.resume (Place.after_outer p.enter body)
  | «break» keyword =>
    rw [Place.uses, List.append_nil]
    exact h
  | «continue» keyword =>
    rw [Place.uses, List.append_nil]
    exact h
  | expression e => exact h.expression e

theorem statements {uses : List Use} {w : Walk} {p : Place}
    (h : w.Follows program root start uses p.regions p.last) (statements : List Statement) :
    (w.statements statements).Follows program root start (uses ++ p.usesAll statements)
      (p.afterAll statements).regions (p.afterAll statements).last := by
  cases statements with
  | nil =>
    rw [Place.usesAll, List.append_nil]
    exact h
  | cons s others =>
    have hothers := (h.statement s).statements others
    rw [List.append_assoc] at hothers
    exact hothers

end

/-- The parameters of a function are declared in the region of its body. -/
theorem declareParameters {uses : List Use} {w : Walk} {inner : List Declared}
    {regions : List (List Declared)} {last : Nat}
    (h : w.Follows program root start uses (inner :: regions) last) (opening : Span)
    (parameters : List Variable) :
    (w.declareParameters opening parameters).Follows program root start uses
      ((inner ++ parameters.map .parameter) :: regions) last := by
  induction parameters generalizing w inner with
  | nil =>
    rw [List.map_nil, List.append_nil]
    exact h
  | cons v others ih =>
    have hv : (Declared.parameter v).Denotes (.parameter v) := rfl
    have hothers := ih (h.declare hv (v.declaration.getD opening))
    rw [List.append_assoc] at hothers
    exact hothers

theorem functionBody {uses : List Use} {w : Walk} {last : Nat}
    (h : w.Follows program root start uses [] last) (symbol : FunctionSymbol) (body : Block) :
    (w.functionBody symbol body).2.Follows program root start
      (uses ++ (Place.ofFunction symbol last).usesAll body.statements) []
      ((Place.ofFunction symbol last).afterAll body.statements).last := by
  let p := Place.ofFunction symbol last
  have hclosed : Follows program root start uses [] last { w with closed := [] } :=
    ⟨h.sees, h.last, h.answers⟩
  have hparameters := hclosed.enter.declareParameters body.opening symbol.parameters
  have hbody := hparameters.statements (p := p) body.statements
  have houter : (p.afterAll body.statements).regions =
      [(p.afterAll body.statements).inner] :=
    congrArg (_ :: ·) (Place.afterAll_outer p body.statements)
  rw [houter] at hbody
  have hleave := hbody.leave
  exact ⟨hleave.sees, hleave.last, hleave.answers⟩

theorem globalStatement {uses : List Use} {w : Walk} {last : Nat}
    (h : w.Follows program root start uses [] last) (s : Statement) :
    (w.globalStatement s).Follows program root start
      (uses ++ (Place.ofStatement last).uses s) [] ((Place.ofStatement last).after s).last := by
  let p := Place.ofStatement last
  have hbody := h.enter.statement (p := p) s
  have houter : (p.after s).regions = [(p.after s).inner] :=
    congrArg (_ :: ·) (Place.after_outer p s)
  rw [houter] at hbody
  have hleave := hbody.leave
  exact ⟨hleave.sees, hleave.last, hleave.answers⟩

/-- Binding the members of a program records the answers to its uses. -/
theorem members {uses : List Use} {w : Walk} {last : Nat}
    (h : w.Follows program root start uses [] last) (members : List Member)
    (symbols : List FunctionSymbol) :
    (w.bindMembers members symbols).2.Follows program root start
      (uses ++ programUses last members symbols) [] (programLast last members symbols) := by
  induction members generalizing w uses last symbols with
  | nil =>
    rw [programUses, List.append_nil]
    exact h
  | cons member others ih =>
    cases member with
    | function f =>
      cases symbols with
      | nil => exact ih h []
      | cons symbol symbols =>
        have hothers := ih (h.functionBody symbol f.body) symbols
        rw [List.append_assoc] at hothers
        exact hothers
    | statement s =>
      have hstatement := ih (h.globalStatement s) symbols
      rw [List.append_assoc] at hstatement
      cases s with
      | declaration d =>
        have hvalue := ih (h.optionalExpression d.value) symbols
        rw [List.append_assoc] at hvalue
        exact hvalue
      | _ => exact hstatement
    | _ => exact ih h symbols

end Walk.Follows

namespace Walk

/-! ### Declaring the members leaves what is around the program alone -/

theorem declare_outer (w : Walk) (symbol : Symbol) (span : Span) :
    (w.declare symbol span).scope.outer = w.scope.outer := by
  unfold declare
  cases hdeclare : w.scope.declare? symbol with
  | none => rfl
  | some scope =>
    obtain ⟨r, -, rfl⟩ := Option.map_eq_some_iff.1 hdeclare
    rfl

theorem foldl_outer {α : Type} {step : Walk → α → Walk}
    (hstep : ∀ w x, (step w x).scope.outer = w.scope.outer) (l : List α) (w : Walk) :
    (l.foldl step w).scope.outer = w.scope.outer := by
  induction l generalizing w with
  | nil => rfl
  | cons x others ih => exact (ih (step w x)).trans (hstep w x)

theorem packageUse_outer (w : Walk) (name : Ident) :
    (w.packageUse name).scope.outer = w.scope.outer := by
  unfold packageUse
  cases w.scope.lookupPackage? name.name with
  | none => rfl
  | some package =>
    exact foldl_outer (fun w f => declare_outer w (.function f) name.span) package.functions _

theorem structNames_outer (w : Walk) (ds : List StructDeclaration) :
    (w.structNames ds).2.scope.outer = w.scope.outer := by
  induction ds generalizing w with
  | nil => rfl
  | cons d others ih => exact (ih (w.structName d).2).trans (declare_outer ..)

theorem fields_scope (w : Walk) (known : List Variable) (ps : List Parameter) :
    (w.fields known ps).2.scope = w.scope := by
  induction ps generalizing w known with
  | nil => rfl
  | cons field others ih =>
    unfold fields
    dsimp only
    split
    · exact ih _ _
    · exact ih _ _

theorem structFields_outer (w : Walk) (d : StructDeclaration) :
    (w.structFields d).scope.outer = w.scope.outer := by
  change (w.fields [] d.fields).2.scope.outer = w.scope.outer
  rw [fields_scope]

theorem parameters_scope (w : Walk) (ps : List Parameter) :
    (w.parameters ps).2.scope = w.scope := by
  induction ps generalizing w with
  | nil => rfl
  | cons p others ih => exact ih (w.type p.type).2.countVariable

theorem signature_scope (w : Walk) (name : Ident) (ps : List Parameter)
    (returnType : Option TypeClause) (span : Span) :
    (w.signature name ps returnType span).2.scope = w.scope := by
  have hparameters := parameters_scope w ps
  cases returnType <;> exact hparameters

theorem signatures_outer (w : Walk) (members : List Member) :
    (w.signatures members).2.scope.outer = w.scope.outer := by
  induction members generalizing w with
  | nil => rfl
  | cons member others ih =>
    cases member with
    | function f =>
      have hsignature := congrArg Scope.outer
        (signature_scope w f.name f.parameters f.returnType (Member.function f).span)
      exact ((ih _).trans (declare_outer ..)).trans hsignature
    | external e =>
      have hsignature := congrArg Scope.outer
        (signature_scope w e.name e.parameters e.returnType (Member.external e).span)
      exact ((ih _).trans (declare_outer ..)).trans hsignature
    | _ => exact ih w

theorem declareVariable_outer (w : Walk) (make : Variable → Symbol) (d : VariableDeclaration) :
    (w.declareVariable make d).scope.outer = w.scope.outer := by
  have htype : (w.declaredType d).2.scope = w.scope := by
    unfold declaredType
    cases d.type <;> cases d.value <;> rfl
  exact (declare_outer ..).trans (congrArg Scope.outer htype)

theorem declareMembers_outer (known : List PackageSymbol) (w : Walk) (members : List Member) :
    (w.declareMembers known members).2.scope.outer = w.scope.outer := by
  refine (foldl_outer (fun w d => declareVariable_outer w .globalVariable d) _ _).trans ?_
  refine (signatures_outer _ members).trans ?_
  refine (foldl_outer structFields_outer _ _).trans ?_
  refine (structNames_outer _ _).trans ?_
  refine (foldl_outer packageUse_outer _ _).trans ?_
  exact foldl_outer (fun w _ => declare_outer w _ _) _ w

end Walk

/-- The functions of a program that have a body. -/
def functionDeclarations (members : List Member) : List FunctionDeclaration :=
  members.filterMap fun
    | .function f => some f
    | _ => none

/-- Whether a symbol is the one of a function: it has its name, and its parameters are the written
ones, in their order. -/
structure Signs (f : FunctionDeclaration) (symbol : FunctionSymbol) : Prop where
  name : symbol.name = f.name.name
  parameters : List.Forall₂
    (fun p v => v.name = p.name.name ∧ v.declaration = some p.name.span)
    f.parameters symbol.parameters

namespace Walk

theorem parameters_sign (w : Walk) (ps : List Parameter) :
    List.Forall₂ (fun p v => v.name = p.name.name ∧ v.declaration = some p.name.span)
      ps (w.parameters ps).1 := by
  induction ps generalizing w with
  | nil => exact .nil
  | cons p others ih => exact .cons ⟨rfl, rfl⟩ (ih _)

theorem signatures_sign (w : Walk) (members : List Member) :
    List.Forall₂ Signs (functionDeclarations members) (w.signatures members).1 := by
  induction members generalizing w with
  | nil => exact .nil
  | cons member others ih =>
    cases member with
    | function f => exact .cons ⟨rfl, parameters_sign w f.parameters⟩ (ih _)
    | external e => exact ih _
    | _ => exact ih w

/-- Every function is bound under its own symbol. -/
theorem bindMembers_symbols {members : List Member} {symbols : List FunctionSymbol}
    (h : List.Forall₂ Signs (functionDeclarations members) symbols) (w : Walk) :
    (w.bindMembers members symbols).1.map BoundFunction.symbol = symbols := by
  induction members generalizing w symbols with
  | nil =>
    cases h
    rfl
  | cons member others ih =>
    cases member with
    | function f =>
      cases h with
      | cons _ hrest => exact congrArg (_ :: ·) (ih hrest _)
    | statement s =>
      cases s <;> exact ih h _
    | _ => exact ih h w

/-- The walk that binding a program begins with. -/
def beginning (last : Nat) : Walk :=
  { scope := (Scope.root (prelude (last + typeFunctionIds))).enter
    last := last + typeFunctionIds + preludeIds
    typeFunctions := TodLang.typeFunctions last }

/-- The walk once all members of a program are declared. -/
def declaring (known : List PackageSymbol) (last : Nat) (members : List Member) : Walk :=
  ((beginning last).declareMembers known members).2

/-- A walk that is in the program's own region follows no uses yet. -/
theorem Follows.ofOuter {w : Walk} {root : Region} (h : w.scope.outer = [root]) :
    w.Follows w.scope.inner root w.recorded [] [] w.last := by
  have hregions : w.scope.regions = [w.scope.inner, root] := congrArg (w.scope.inner :: ·) h
  exact ⟨⟨[], hregions, .nil⟩, rfl, [], (List.append_nil _).symm, .nil⟩

theorem Follows.inner_eq {program root : Region} {start : List Resolution} {uses : List Use}
    {last : Nat} {w : Walk} (h : w.Follows program root start uses [] last) :
    w.scope.inner = program := by
  rcases h.sees with ⟨locals, hregions, hlocals⟩
  cases hlocals
  exact (List.cons.inj hregions).1

theorem declaring_follows (known : List PackageSymbol) (last : Nat) (members : List Member) :
    let declared := declaring known last members
    declared.Follows declared.scope.inner (prelude (last + typeFunctionIds)) declared.recorded [] []
      declared.last :=
  Follows.ofOuter (declareMembers_outer known (beginning last) members)

end Walk

/-- The scope of a whole program: its own region, and the prelude's around it. -/
def programScope (known : List PackageSymbol) (last : Nat) (members : List Member) : Scope :=
  ⟨⟨(bindProgram known last members).symbols⟩, [prelude (last + typeFunctionIds)]⟩

/-- Binding the bodies of a program declares nothing in its own region. -/
theorem programScope_eq (known : List PackageSymbol) (last : Nat) (members : List Member) :
    programScope known last members = (Walk.declaring known last members).scope := by
  let declared := Walk.declaring known last members
  have hbound := (Walk.declaring_follows known last members).members members
    ((Walk.beginning last).declareMembers known members).1
  have hinner : (⟨(bindProgram known last members).symbols⟩ : Region) = declared.scope.inner :=
    hbound.inner_eq
  have houter : declared.scope.outer = [prelude (last + typeFunctionIds)] :=
    Walk.declareMembers_outer known (Walk.beginning last) members
  rw [programScope, hinner, ← houter]

/-- Every use of a name in the bodies of a program, in the values of its global variables and in its
other statements is recorded, in order, with the symbol that lexical scoping gives. -/
theorem bindProgram_lexical (known : List PackageSymbol) (last : Nat) (members : List Member) :
    let p := bindProgram known last members
    let declared := Walk.declaring known last members
    let symbols := p.functions.map BoundFunction.symbol
    List.Forall₂ Signs (functionDeclarations members) symbols ∧
      p.last = programLast declared.last members symbols ∧
      ∃ answers, p.resolutions = declared.recorded ++ answers ∧
        Answers ⟨p.symbols⟩ (prelude (last + typeFunctionIds))
          (programUses declared.last members symbols) answers := by
  intro p declared symbols
  let signed := ((Walk.beginning last).declareMembers known members).1
  let bound := declared.bindMembers members signed
  have hsign : List.Forall₂ Signs (functionDeclarations members) signed :=
    Walk.signatures_sign _ members
  have hsymbols : symbols = signed := Walk.bindMembers_symbols hsign declared
  have houter : declared.scope.outer = [prelude (last + typeFunctionIds)] :=
    Walk.declareMembers_outer known (Walk.beginning last) members
  have hbound := (Walk.Follows.ofOuter houter).members members signed
  have hprogram : (⟨p.symbols⟩ : Region) = declared.scope.inner := hbound.inner_eq
  rw [hsymbols, hprogram]
  exact ⟨hsign, hbound.last, hbound.answers⟩

/-- Behind `main`, a name does not stand for the parameter of that name, although the parameter is
declared in the region around it. -/
theorem main_name_passes_parameter :
    ∃ tokens members f keyword use v, ∃ r ∈ (bindProgram [] 0 members).resolutions,
      tokenize 0 true "var x = 1 fn f(x int) \x7b main x \x7d" = .ok tokens ∧
      parseProgram tokens = .ok members ∧ .function f ∈ members ∧
      f.body.statements = [.expression (.main keyword (.name use))] ∧
      (bindProgram [] 0 members).functions.map (·.symbol.parameters) = [[v]] ∧ r.name = use ∧
      ¬ Use.Answered ⟨(bindProgram [] 0 members).symbols⟩ (prelude typeFunctionIds)
        ⟨[[.parameter v]], .value use⟩ [r] := by
  let tokens : List Token :=
    [⟨.keyword .varWord, "var", none, ⟨0, 0, 3, 1, 1, 1, 4⟩, true⟩,
      ⟨.identifier, "x", none, ⟨0, 4, 5, 1, 5, 1, 6⟩, true⟩,
      ⟨.sign .assign, "=", none, ⟨0, 6, 7, 1, 7, 1, 8⟩, true⟩,
      ⟨.integer, "1", some (.integer 1), ⟨0, 8, 9, 1, 9, 1, 10⟩, true⟩,
      ⟨.keyword .fnWord, "fn", none, ⟨0, 10, 12, 1, 11, 1, 13⟩, true⟩,
      ⟨.identifier, "f", none, ⟨0, 13, 14, 1, 14, 1, 15⟩, false⟩,
      ⟨.sign .lparen, "(", none, ⟨0, 14, 15, 1, 15, 1, 16⟩, false⟩,
      ⟨.identifier, "x", none, ⟨0, 15, 16, 1, 16, 1, 17⟩, true⟩,
      ⟨.identifier, "int", none, ⟨0, 17, 20, 1, 18, 1, 21⟩, false⟩,
      ⟨.sign .rparen, ")", none, ⟨0, 20, 21, 1, 21, 1, 22⟩, true⟩,
      ⟨.sign .lbrace, "\x7b", none, ⟨0, 22, 23, 1, 23, 1, 24⟩, true⟩,
      ⟨.identifier, "main", none, ⟨0, 24, 28, 1, 25, 1, 29⟩, true⟩,
      ⟨.identifier, "x", none, ⟨0, 29, 30, 1, 30, 1, 31⟩, true⟩,
      ⟨.sign .rbrace, "\x7d", none, ⟨0, 31, 32, 1, 32, 1, 33⟩, true⟩,
      Token.ending ⟨0, 32, 32, 1, 33, 1, 33⟩]
  let one : Token := ⟨.integer, "1", some (.integer 1), ⟨0, 8, 9, 1, 9, 1, 10⟩, true⟩
  let global : VariableDeclaration :=
    ⟨⟨0, 0, 3, 1, 1, 1, 4⟩, false, none, ⟨"x", ⟨0, 4, 5, 1, 5, 1, 6⟩⟩, some (.literal one)⟩
  let use : Ident := ⟨"x", ⟨0, 29, 30, 1, 30, 1, 31⟩⟩
  let f : FunctionDeclaration :=
    { visibility := none
      keyword := ⟨0, 10, 12, 1, 11, 1, 13⟩
      name := ⟨"f", ⟨0, 13, 14, 1, 14, 1, 15⟩⟩
      parameters :=
        [⟨⟨"x", ⟨0, 15, 16, 1, 16, 1, 17⟩⟩,
          ⟨none, ⟨"int", ⟨0, 17, 20, 1, 18, 1, 21⟩⟩, [], none⟩⟩]
      returnType := none
      body :=
        ⟨⟨0, 22, 23, 1, 23, 1, 24⟩,
          [.expression (.main ⟨0, 24, 28, 1, 25, 1, 29⟩ (.name use))],
          ⟨0, 31, 32, 1, 32, 1, 33⟩⟩ }
  let v : Variable := ⟨"x", false, .builtin "int", 6, some ⟨0, 15, 16, 1, 16, 1, 17⟩⟩
  have htokens : tokenize 0 true "var x = 1 fn f(x int) \x7b main x \x7d" = .ok tokens := by
    decide +kernel
  have hmembers :
      parseProgram tokens = .ok [.statement (.declaration global), .function f] := by
    dsimp only [tokens, one, global, f, use]
    cbv
  refine ⟨tokens, _, f, _, use, v, ⟨use, some "GV_x_7"⟩, ?_, htokens, hmembers, by simp, rfl,
    ?_, rfl, ?_⟩
  · decide +kernel
  · rfl
  · decide +kernel

end TodLang
