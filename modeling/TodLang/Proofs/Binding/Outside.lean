import TodLang.Proofs.Binding.Alike
import TodLang.Proofs.Binding.RelocatedProgram
/-!
Programs as they are seen from outside of their functions: their members without bodies and without
the names of parameters, and perhaps without parameters at all. If two programs are the same from
outside, then so are their scopes (`programScope_outside`): whatever is declared in a function or in
a statement adds nothing to the scope of the program and takes nothing from it. Two walks declare
the members of such programs side by side (`Walk.Matches`).
-/

namespace TodLang

/-! ### Symbols without parameters -/

/-- A parameter as a call sees it. It has a type, and no name. -/
def Variable.unnamed (v : Variable) : Variable :=
  { name := "", readOnly := false, type := v.type, id := 0, declaration := none }

/-- A function without the names of its parameters, and without parameters if their types do not
count either. Where it is written is not kept. -/
def FunctionSymbol.withoutParameters (typed : Bool) (f : FunctionSymbol) : FunctionSymbol :=
  { f with
    parameters := if typed then f.parameters.map Variable.unnamed else []
    declaration := none }

/-- A symbol without parameters. If their types do not count, global variables have no numbers,
since parameters take numbers before them. -/
def Symbol.withoutParameters (typed : Bool) : Symbol → Symbol
  | .function f => .function (f.withoutParameters typed)
  | .globalVariable v => .globalVariable { v with id := if typed then v.id else 0 }
  | other => other

namespace Symbol

variable (typed : Bool)

@[simp] theorem name_withoutParameters (s : Symbol) :
    (s.withoutParameters typed).name = s.name := by
  cases s <;> rfl

@[simp] theorem asPackage?_withoutParameters (s : Symbol) :
    (s.withoutParameters typed).asPackage? = s.asPackage? := by
  cases s <;> rfl

@[simp] theorem asStruct?_withoutParameters (s : Symbol) :
    (s.withoutParameters typed).asStruct? = s.asStruct? := by
  cases s <;> rfl

@[simp] theorem namedType?_withoutParameters (s : Symbol) :
    (s.withoutParameters typed).namedType? = s.namedType? := by
  cases s <;> rfl

/-- The types of parameters are all that a fingerprint has of them. -/
theorem fingerprint_withoutParameters (s : Symbol) :
    (s.withoutParameters true).fingerprint = s.fingerprint := by
  cases s with
  | function f =>
    simp [withoutParameters, fingerprint, FunctionSymbol.withoutParameters,
      FunctionSymbol.fingerprint, Variable.unnamed, Function.comp_def]
  | _ => rfl

end Symbol

namespace Scope

variable (typed : Bool)

/-- What is read of a symbol without its parameters is found as before. -/
theorem bind_lookup?_map {α : Type} {f : Symbol → Symbol} (hname : ∀ s, (f s).name = s.name)
    {read : Symbol → Option α} (hread : ∀ s, read (f s) = read s) (s : Scope) (name : String) :
    ((s.map f).lookup? name).bind read = (s.lookup? name).bind read := by
  rw [lookup?_map hname]
  cases s.lookup? name with
  | none => rfl
  | some symbol => exact hread symbol

/-- The scope without the parameters of functions. -/
def withoutParameters (s : Scope) : Scope :=
  s.map (Symbol.withoutParameters typed)

theorem lookup?_withoutParameters (s : Scope) (name : String) :
    (s.withoutParameters typed).lookup? name =
      (s.lookup? name).map (Symbol.withoutParameters typed) :=
  lookup?_map (Symbol.name_withoutParameters typed) s name

theorem lookupPackage?_withoutParameters (s : Scope) (name : String) :
    (s.withoutParameters typed).lookupPackage? name = s.lookupPackage? name :=
  bind_lookup?_map (Symbol.name_withoutParameters typed)
    (Symbol.asPackage?_withoutParameters typed) s name

theorem lookupStruct?_withoutParameters (s : Scope) (name : String) :
    (s.withoutParameters typed).lookupStruct? name = s.lookupStruct? name :=
  bind_lookup?_map (Symbol.name_withoutParameters typed)
    (Symbol.asStruct?_withoutParameters typed) s name

theorem structOf?_withoutParameters (s : Scope) (type : Ty) :
    (s.withoutParameters typed).structOf? type = s.structOf? type := by
  rw [structOf?, structOf?]
  cases type.structName with
  | none => rfl
  | some name => exact s.lookupStruct?_withoutParameters typed name

theorem alike_withoutParameters (s : Scope) (names : List Ident) :
    s.Alike (s.withoutParameters typed) names :=
  ⟨s.lookupPackage?_withoutParameters typed, fun n _ =>
    bind_lookup?_map (Symbol.name_withoutParameters typed)
      (Symbol.namedType?_withoutParameters typed) s n.name⟩

theorem resolveType_withoutParameters (s : Scope) (clause : TypeClause) :
    (s.withoutParameters typed).resolveType clause = s.resolveType clause :=
  (s.alike_withoutParameters typed _).resolveType

theorem variableType_withoutParameters (s : Scope) (name : Ident) :
    (s.withoutParameters typed).variableType name = s.variableType name := by
  rw [variableType, variableType, lookupVariable?, lookupVariable?, lookup?_withoutParameters]
  cases s.lookup? name.name with
  | none => rfl
  | some symbol => cases symbol <;> rfl

theorem clauseType_withoutParameters (s : Scope) (clause : TypeClause) :
    (s.withoutParameters typed).clauseType clause = s.clauseType clause := by
  rw [clauseType, clauseType, (s.alike_withoutParameters typed _).lookupType]

theorem callType_withoutParameters (s : Scope) (callee : Ident) :
    (s.withoutParameters typed).callType callee = s.callType callee := by
  rw [callType, callType, lookup?_withoutParameters]
  cases s.lookup? callee.name with
  | none => rfl
  | some symbol => cases symbol <;> rfl

theorem packageCallType_withoutParameters (s : Scope) (package callee : Ident) :
    (s.withoutParameters typed).packageCallType package callee =
      s.packageCallType package callee := by
  rw [packageCallType, packageCallType, lookupPackage?_withoutParameters]

theorem fieldType_withoutParameters (s : Scope) (object field : Ident) :
    (s.withoutParameters typed).fieldType object field = s.fieldType object field := by
  rw [fieldType, fieldType, variableType_withoutParameters, structOf?_withoutParameters]

/-- What type an expression has does not depend on parameters of functions. -/
theorem inferType_withoutParameters (functions : List TypeFunction) (s : Scope) (e : Expression) :
    (s.withoutParameters typed).inferType functions e = s.inferType functions e := by
  cases e with
  | literal _ | this _ | fieldAssignment _ _ _ | arrayAssignment _ _ _ => rfl
  | parenthesized _ inner _ => exact inferType_withoutParameters functions s inner
  | assignment _ value => exact inferType_withoutParameters functions s value
  | name n | edit n _ _ | step n _ => exact s.variableType_withoutParameters typed n
  | call callee _ _ => exact s.callType_withoutParameters typed callee
  | cast type _ _ | make _ type _ _ | makeSized _ type _ _ | makeArray _ type _ _
  | makeStruct _ type _ _ => exact s.clauseType_withoutParameters typed type
  | packageCall package callee _ _ =>
    exact s.packageCallType_withoutParameters typed package callee
  | typeCall receiver callee _ _ => simp only [inferType, variableType_withoutParameters]
  | unary operator operand =>
    simp only [inferType, inferType_withoutParameters functions s operand]
  | binary left operator _ => simp only [inferType, inferType_withoutParameters functions s left]
  | fieldAccess object field => exact s.fieldType_withoutParameters typed object field
  | arrayAccess array _ _ => simp only [inferType, inferType_withoutParameters functions s array]
  | reference _ n => simp only [inferType, variableType_withoutParameters]
  | dereference _ operand =>
    simp only [inferType, inferType_withoutParameters functions s operand]
  | main _ inner =>
    have hprogram := inferType_withoutParameters functions s.program inner
    have hscope : (s.withoutParameters typed).program = s.program.withoutParameters typed :=
      program_map s
    rw [← hscope] at hprogram
    cases inner with
    | assignment _ value => exact inferType_withoutParameters functions s value
    | _ => exact hprogram

end Scope

/-! ### Walks side by side -/

namespace Walk

/-- Whether two walks are in scopes that are the same without parameters. They count alike if the
types of parameters count. -/
structure Matches (typed : Bool) (w w' : Walk) : Prop where
  scope : w'.scope.withoutParameters typed = w.scope.withoutParameters typed
  functions : w'.typeFunctions = w.typeFunctions
  last : typed = true → w'.last = w.last

variable {typed : Bool} {w w' : Walk}

namespace Matches

theorem refl (w : Walk) : w.Matches typed w :=
  ⟨rfl, rfl, fun _ => rfl⟩

theorem report (h : w.Matches typed w') (findings findings' : List Finding) :
    (w.report findings).Matches typed (w'.report findings') :=
  ⟨h.scope, h.functions, h.last⟩

theorem countVariable (h : w.Matches typed w') :
    w.countVariable.Matches typed w'.countVariable :=
  ⟨h.scope, h.functions, fun htyped => congrArg (· + 1) (h.last htyped)⟩

end Matches

/-- What a declaration makes of the scope is seen without parameters. -/
theorem declare_withoutParameters (w : Walk) (symbol : Symbol) (span : Span) :
    (w.declare symbol span).scope.withoutParameters typed =
      ((w.scope.withoutParameters typed).declare? (symbol.withoutParameters typed)).getD
        (w.scope.withoutParameters typed) := by
  have hdeclare : (w.scope.withoutParameters typed).declare? (symbol.withoutParameters typed) =
      (w.scope.declare? symbol).map (Scope.withoutParameters typed) :=
    Scope.declare?_map (Symbol.name_withoutParameters typed) w.scope symbol
  rw [hdeclare]
  unfold declare
  cases w.scope.declare? symbol <;> rfl

theorem declare_functions (w : Walk) (symbol : Symbol) (span : Span) :
    (w.declare symbol span).typeFunctions = w.typeFunctions := by
  unfold declare
  cases w.scope.declare? symbol <;> rfl

namespace Matches

theorem declare (h : w.Matches typed w') {symbol symbol' : Symbol}
    (hsymbol : symbol'.withoutParameters typed = symbol.withoutParameters typed)
    (span span' : Span) : (w.declare symbol span).Matches typed (w'.declare symbol' span') := by
  constructor
  · rw [declare_withoutParameters, declare_withoutParameters, h.scope, hsymbol]
  · rw [declare_functions, declare_functions, h.functions]
  · intro htyped
    rw [declare_last, declare_last, h.last htyped]

theorem resolveType (h : w.Matches typed w') (clause : TypeClause) :
    w'.scope.resolveType clause = w.scope.resolveType clause := by
  rw [← w'.scope.resolveType_withoutParameters typed, h.scope,
    w.scope.resolveType_withoutParameters typed]

theorem inferType (h : w.Matches typed w') (e : Expression) :
    Scope.inferType w'.typeFunctions w'.scope e = Scope.inferType w.typeFunctions w.scope e := by
  rw [h.functions, ← w'.scope.inferType_withoutParameters typed, h.scope,
    w.scope.inferType_withoutParameters typed]

theorem type (h : w.Matches typed w') (clause : TypeClause) :
    (w'.type clause).1 = (w.type clause).1 ∧
      (w.type clause).2.Matches typed (w'.type clause).2 :=
  ⟨congrArg (fun resolved : Ty × List Finding => resolved.1) (h.resolveType clause), h.report _ _⟩

theorem declaredType (h : w.Matches typed w') (d : VariableDeclaration) :
    (w'.declaredType d).1 = (w.declaredType d).1 ∧
      (w.declaredType d).2.Matches typed (w'.declaredType d).2 := by
  unfold Walk.declaredType
  cases d.type with
  | some clause => exact h.type clause
  | none =>
    cases d.value with
    | none => exact ⟨rfl, h⟩
    | some value => exact ⟨h.inferType value, h⟩

/-- A global variable is declared alike, but for its number. -/
theorem declareGlobal (h : w.Matches typed w') (d : VariableDeclaration) :
    (w.declareVariable .globalVariable d).Matches typed
      (w'.declareVariable .globalVariable d) := by
  obtain ⟨htype, hmatches⟩ := h.declaredType d
  rw [declareVariable_eq, declareVariable_eq]
  apply hmatches.countVariable.declare
  cases typed with
  | false => simp [Symbol.withoutParameters, declaredVariable, newVariable, htype]
  | true =>
    have hlast := hmatches.last rfl
    simp [Symbol.withoutParameters, declaredVariable, newVariable, htype, hlast]

theorem declareGlobals (h : w.Matches typed w') (ds : List VariableDeclaration) :
    (ds.foldl (declareVariable · .globalVariable ·) w).Matches typed
      (ds.foldl (declareVariable · .globalVariable ·) w') := by
  induction ds generalizing w w' with
  | nil => exact h
  | cons d others ih => exact ih (h.declareGlobal d)

/-! ### Signatures -/

/-- Parameters that do not count leave no trace in the scope. -/
theorem parameters_untyped (h : w.Matches false w') (ps ps' : List Parameter) :
    (w.parameters ps).2.Matches false (w'.parameters ps').2 := by
  have hfunctions (w : Walk) (ps : List Parameter) :
      (w.parameters ps).2.typeFunctions = w.typeFunctions :=
    (w.adds_parameters (P := fun _ => True) ps).functions
  refine ⟨?_, ?_, nofun⟩
  · rw [parameters_scope, parameters_scope, h.scope]
  · rw [hfunctions, hfunctions, h.functions]

/-- Parameters of the same types are the same but for their names. -/
theorem parameters_typed (h : w.Matches true w') {ps ps' : List Parameter}
    (hps : ps'.map Parameter.type = ps.map Parameter.type) :
    (w'.parameters ps').1.map Variable.unnamed = (w.parameters ps).1.map Variable.unnamed ∧
      (w.parameters ps).2.Matches true (w'.parameters ps').2 := by
  induction ps generalizing w w' ps' with
  | nil =>
    obtain rfl := List.map_eq_nil_iff.1 hps
    exact ⟨rfl, h⟩
  | cons p others ih =>
    obtain ⟨p', others', rfl, hp, hothers⟩ := List.map_eq_cons_iff.1 hps
    obtain ⟨htype, hmatches⟩ := h.type p.type
    obtain ⟨hsame, hrest⟩ := ih hmatches.countVariable hothers
    unfold Walk.parameters
    rw [hp]
    refine ⟨?_, hrest⟩
    rw [List.map_cons, List.map_cons]
    exact congrArg₂ List.cons (by simp [Variable.unnamed, newVariable, htype]) hsame

/-- What two functions give back is the same type. -/
theorem returnType (h : w.Matches typed w') (clause : Option TypeClause) :
    (w'.returnType clause).1 = (w.returnType clause).1 ∧
      (w.returnType clause).2.Matches typed (w'.returnType clause).2 := by
  cases clause with
  | none => exact ⟨rfl, h⟩
  | some clause => exact h.type clause

/-- The symbols of two functions are the same without parameters if they have the same name and
return type, and parameters of the same types if these count. -/
theorem signature (h : w.Matches typed w') {name name' : Ident} (hname : name'.name = name.name)
    {ps ps' : List Parameter} (hps : typed = true → ps'.map Parameter.type = ps.map Parameter.type)
    {clause clause' : Option TypeClause} (hclause : clause' = clause) (span span' : Span) :
    (w'.signature name' ps' clause' span').1.withoutParameters typed =
        (w.signature name ps clause span).1.withoutParameters typed ∧
      (w.signature name ps clause span).2.Matches typed
        (w'.signature name' ps' clause' span').2 := by
  subst hclause
  unfold Walk.signature
  cases typed with
  | false =>
    obtain ⟨htype, hmatches⟩ := (h.parameters_untyped ps ps').returnType clause'
    exact ⟨by simp [FunctionSymbol.withoutParameters, hname, htype], hmatches⟩
  | true =>
    obtain ⟨hsame, hparameters⟩ := h.parameters_typed (hps rfl)
    obtain ⟨htype, hmatches⟩ := hparameters.returnType clause'
    exact ⟨by simp [FunctionSymbol.withoutParameters, hname, htype, hsame], hmatches⟩

end Matches

end Walk

/-! ### Members without bodies -/

/-- A parameter without its name. -/
def Parameter.unnamed (p : Parameter) : Parameter :=
  ⟨⟨"", Span.none⟩, p.type⟩

/-- Parameters without their names, or no parameters if their types do not count. -/
def Parameter.typesOf (typed : Bool) (ps : List Parameter) : List Parameter :=
  if typed then ps.map Parameter.unnamed else []

/-- A member without bodies and without parameters. A statement that declares no global variable is
all inside. -/
def Member.withoutBody? (typed : Bool) : Member → Option Member
  | .function f =>
    some (.function
      { f with
        parameters := Parameter.typesOf typed f.parameters
        body := ⟨Span.none, [], Span.none⟩ })
  | .external e => some (.external { e with parameters := Parameter.typesOf typed e.parameters })
  | .statement (.declaration d) => some (.statement (.declaration d))
  | .statement _ => none
  | other => some other

theorem Parameter.types_eq {ps ps' : List Parameter} {typed : Bool}
    (h : typesOf typed ps' = typesOf typed ps) (htyped : typed = true) :
    ps'.map Parameter.type = ps.map Parameter.type := by
  subst htyped
  have htypes := congrArg (List.map Parameter.type) h
  simpa [typesOf, unnamed, Function.comp_def] using htypes

namespace Walk

variable {typed : Bool} {w w' : Walk}

/-- What is inside of a member is not declared with the functions. -/
theorem signatures_of_inside (w : Walk) {member : Member}
    (h : member.withoutBody? typed = none) : (w.signatures [member]).2 = w := by
  cases member with
  | statement s => rfl
  | _ => cases h

theorem foldl_signatures_of_inside {members : List Member}
    (h : ∀ member ∈ members, member.withoutBody? typed = none) :
    members.foldl (fun w member => (w.signatures [member]).2) w = w := by
  induction members generalizing w with
  | nil => rfl
  | cons member others ih =>
    obtain ⟨hmember, hothers⟩ := List.forall_mem_cons.1 h
    rw [List.foldl_cons, signatures_of_inside w hmember]
    exact ih hothers

/-- Functions that are the same from outside are declared side by side. -/
theorem Matches.signatures (h : w.Matches typed w') {member member' : Member}
    (hmember : member'.withoutBody? typed = member.withoutBody? typed) :
    (w.signatures [member]).2.Matches typed (w'.signatures [member']).2 := by
  cases member with
  | function f =>
    cases member' with
    | function f' =>
      simp only [Member.withoutBody?, Option.some.injEq, Member.function.injEq,
        FunctionDeclaration.mk.injEq] at hmember
      obtain ⟨hvisibility, -, hname, hparameters, hreturn, -⟩ := hmember
      obtain ⟨hsigned, hmatches⟩ := h.signature (congrArg Ident.name hname)
        (Parameter.types_eq hparameters) hreturn (Member.function f).span (Member.function f').span
      refine hmatches.declare ?_ f.name.span f'.name.span
      have hpublic := congrArg (fun g : FunctionSymbol =>
        Symbol.function { g with isPublic := f.visibility.isSome }) hsigned
      rw [hvisibility]
      exact hpublic
    | statement s => cases s <;> cases hmember
    | _ => cases hmember
  | external e =>
    cases member' with
    | external e' =>
      simp only [Member.withoutBody?, Option.some.injEq, Member.external.injEq,
        ExternalDeclaration.mk.injEq] at hmember
      obtain ⟨-, hname, hparameters, hreturn, -⟩ := hmember
      obtain ⟨hsigned, hmatches⟩ := h.signature (congrArg Ident.name hname)
        (Parameter.types_eq hparameters) hreturn (Member.external e).span (Member.external e').span
      refine hmatches.declare ?_ e.name.span e'.name.span
      exact congrArg (fun g : FunctionSymbol => Symbol.function g.asExternal) hsigned
    | statement s => cases s <;> cases hmember
    | _ => cases hmember
  | statement s =>
    cases member' with
    | function _ | external _ => cases s <;> cases hmember
    | _ => exact h
  | _ =>
    cases member' with
    | function _ | external _ => cases hmember
    | _ => exact h

/-- Members that are the same from outside are declared side by side. -/
theorem Matches.foldl_signatures {members members' : List Member}
    (hmembers : members'.filterMap (Member.withoutBody? typed) =
      members.filterMap (Member.withoutBody? typed)) (h : w.Matches typed w') :
    (members.foldl (fun w member => (w.signatures [member]).2) w).Matches typed
      (members'.foldl (fun w member => (w.signatures [member]).2) w') := by
  induction members generalizing w w' members' with
  | nil =>
    have hinside := List.filterMap_eq_nil_iff.1 hmembers
    rw [foldl_signatures_of_inside hinside]
    exact h
  | cons member others ih =>
    rw [List.foldl_cons]
    cases hmember : member.withoutBody? typed with
    | none =>
      rw [List.filterMap_cons_none hmember] at hmembers
      rw [signatures_of_inside w hmember]
      exact ih hmembers h
    | some shell =>
      -- What stands before the corresponding member is all inside.
      rw [List.filterMap_cons_some hmember] at hmembers
      obtain ⟨front, member', back, rfl, hfront, hmember', hback⟩ :=
        List.filterMap_eq_cons_iff.1 hmembers
      rw [List.foldl_append, foldl_signatures_of_inside hfront, List.foldl_cons]
      exact ih hback (h.signatures (hmember'.trans hmember.symm))

end Walk

/-! ### Whole programs -/

section

variable {typed : Bool} {members members' : List Member}

/-- What is read of neither functions nor the inside of statements is read alike of members that are
the same without their bodies. -/
theorem filterMap_of_withoutBody {α : Type} {pick : Member → Option α}
    (hfunction : ∀ f, pick (.function f) = none) (hexternal : ∀ e, pick (.external e) = none)
    (hinside : ∀ s, (∀ d, s ≠ .declaration d) → pick (.statement s) = none)
    (h : members'.filterMap (Member.withoutBody? typed) =
      members.filterMap (Member.withoutBody? typed)) :
    members'.filterMap pick = members.filterMap pick := by
  have hpick (m : Member) : (m.withoutBody? typed).bind pick = pick m := by
    cases m with
    | function f => exact (hfunction _).trans (hfunction f).symm
    | external e => exact (hexternal _).trans (hexternal e).symm
    | statement s =>
      cases s with
      | declaration d => rfl
      | _ => exact (hinside _ (by nofun)).symm
    | _ => rfl
  have hthrough (l : List Member) :
      (l.filterMap (Member.withoutBody? typed)).filterMap pick = l.filterMap pick := by
    rw [List.filterMap_filterMap]
    exact List.filterMap_congr fun m _ => hpick m
  rw [← hthrough members', h, hthrough]

open Walk in
/-- The members of programs that are the same from outside are declared side by side. -/
theorem Walk.matches_declaring (known : List PackageSymbol) (last : Nat)
    (h : members'.filterMap (Member.withoutBody? typed) =
      members.filterMap (Member.withoutBody? typed)) :
    (declaring known last members).Matches typed (declaring known last members') := by
  have hreferences : packageReferences members' = packageReferences members :=
    filterMap_of_withoutBody (fun _ => rfl) (fun _ => rfl) (fun _ _ => rfl) h
  have huses : packageUses members' = packageUses members :=
    filterMap_of_withoutBody (fun _ => rfl) (fun _ => rfl) (fun _ _ => rfl) h
  have hstructs : structDeclarations members' = structDeclarations members :=
    filterMap_of_withoutBody (fun _ => rfl) (fun _ => rfl) (fun _ _ => rfl) h
  have hglobals : globalVariables members' = globalVariables members := by
    refine filterMap_of_withoutBody (fun _ => rfl) (fun _ => rfl) (fun s hs => ?_) h
    cases s with
    | declaration d => exact absurd rfl (hs d)
    | _ => rfl
  have hbefore : structsDeclared known last members' = structsDeclared known last members := by
    simp only [structsDeclared, structsNamed, usesDeclared, packagesDeclared, hreferences, huses,
      hstructs]
  have hfunctions : (functionsDeclared known last members).Matches typed
      (functionsDeclared known last members') := by
    rw [functionsDeclared, functionsDeclared, signatures_snd, signatures_snd, hbefore]
    exact (Matches.refl _).foldl_signatures h
  have hdeclared := hfunctions.declareGlobals (globalVariables members)
  have hdeclaring : declaring known last members' =
      (globalVariables members').foldl (declareVariable · .globalVariable ·)
        (functionsDeclared known last members') := rfl
  rw [hdeclaring, hglobals]
  exact hdeclared

end

/-- A symbol as it is seen from outside of functions, at no place. -/
def Symbol.outside (typed : Bool) (s : Symbol) : Symbol :=
  (s.relocate .nowhere).withoutParameters typed

/-- A member as it is seen from outside of functions, at no place. -/
def Member.outside? (typed : Bool) (m : Member) : Option Member :=
  m.bare.withoutBody? typed

/-- A program as it is seen from outside of its functions. What is left are the members without the
bodies of functions and without the names of parameters; without parameters, if their types do not
count; and without the statements outside of functions, global variables apart. -/
def outside (typed : Bool) (members : List Member) : List Member :=
  members.filterMap (Member.outside? typed)

/-- Another body and other names of parameters are not seen from outside, and if types do not count,
no other parameters are. -/
theorem outside_function {typed : Bool} (f : FunctionDeclaration) (body : Block)
    {parameters : List Parameter}
    (h : typed = true → parameters.map Parameter.type = f.parameters.map Parameter.type)
    (front back : List Member) :
    outside typed (front ++ .function { f with parameters, body } :: back) =
      outside typed (front ++ .function f :: back) := by
  have hparameters : Parameter.typesOf typed (parameters.map Parameter.bare) =
      Parameter.typesOf typed (f.parameters.map Parameter.bare) := by
    cases typed with
    | false => rfl
    | true =>
      let shown (c : TypeClause) : Parameter := ⟨⟨"", Span.none⟩, c.bare⟩
      have hbare := congrArg (List.map shown) (h rfl)
      rw [List.map_map, List.map_map] at hbare
      rw [Parameter.typesOf, Parameter.typesOf, if_pos rfl, if_pos rfl, List.map_map, List.map_map]
      exact hbare
  have hmember : (Member.function { f with parameters, body }).outside? typed =
      (Member.function f).outside? typed := by
    simp only [Member.outside?, Member.bare, Member.withoutBody?, hparameters]
  simp only [outside, List.filterMap_append, List.filterMap_cons, hmember]

theorem programScope_relocate (g : Relocation) (known : List PackageSymbol) (last : Nat)
    (members : List Member) :
    programScope (known.map (PackageSymbol.relocate g)) last (members.map (Member.relocate g)) =
      (programScope known last members).relocate g := by
  have hprelude : (prelude (last + typeFunctionIds)).map (Symbol.relocate g) =
      prelude (last + typeFunctionIds) := prelude_relocate g _
  rw [programScope, bindProgram_relocate, Scope.relocate, Scope.map, programScope, List.map_cons,
    hprelude]
  rfl

theorem Scope.map_map (f g : Symbol → Symbol) (s : Scope) : (s.map f).map g = s.map (g ∘ f) := by
  simp [Scope.map, Region.map, Function.comp_def]

/-- Programs that are the same from outside have scopes that are the same from outside. -/
theorem programScope_outside {typed : Bool} {members members' : List Member}
    (h : outside typed members' = outside typed members) (known : List PackageSymbol)
    (last : Nat) :
    (programScope known last members').map (Symbol.outside typed) =
      (programScope known last members).map (Symbol.outside typed) := by
  have hbare (l : List Member) :
      (l.map (Member.relocate .nowhere)).filterMap (Member.withoutBody? typed) =
        outside typed l := by
    rw [Member.relocate_nowhere, List.filterMap_map]
    rfl
  have hmembers : (members'.map (Member.relocate .nowhere)).filterMap (Member.withoutBody? typed) =
      (members.map (Member.relocate .nowhere)).filterMap (Member.withoutBody? typed) := by
    rw [hbare, hbare, h]
  have hscope := (Walk.matches_declaring (known.map (PackageSymbol.relocate .nowhere)) last
    hmembers).scope
  rw [← programScope_eq, ← programScope_eq, programScope_relocate, programScope_relocate] at hscope
  simp only [Scope.relocate, Scope.withoutParameters, Scope.map_map] at hscope
  exact hscope

end TodLang
