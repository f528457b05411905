import TodLang.Proofs.Binding.Origin
import TodLang.Proofs.Binding.Places
/-!
Where the types of a program come from. A type is built in or it is not, and then it is the type of
a structure of the program or one of a package that the program refers to, it stands in for a
written type that has no meaning, or a function of a known package has it (`Ty.Arises`). All that
can be seen in the bodies of a program has such types (`Walk.tells_bodySites`).
-/

namespace TodLang

/-- Whether a type is the given one or is somewhere among the types that this one is made from. -/
inductive Ty.Contains (whole : Ty) : Ty → Prop
  | self : Contains whole whole
  | argument {t u : Ty} (h : Contains whole t) (hu : u ∈ t.arguments) : Contains whole u

/-- The types in the signature of a function. -/
def FunctionSymbol.signatureTypes (f : FunctionSymbol) : List Ty :=
  f.returnType :: f.parameters.map Variable.type

/-- Where a type of a program comes from, with the types that it is made from. -/
inductive Ty.Arises (known : List PackageSymbol) (last : Nat) (members : List Member) : Ty → Prop
  | builtin {name : String} {arguments : List Ty} (hname : name ∈ builtinNames)
      (h : ∀ t ∈ arguments, Arises known last members t) :
      Arises known last members { builtin name with arguments }
  /-- The type of a structure. -/
  | struct {S : StructSymbol} {arguments : List Ty}
      (hS : ∃ d ∈ structDeclarations members, d.name.name = S.name)
      (h : ∀ t ∈ arguments, Arises known last members t) :
      Arises known last members { S.type with arguments }
  /-- A type that is written with a package. -/
  | package {p : PackageSymbol} {name : String} {arguments : List Ty}
      (hp : p ∈ packageSymbols known members)
      (h : ∀ t ∈ arguments, Arises known last members t) :
      Arises known last members
        { name, arguments, isObject := true, isUserDefined := true, package := some p.name,
          structName := none }
  /-- What stands in for a written type that has no meaning. -/
  | unknown {clause : TypeClause}
      (h : ⟨clause.name, none⟩ ∈ (bindProgram known last members).resolutions) :
      Arises known last members (Scope.unknownType clause)
  /-- A type in the signature of a function of a known package. -/
  | supplied {q : PackageSymbol} {f : FunctionSymbol} {t u : Ty} (hq : q ∈ known)
      (hf : f ∈ q.functions) (ht : t ∈ f.signatureTypes) (hu : t.Contains u) :
      Arises known last members u

/-- Whether all types that a symbol tells come from the program. -/
def Symbol.Tells (known : List PackageSymbol) (last : Nat) (members : List Member) :
    Symbol → Prop
  | .type t => ∃ name ∈ Ty.builtinNames, t = .builtin name
  | .struct S => (∃ d ∈ structDeclarations members, d.name.name = S.name) ∧
    ∀ v ∈ S.fields, v.type.Arises known last members
  | .package p => p ∈ packageSymbols known members
  | .function f => ∀ t ∈ f.signatureTypes, t.Arises known last members
  | .globalVariable v | .localVariable v | .parameter v => v.type.Arises known last members

open TodLang.Symbol (Tells)

section

variable {known : List PackageSymbol} {last : Nat} {members : List Member}

namespace Ty

theorem arises_builtin {name : String} (hname : name ∈ builtinNames) :
    (builtin name).Arises known last members :=
  .builtin hname (List.forall_mem_nil _)

theorem arises_any : any.Arises known last members := arises_builtin (by decide)

/-- What a type is made from comes from where the type comes from. -/
theorem Arises.arguments {t : Ty} (h : t.Arises known last members) :
    ∀ u ∈ t.arguments, u.Arises known last members := by
  cases h with
  | builtin _ h | struct _ h | package _ h => exact h
  | unknown _ => exact List.forall_mem_nil _
  | supplied hq hf ht hu => exact fun u hmem => .supplied hq hf ht (.argument hu hmem)

theorem Arises.element {t : Ty} (h : t.Arises known last members) :
    t.element.Arises known last members := by
  unfold Ty.element
  cases hhead : t.arguments.head? with
  | none => exact arises_any
  | some u => exact h.arguments u (List.mem_of_head? hhead)

end Ty

theorem arises_of_mem_known {q : PackageSymbol} {f : FunctionSymbol} (hq : q ∈ known)
    (hf : f ∈ q.functions) : ∀ t ∈ f.signatureTypes, t.Arises known last members :=
  fun _ ht => .supplied hq hf ht .self

/-- The functions of built-in types give back built-in types. -/
theorem arises_typeFunction {f : TypeFunction} (hf : f ∈ typeFunctions last) :
    f.returnType.Arises known last members := by
  simp only [typeFunctions, List.mem_cons, List.not_mem_nil, or_false] at hf
  rcases hf with rfl | rfl | rfl | rfl | rfl <;> exact Ty.arises_builtin (by decide)

theorem tells_prelude {around : Nat} {symbol : Symbol} (h : symbol ∈ (prelude around).symbols) :
    symbol.Tells known last members := by
  rcases mem_prelude h with ⟨name, hname, rfl⟩ | ⟨f, hf, rfl⟩
  · exact ⟨name, hname, rfl⟩
  · have htypes : ∀ t ∈ f.signatureTypes, ∃ name ∈ Ty.builtinNames, t = .builtin name := by
      simp only [preludeFunctions, List.map_cons, List.map_nil, List.mem_cons, List.not_mem_nil,
        or_false] at hf
      rcases hf with rfl | rfl | rfl <;>
        simp [FunctionSymbol.signatureTypes, FunctionSymbol.asBuiltin, builtinParameter, Ty.void,
          Ty.builtinNames]
    intro t ht
    obtain ⟨name, hname, rfl⟩ := htypes t ht
    exact Ty.arises_builtin hname

namespace Scope

variable {s : Scope}

/-! ### Types that are written -/

theorem arises_namedType (h : s.Among (Tells known last members)) {package : Option Ident}
    {name : Ident} {arguments : List Ty} {t : Ty}
    (harguments : ∀ u ∈ arguments, u.Arises known last members)
    (ht : s.namedType package name arguments = .ok t) : t.Arises known last members := by
  unfold namedType at ht
  cases package with
  | some package =>
    dsimp only at ht
    cases hp : s.lookupPackage? package.name with
    | none =>
      rw [hp] at ht
      cases ht
    | some p =>
      rw [hp] at ht
      obtain rfl := Except.ok.inj ht
      exact .package (h.lookupPackage? hp).1 harguments
  | none =>
    dsimp only at ht
    cases hsymbol : s.lookup? name.name with
    | none =>
      rw [hsymbol] at ht
      cases ht
    | some symbol =>
      rw [hsymbol] at ht
      have htells := h.lookup? hsymbol
      cases symbol with
      | type type =>
        obtain ⟨name, hname, rfl⟩ := htells
        obtain rfl := Except.ok.inj ht
        exact .builtin hname harguments
      | struct S =>
        obtain rfl := Except.ok.inj ht
        exact .struct htells.1 harguments
      | _ => cases ht

mutual

/-- A written type that has a meaning stands for a type that comes from the program. -/
theorem arises_lookupType (h : s.Among (Tells known last members)) {clause : TypeClause} {t : Ty}
    (ht : s.lookupType clause = .ok t) : t.Arises known last members := by
  cases clause with
  | mk package name arguments closing =>
    unfold lookupType at ht
    cases hlookup : s.lookupTypes arguments with
    | error e =>
      rw [hlookup] at ht
      cases ht
    | ok types =>
      rw [hlookup] at ht
      exact arises_namedType h (arises_lookupTypes h hlookup) ht

theorem arises_lookupTypes (h : s.Among (Tells known last members)) {clauses : List TypeClause}
    {types : List Ty} (htypes : s.lookupTypes clauses = .ok types) :
    ∀ t ∈ types, t.Arises known last members := by
  cases clauses with
  | nil =>
    obtain rfl := Except.ok.inj htypes
    exact List.forall_mem_nil _
  | cons clause others =>
    unfold lookupTypes at htypes
    cases hfirst : s.lookupType clause with
    | error e =>
      rw [hfirst] at htypes
      cases htypes
    | ok type =>
      rw [hfirst] at htypes
      dsimp only at htypes
      cases hothers : s.lookupTypes others with
      | error e =>
        rw [hothers] at htypes
        cases htypes
      | ok more =>
        rw [hothers] at htypes
        obtain rfl := Except.ok.inj htypes
        exact List.forall_mem_cons.2 ⟨arises_lookupType h hfirst, arises_lookupTypes h hothers⟩

end

/-- Where a written type without a meaning is looked up, the program records that its name stands
for nothing. -/
theorem unresolved_of_site {clause : TypeClause} {e : SemanticError}
    (hsite : ⟨s, .type clause⟩ ∈ programSites known last members)
    (he : s.lookupType clause = .error e) :
    ⟨clause.name, none⟩ ∈ (bindProgram known last members).resolutions := by
  have hcomposed : Finding.Composed (fun _ => True) _ _ :=
    bindProgram_composed known last members fun _ _ _ _ => trivial
  obtain ⟨before, after, hfindings⟩ := hcomposed.exists_append (List.mem_map_of_mem hsite)
  have hfound : Site.findings (typeFunctions last) ⟨s, .type clause⟩ =
      [.error e, .unresolved clause.name] := by
    change s.useType clause = _
    rw [useType, resolveType, he]
  rw [BoundProgram.mem_resolutions, hfindings, hfound]
  simp [Finding.unresolved]

/-- The type that is taken for a written one comes from the program. -/
theorem arises_resolveType (h : s.Among (Tells known last members)) {clause : TypeClause}
    (hsite : ⟨s, .type clause⟩ ∈ programSites known last members) :
    (s.resolveType clause).1.Arises known last members := by
  unfold resolveType
  cases hlookup : s.lookupType clause with
  | ok type => exact arises_lookupType h hlookup
  | error e => exact .unknown (unresolved_of_site hsite hlookup)

/-! ### Types of expressions -/

theorem arises_variableType (h : s.Among (Tells known last members)) (name : Ident) :
    (s.variableType name).Arises known last members := by
  unfold variableType lookupVariable?
  cases hsymbol : s.lookup? name.name with
  | none => exact Ty.arises_any
  | some symbol =>
    have htells := h.lookup? hsymbol
    cases symbol with
    | globalVariable v | localVariable v | parameter v => exact htells
    | _ => exact Ty.arises_any

theorem arises_clauseType (h : s.Among (Tells known last members)) (clause : TypeClause) :
    (s.clauseType clause).Arises known last members := by
  unfold clauseType
  cases hlookup : s.lookupType clause with
  | error e => exact Ty.arises_any
  | ok type => exact arises_lookupType h hlookup

theorem arises_callType (h : s.Among (Tells known last members)) (callee : Ident) :
    (s.callType callee).Arises known last members := by
  unfold callType
  cases hsymbol : s.lookup? callee.name with
  | none => exact Ty.arises_any
  | some symbol =>
    have htells := h.lookup? hsymbol
    cases symbol with
    | function f => exact htells f.returnType List.mem_cons_self
    | type type =>
      obtain ⟨name, hname, rfl⟩ := htells
      exact Ty.arises_builtin hname
    | _ => exact Ty.arises_any

theorem arises_packageCallType (h : s.Among (Tells known last members)) (package callee : Ident) :
    (s.packageCallType package callee).Arises known last members := by
  unfold packageCallType
  cases hf : (s.lookupPackage? package.name).bind (·.function? callee.name) with
  | none => exact Ty.arises_any
  | some f =>
    obtain ⟨p, hp, hfunction⟩ := Option.bind_eq_some_iff.1 hf
    obtain ⟨q, hq, hmem⟩ := mem_known_of_packageSymbols (h.lookupPackage? hp).1
      (List.mem_of_find?_eq_some hfunction)
    exact arises_of_mem_known hq hmem f.returnType List.mem_cons_self

theorem arises_fieldType (h : s.Among (Tells known last members)) (object field : Ident) :
    (s.fieldType object field).Arises known last members := by
  unfold fieldType
  cases hv : (s.structOf? (s.variableType object)).bind (·.field? field.name) with
  | none => exact Ty.arises_any
  | some v =>
    obtain ⟨S, hS, hfield⟩ := Option.bind_eq_some_iff.1 hv
    obtain ⟨name, -, hstruct⟩ := Option.bind_eq_some_iff.1 hS
    obtain ⟨symbol, hsymbol, hkind⟩ := Option.bind_eq_some_iff.1 hstruct
    have htells := h.lookup? hsymbol
    cases symbol with
    | struct T =>
      obtain rfl := Option.some.inj hkind
      exact htells.2 v (List.mem_of_find?_eq_some hfield)
    | _ => cases hkind

theorem arises_typeCallType (type : Ty) (callee : Ident) :
    (((findTypeFunction? (typeFunctions last) type callee.name).map
      TypeFunction.returnType).getD .any).Arises known last members := by
  cases hf : findTypeFunction? (typeFunctions last) type callee.name with
  | none => exact Ty.arises_any
  | some f => exact arises_typeFunction (List.mem_of_find?_eq_some hf)

theorem arises_literalType (token : Token) :
    (literalType token).Arises known last members := by
  unfold literalType
  split <;> exact Ty.arises_builtin (by decide)

/-- The type of an expression comes from the program. -/
theorem arises_inferType {s : Scope} (h : s.Among (Tells known last members)) (e : Expression) :
    (s.inferType (typeFunctions last) e).Arises known last members := by
  cases e with
  | literal token => exact arises_literalType token
  | parenthesized _ inner _ => exact arises_inferType h inner
  | name n => exact arises_variableType h n
  | assignment target value => exact arises_inferType h value
  | call callee arguments closing => exact arises_callType h callee
  | packageCall package callee arguments closing => exact arises_packageCallType h package callee
  | typeCall receiver callee arguments closing => exact arises_typeCallType _ callee
  | unary operator operand =>
    unfold inferType
    split
    · exact Ty.arises_builtin (by decide)
    · exact arises_inferType h operand
  | binary left operator right =>
    unfold inferType
    split
    · exact Ty.arises_builtin (by decide)
    · exact arises_inferType h left
  | edit target operator value => exact arises_variableType h target
  | step target operator => exact arises_variableType h target
  | fieldAccess object field => exact arises_fieldType h object field
  | arrayAccess array index closing => exact (arises_inferType h array).element
  | reference sign n =>
    exact .builtin (by decide) (List.forall_mem_singleton.2 (arises_variableType h n))
  | dereference sign operand => exact (arises_inferType h operand).element
  | cast clause _ _ | make _ clause _ _ | makeSized _ clause _ _ | makeArray _ clause _ _
  | makeStruct _ clause _ _ => exact arises_clauseType h clause
  | fieldAssignment _ _ _ | arrayAssignment _ _ _ | this _ => exact Ty.arises_any
  | main keyword inner =>
    have hinner := arises_inferType h.program inner
    cases inner with
    | assignment target value => exact arises_inferType h value
    | _ => exact hinner

end Scope

/-! ### Variables and functions that are declared -/

namespace Walk

variable {w : Walk}

theorem arises_declaredVariable (h : w.scope.Among (Tells known last members))
    (hfunctions : w.typeFunctions = TodLang.typeFunctions last) {d : VariableDeclaration}
    (hsites : w.sitesOf d.typeReferences ⊆ programSites known last members) :
    (w.declaredVariable d).type.Arises known last members := by
  have htype : (w.declaredType d).1.Arises known last members := by
    unfold declaredType
    unfold VariableDeclaration.typeReferences at hsites
    cases hclause : d.type with
    | some clause =>
      rw [hclause] at hsites
      exact Scope.arises_resolveType h (hsites List.mem_cons_self)
    | none =>
      cases d.value with
      | some value =>
        dsimp only
        rw [hfunctions]
        exact Scope.arises_inferType h value
      | none => exact Ty.arises_any
  exact htype

/-- The fields of a structure have types that come from the program. -/
theorem arises_fields (h : w.scope.Among (Tells known last members)) {given : List Variable}
    (hgiven : ∀ v ∈ given, v.type.Arises known last members) {ps : List Parameter}
    (hsites : w.sitesOf (parameterReferences ps) ⊆ programSites known last members) :
    ∀ v ∈ (w.fields given ps).1, v.type.Arises known last members := by
  induction ps generalizing w given with
  | nil => exact hgiven
  | cons field others ih =>
    obtain ⟨hfirst, hothers⟩ := List.cons_subset.1 hsites
    have htype : (w.type field.type).1.Arises known last members :=
      Scope.arises_resolveType h hfirst
    unfold fields
    dsimp only
    split
    · exact ih (w := (w.type field.type).2.report _) h hgiven hothers
    · refine ih (w := (w.type field.type).2.countVariable) h ?_ hothers
      intro v hv
      rcases List.mem_append.1 hv with hv | hv
      · exact hgiven v hv
      · obtain rfl := List.mem_singleton.1 hv
        exact htype

theorem arises_parameters (h : w.scope.Among (Tells known last members)) {ps : List Parameter}
    (hsites : w.sitesOf (parameterReferences ps) ⊆ programSites known last members) :
    ∀ v ∈ (w.parameters ps).1, v.type.Arises known last members := by
  induction ps generalizing w with
  | nil => exact List.forall_mem_nil _
  | cons p others ih =>
    obtain ⟨hfirst, hothers⟩ := List.cons_subset.1 hsites
    have htype : (w.type p.type).1.Arises known last members := Scope.arises_resolveType h hfirst
    exact List.forall_mem_cons.2
      ⟨htype, ih (w := (w.type p.type).2.countVariable) h hothers⟩

/-- The types in a signature come from the program. -/
theorem arises_signature (h : w.scope.Among (Tells known last members)) (name : Ident) (span : Span)
    {ps : List Parameter} {returnType : Option TypeClause}
    (hsites : w.sitesOf (headReferences ps returnType) ⊆ programSites known last members) :
    ∀ t ∈ (w.signature name ps returnType span).1.signatureTypes,
      t.Arises known last members := by
  rw [headReferences, sitesOf_append] at hsites
  obtain ⟨hparameters, hreturn⟩ := List.append_subset.1 hsites
  have hscope : (w.parameters ps).2.scope = w.scope := w.parameters_scope ps
  refine List.forall_mem_cons.2 ⟨?_, ?_⟩
  · cases returnType with
    | none => exact Ty.arises_builtin (by decide)
    | some clause =>
      have hsite : ⟨w.scope, .type clause⟩ ∈ programSites known last members :=
        hreturn List.mem_cons_self
      rw [← hscope] at h hsite
      exact Scope.arises_resolveType h hsite
  · intro t ht
    obtain ⟨v, hv, rfl⟩ := List.mem_map.1 ht
    exact arises_parameters h hparameters v hv

/-! ### Everything that can be seen -/

/-- What the members of a program declare tells types that come from the program. -/
theorem admits_tells {signed : List FunctionSymbol} :
    Symbol.Admits known last members signed (Tells known last members) where
  builtin _ _ h := tells_prelude h
  package _ hp := hp
  imported _ hp f hf := by
    obtain ⟨q, hq, hmem⟩ := mem_known_of_packageSymbols hp hf
    exact arises_of_mem_known hq hmem
  struct d hd := ⟨⟨d, hd, rfl⟩, List.forall_mem_nil _⟩
  fields _ _ h hsites _ hS := ⟨hS.1, arises_fields h (List.forall_mem_nil _) hsites⟩
  function _ d h hsites _ := arises_signature h d.name (Member.function d).span hsites
  external _ d h hsites := arises_signature h d.name (Member.external d).span hsites
  globalVariable _ _ h hfunctions hsites := arises_declaredVariable h hfunctions hsites

/-- In the bodies of a program, all that can be seen tells types that come from the program. -/
theorem tells_bodySites (known : List PackageSymbol) (last : Nat) (members : List Member) :
    ∀ site ∈ (declaring known last members).bodySites members
      ((structsDeclared known last members).signatures members).1,
        site.scope.Among (Tells known last members) := by
  refine among_of_admits admits_tells ?_ ?_
  · intro w d h hfunctions hsites
    exact arises_declaredVariable h hfunctions hsites
  · intro f _ hf v hv
    exact hf v.type (List.mem_cons_of_mem _ (List.mem_map_of_mem hv))

end Walk

end

end TodLang
