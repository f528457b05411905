import TodLang.Proofs.Binding.Gathering
/-!
Scopes in which written types stand for the same. What a written type stands for depends on the
types and packages that its names stand for, and on nothing else (`Scope.Alike.resolveType`). So
fields and signatures are the same before and after structures get their fields, and before and
after a function is declared whose name is not that of a type.
-/

namespace TodLang

/-- The type that a symbol names, if it names one. -/
def Symbol.namedType? : Symbol → Option Ty
  | .type t => some t
  | .struct s => some s.type
  | _ => none

namespace Scope

/-- The type that a name stands for. -/
def namedType? (s : Scope) (name : String) : Option Ty :=
  (s.lookup? name).bind Symbol.namedType?

mutual

/-- The names of no package that are looked up for a written type. Behind the first fault there
are none. -/
def sought (s : Scope) : TypeClause → List Ident
  | ⟨package, name, arguments, _⟩ =>
    s.soughtAll arguments ++
      if package.isNone ∧ (lookupTypes s arguments).isOk then [name] else []

def soughtAll (s : Scope) : List TypeClause → List Ident
  | [] => []
  | clause :: others =>
    s.sought clause ++ if (s.lookupType clause).isOk then s.soughtAll others else []

end

mutual

theorem sought_renumber (σ : Nat → Nat) (s : Scope) (clause : TypeClause) :
    (s.renumber σ).sought clause = s.sought clause := by
  cases clause with
  | mk package name arguments closing =>
    unfold sought
    rw [soughtAll_renumber σ s arguments, lookupTypes_renumber]

theorem soughtAll_renumber (σ : Nat → Nat) (s : Scope) (clauses : List TypeClause) :
    (s.renumber σ).soughtAll clauses = s.soughtAll clauses := by
  cases clauses with
  | nil => rfl
  | cons clause others =>
    unfold soughtAll
    rw [sought_renumber σ s clause, soughtAll_renumber σ s others, lookupType_renumber]

end

/-- The names that are looked up for the types of parameters. -/
def soughtParameters (s : Scope) (ps : List Parameter) : List Ident :=
  ps.flatMap fun p => s.sought p.type

/-- Whether all names stand for the same packages in two scopes, and given ones for the same
types. -/
structure Alike (s s' : Scope) (names : List Ident) : Prop where
  packages : ∀ name, s'.lookupPackage? name = s.lookupPackage? name
  types : ∀ n ∈ names, s'.namedType? n.name = s.namedType? n.name

theorem alike_refl (s : Scope) (names : List Ident) : s.Alike s names :=
  ⟨fun _ => rfl, fun _ _ => rfl⟩

theorem namedType_plain (s : Scope) (name : Ident) (arguments : List Ty) :
    s.namedType none name arguments =
      match s.namedType? name.name with
      | some type => .ok { type with arguments }
      | none => .error ⟨.undefinedType name.name, name.span⟩ := by
  unfold namedType namedType?
  cases s.lookup? name.name with
  | none => rfl
  | some symbol => cases symbol <;> rfl

namespace Alike

variable {s s' s'' : Scope} {names others : List Ident}

theorem trans (h : s.Alike s' names) (h' : s'.Alike s'' names) : s.Alike s'' names :=
  ⟨fun name => (h'.packages name).trans (h.packages name),
    fun n hn => (h'.types n hn).trans (h.types n hn)⟩

theorem mono (h : s.Alike s' names) (hnames : ∀ n ∈ others, n ∈ names) : s.Alike s' others :=
  ⟨h.packages, fun n hn => h.types n (hnames n hn)⟩

theorem left (h : s.Alike s' (names ++ others)) : s.Alike s' names :=
  h.mono fun _ => List.mem_append_left others

theorem right (h : s.Alike s' (names ++ others)) : s.Alike s' others :=
  h.mono fun _ => List.mem_append_right names

mutual

/-- A written type stands for the same if the names that are looked up for it do. -/
theorem lookupType {clause : TypeClause} (h : s.Alike s' (s.sought clause)) :
    s'.lookupType clause = s.lookupType clause := by
  cases clause with
  | mk package name arguments closing =>
    rw [sought] at h
    have harguments := lookupTypes h.left
    unfold Scope.lookupType
    rw [harguments]
    cases hfirst : Scope.lookupTypes s arguments with
    | error e => rfl
    | ok types =>
      cases package with
      | none =>
        have hlast : name ∈ s.sought ⟨none, name, arguments, closing⟩ := by
          simp [sought, hfirst, Except.isOk, Except.toBool]
        rw [sought] at hlast
        have hname := h.types name hlast
        simp only [namedType_plain, hname]
      | some package => simp only [namedType, h.packages]

theorem lookupTypes {clauses : List TypeClause} (h : s.Alike s' (s.soughtAll clauses)) :
    Scope.lookupTypes s' clauses = Scope.lookupTypes s clauses := by
  cases clauses with
  | nil => rfl
  | cons clause others =>
    rw [soughtAll] at h
    have hclause := lookupType h.left
    unfold Scope.lookupTypes
    rw [hclause]
    cases hfirst : s.lookupType clause with
    | error e => rfl
    | ok type =>
      have hnames := h.right
      rw [hfirst] at hnames
      rw [lookupTypes hnames]

end

theorem resolveType {clause : TypeClause} (h : s.Alike s' (s.sought clause)) :
    s'.resolveType clause = s.resolveType clause := by
  simp only [Scope.resolveType, h.lookupType]

end Alike

/-- What does not depend on the fields of structures is the same once they have their fields. -/
theorem bind_lookup?_setAll {α : Type} {read : Symbol → Option α}
    (hread : ∀ (d : StructSymbol) fields, read (.struct { d with fields }) = read (.struct d))
    (s : Scope) (changed : String) (fields : List Variable) (name : String) :
    ((s.setAll [(changed, fields)]).lookup? name).bind read = (s.lookup? name).bind read := by
  have hlookup : (s.setAll [(changed, fields)]).lookup? name =
      ((s.inner.setFields changed fields).lookup? name).or (s.around? name) :=
    lookup?_eq_or (s.setAll [(changed, fields)]) name
  rw [hlookup, Region.lookup?_setFields, lookup?_eq_or]
  cases s.inner.lookup? name with
  | none => rfl
  | some symbol =>
    cases symbol with
    | struct d =>
      dsimp only [Option.map_some]
      split
      · exact hread d fields
      · rfl
    | _ => rfl

/-- Structures that get their fields name the same types. -/
theorem alike_setAll (s : Scope) (changed : String) (fields : List Variable)
    (names : List Ident) : s.Alike (s.setAll [(changed, fields)]) names :=
  ⟨bind_lookup?_setAll (fun _ _ => rfl) s changed fields,
    fun n _ => bind_lookup?_setAll (fun _ _ => rfl) s changed fields n.name⟩

/-- A function that is declared hides no type unless one of its name is around. -/
theorem alike_addAll_function {s : Scope} {f : FunctionSymbol} {names : List Ident}
    (hfree : s.inner.lookup? f.name = none) (hs : s.Packageless)
    (h : ∀ n ∈ names, n.name = f.name → (s.around? f.name).bind Symbol.namedType? = none) :
    s.Alike (s.addAll [.function f]) names := by
  have htakes : s.inner.Takes [.function f] :=
    ⟨List.nodup_singleton _, List.forall_mem_singleton.2 hfree⟩
  refine ⟨lookupPackage?_addAll htakes hs (by simp [Symbol.asPackage?]), ?_⟩
  intro n hn
  unfold namedType?
  rw [lookup?_addAll htakes]
  by_cases hname : f.name = n.name
  · have hnone := h n hn hname.symm
    have hfind : [Symbol.function f].find? (·.name == n.name) = some (.function f) := by
      simp [Symbol.name, hname]
    rw [hfind, ← hname, lookup?_eq_or, hfree, Option.none_or, hnone]
    rfl
  · have hfind : [Symbol.function f].find? (·.name == n.name) = none := by
      simp [Symbol.name, hname]
    rw [hfind, Option.none_or]

end Scope

namespace Walk

/-! ### Types, fields and signatures in another scope -/

variable {w : Walk} {s : Scope}

theorem type_within {clause : TypeClause} (h : w.scope.Alike s (w.scope.sought clause)) :
    (w.within s).type clause = ((w.type clause).1, (w.type clause).2.within s) := by
  have hresolve : s.resolveType clause = w.scope.resolveType clause := h.resolveType
  unfold type
  change ((s.resolveType clause).1, (w.within s).report (s.resolveType clause).2) = _
  rw [hresolve]
  rfl

theorem fields_within {ps : List Parameter}
    (h : w.scope.Alike s (w.scope.soughtParameters ps)) (known : List Variable) :
    (w.within s).fields known ps = ((w.fields known ps).1, (w.fields known ps).2.within s) := by
  induction ps generalizing w known with
  | nil => rfl
  | cons field others ih =>
    rw [Scope.soughtParameters, List.flatMap_cons] at h
    unfold fields
    rw [type_within h.left]
    by_cases hduplicate : known.any (·.name == field.name.name) = true
    · have hothers : ((w.type field.type).2.report
          [.fault (.alreadyDeclared field.name.name) field.name.span]).scope.Alike s
            (w.scope.soughtParameters others) := h.right
      dsimp only
      rw [if_pos hduplicate, if_pos hduplicate]
      exact ih hothers known
    · have hothers : (w.type field.type).2.countVariable.scope.Alike s
          (w.scope.soughtParameters others) := h.right
      dsimp only
      rw [if_neg hduplicate, if_neg hduplicate]
      exact ih hothers _

theorem parameters_within {ps : List Parameter}
    (h : w.scope.Alike s (w.scope.soughtParameters ps)) :
    (w.within s).parameters ps = ((w.parameters ps).1, (w.parameters ps).2.within s) := by
  induction ps generalizing w with
  | nil => rfl
  | cons p others ih =>
    rw [Scope.soughtParameters, List.flatMap_cons] at h
    have hothers : (w.type p.type).2.countVariable.scope.Alike s
        (w.scope.soughtParameters others) := h.right
    have hrest : ((w.type p.type).2.within s).countVariable.parameters others = _ := ih hothers
    unfold parameters
    rw [type_within h.left]
    dsimp only
    rw [hrest]
    rfl

end Walk

/-- The names that are looked up for the signature of a function. -/
def Scope.soughtSignature (s : Scope) (ps : List Parameter) (returnType : Option TypeClause) :
    List Ident :=
  s.soughtParameters ps ++ returnType.elim [] s.sought

theorem Scope.soughtSignature_renumber (σ : Nat → Nat) (s : Scope) (ps : List Parameter)
    (returnType : Option TypeClause) :
    (s.renumber σ).soughtSignature ps returnType = s.soughtSignature ps returnType := by
  unfold soughtSignature soughtParameters
  simp only [sought_renumber]
  cases returnType with
  | none => rfl
  | some clause => exact congrArg (_ ++ ·) (s.sought_renumber σ clause)

theorem Walk.signature_within {w : Walk} {s : Scope} {ps : List Parameter}
    {returnType : Option TypeClause} (h : w.scope.Alike s (w.scope.soughtSignature ps returnType))
    (name : Ident) (span : Span) :
    (w.within s).signature name ps returnType span =
      ((w.signature name ps returnType span).1,
        (w.signature name ps returnType span).2.within s) := by
  have hparameters := parameters_within h.left
  unfold signature
  rw [hparameters]
  cases returnType with
  | none => rfl
  | some clause =>
    have hclause : (w.parameters ps).2.scope.Alike s
        ((w.parameters ps).2.scope.sought clause) := by
      rw [parameters_scope]
      exact h.right
    unfold returnType
    dsimp only
    rw [type_within hclause]

end TodLang
