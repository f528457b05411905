import TodLang.Proofs.Binding.MainNames
import TodLang.Proofs.Binding.Occurrences
import TodLang.Proofs.Binding.PackageCalls
/-!
Fields of structures. The type of a variable names the structure that declares it, and where a field
is used this name is looked up from there. So the field is looked for in the structure that declares
the type exactly if no parameter and no local variable has the name of the structure
(`bindProgram_fields`).
-/

namespace TodLang

open Node (Within)
open Finding (foundAt)

/-- The object and the field that an expression reads or assigns to. -/
def Expression.field? : Expression → Option (Ident × Ident)
  | .fieldAccess object field | .fieldAssignment object field _ => some (object, field)
  | _ => none

theorem Expression.reference?_of_field? {e : Expression} {object field : Ident}
    (h : e.field? = some (object, field)) : e.reference? = some (.fieldOf object field) := by
  cases e with
  | fieldAccess _ _ | fieldAssignment _ _ _ =>
    obtain ⟨rfl, rfl⟩ := Prod.mk.inj (Option.some.inj h)
    rfl
  | _ => cases h

/-- Whether a program says of a field what a structure makes of it. The field is recorded with the
structure's fingerprint and its name if the structure has it, and if not, this is the only fault. -/
structure StructSymbol.Answers (S : StructSymbol) (field : Ident) (program : BoundProgram) :
    Prop where
  resolutions : program.resolutionsAt field.span =
    [⟨field,
      if (S.field? field.name).isSome then some (S.fingerprint ++ "." ++ field.name) else none⟩]
  errors : program.errorsAt field.span =
    if (S.field? field.name).isSome then []
    else [⟨.undefinedField S.name field.name, field.span⟩]

theorem Symbol.mem_filterMap_asStruct? {S : StructSymbol} {symbols : List Symbol} :
    S ∈ symbols.filterMap Symbol.asStruct? ↔ .struct S ∈ symbols := by
  rw [List.mem_filterMap]
  constructor
  · rintro ⟨symbol, hsymbol, hstruct⟩
    cases symbol with
    | struct T =>
      obtain rfl := Option.some.inj hstruct
      exact hsymbol
    | _ => cases hstruct
  · intro hsymbol
    exact ⟨_, hsymbol, rfl⟩

namespace Scope

/-- Whether a name stands for a parameter or a local variable. -/
def Hides (s : Scope) (name : String) : Prop :=
  ∃ symbol, s.lookup? name = some symbol ∧ symbol.isLocal = true

theorem isLocal_of_denotes {d : Declared} {symbol : Symbol} (h : d.Denotes symbol) :
    symbol.isLocal = true := by
  cases d with
  | localVariable n id =>
    obtain ⟨v, rfl, -⟩ := h
    rfl
  | parameter v =>
    have hsymbol : symbol = .parameter v := h
    rw [hsymbol]
    rfl

/-- A name of the program that no parameter and no local variable has stands for what the program
says. -/
theorem Sees.hides_or {program root : Region} {regions : List (List Declared)} {s : Scope}
    (h : s.Sees program root regions) {name : String} {symbol : Symbol}
    (hsymbol : program.lookup? name = some symbol) :
    s.Hides name ∨ s.lookup? name = some symbol := by
  have hlookup := h.lookup? name
  unfold lexical at hlookup
  rw [hsymbol] at hlookup
  generalize hfound : s.lookup? name = found at hlookup
  split at hlookup
  · next d _ =>
    cases hlookup with
    | some hd => exact .inl ⟨_, hfound, isLocal_of_denotes hd⟩
  · cases hlookup with
    | some hd => exact .inr (congrArg some hd.symm)

variable {s : Scope} {name : String}

/-- A parameter or a local variable is no structure. -/
theorem Hides.lookupStruct? (h : s.Hides name) : s.lookupStruct? name = none := by
  obtain ⟨symbol, hsymbol, hlocal⟩ := h
  unfold Scope.lookupStruct?
  rw [hsymbol]
  cases symbol with
  | localVariable v | parameter v => rfl
  | _ => cases hlocal

/-- What is found of an object that is a variable, and of its field. -/
theorem useField_of_variable {object : Ident} {v : Variable}
    (hv : s.lookupVariable? object.name = some v) (field : Ident) :
    ∃ fingerprint, s.useField object field = .resolved object fingerprint ::
      ((s.structOf? v.type).elim [] fun owner => useStructField owner field) := by
  obtain ⟨symbol, hsymbol, hvariable⟩ := Option.bind_eq_some_iff.1 hv
  refine ⟨symbol.fingerprint, ?_⟩
  unfold useField
  rw [hsymbol]
  dsimp only
  rw [hvariable, Option.map_some, Option.bind_some]
  cases s.structOf? v.type <;> rfl

theorem foundAt_useStructField (S : StructSymbol) (field : Ident) :
    foundAt field.span (useStructField S field) = useStructField S field := by
  unfold useStructField
  split <;> simp [foundAt, Finding.place?, Finding.resolved, Finding.unresolved, Finding.fault,
    SemanticFault.isOfUse]

end Scope

section

variable {file : Nat} {hashComments : Bool} {source : String} {tokens : List Token}
  {members : List Member} {known : List PackageSymbol} {last : Nat} {e : Expression}
  {object field : Ident} {s : Scope} {v : Variable}

/-- What is found at a field of an object that is a variable comes of the structure that declares
its type. -/
theorem BoundIn.foundAt_field (h : BoundIn known last members e s)
    (he : e.field? = some (object, field)) (hv : s.lookupVariable? object.name = some v)
    (htokens : tokenize file hashComments source = .ok tokens)
    (hparse : parseProgram tokens = .ok members) :
    foundAt field.span (bindProgram known last members).findings =
      (s.structOf? v.type).elim [] fun owner => Scope.useStructField owner field := by
  have hr := Expression.reference?_of_field? he
  have hne : object.span ≠ field.span := by
    simpa [Reference.names, Reference.head, Reference.follower?] using
      h.spans_nodup hr htokens hparse
  have hfield : field ∈ (Reference.fieldOf object field).names :=
    List.mem_cons_of_mem _ (List.mem_singleton_self _)
  obtain ⟨fingerprint, hfound⟩ := Scope.useField_of_variable hv field
  rw [h.foundAt_eq hr htokens hparse hfield, Reference.findings, hfound,
    Finding.foundAt_resolved_ne hne]
  cases s.structOf? v.type with
  | none => rfl
  | some owner => exact Scope.foundAt_useStructField owner field

theorem StructSymbol.answers_of_foundAt {S : StructSymbol} {p : BoundProgram}
    (h : foundAt field.span p.findings = Scope.useStructField S field) : S.Answers field p := by
  constructor
  · rw [BoundProgram.resolutionsAt_eq, h, Scope.useStructField]
    split <;> rfl
  · rw [BoundProgram.errorsAt_eq, h, Scope.useStructField]
    split <;> rfl

/-- A structure of a program is what its name stands for, wherever no parameter and no local
variable has the name. -/
theorem BoundIn.hides_or_lookup? (h : BoundIn known last members e s) {S : StructSymbol}
    (hS : .struct S ∈ (bindProgram known last members).symbols) :
    s.Hides S.name ∨ s.lookup? S.name = some (.struct S) := by
  obtain ⟨regions, hsees⟩ := h.sees
  obtain ⟨-, hvalid, -⟩ := bindProgram_symbols known last members
  exact hsees.hides_or (hvalid.lookup?_of_mem hS)

end

/-- The fields of variables are those of the structures that declare their types.

Every expression that reads a field or assigns to one is bound in some scope. Wherever it is bound,
and if the object is a variable there whose type a structure of the program declares, the program
says of the field what this structure makes of it exactly if no parameter and no local variable has
the structure's name there. If one has it, the program says nothing of the field. -/
theorem bindProgram_fields {file : Nat} {hashComments : Bool} {source : String}
    {tokens : List Token} {members : List Member}
    (htokens : tokenize file hashComments source = .ok tokens)
    (hparse : parseProgram tokens = .ok members) (known : List PackageSymbol) (last : Nat) :
    let p := bindProgram known last members
    (∀ m ∈ members, ∀ e, Within (.expression e) (.member m) → e.field?.isSome = true →
      ∃ s, BoundIn known last members e s) ∧
    ∀ e object field s, e.field? = some (object, field) → BoundIn known last members e s →
      ∀ v S, s.lookupVariable? object.name = some v → .struct S ∈ p.symbols →
        v.type.structName = some S.name →
          (S.Answers field p ↔ ¬ s.Hides S.name) ∧
            (s.Hides S.name → p.resolutionsAt field.span = [] ∧ p.errorsAt field.span = []) := by
  intro p
  refine ⟨?_, ?_⟩
  · intro m hm e hwithin hfield
    obtain ⟨⟨object, field⟩, hfield⟩ := Option.isSome_iff_exists.1 hfield
    exact exists_boundIn hm hwithin (Expression.reference?_of_field? hfield)
  · intro e object field s he h v S hv hS htype
    have hfound := h.foundAt_field he hv htokens hparse
    have howner : s.structOf? v.type = s.lookupStruct? S.name := by
      rw [Scope.structOf?, htype, Option.bind_some]
    rw [howner] at hfound
    have hhidden (hhides : s.Hides S.name) :
        p.resolutionsAt field.span = [] ∧ p.errorsAt field.span = [] := by
      rw [hhides.lookupStruct?] at hfound
      rw [BoundProgram.resolutionsAt_eq, BoundProgram.errorsAt_eq, hfound]
      exact ⟨rfl, rfl⟩
    refine ⟨⟨?_, ?_⟩, hhidden⟩
    · intro hanswers hhides
      have hresolutions := hanswers.resolutions
      rw [(hhidden hhides).1] at hresolutions
      cases hresolutions
    · intro hhides
      have hlookup := (h.hides_or_lookup? hS).resolve_left hhides
      have hstruct : s.lookupStruct? S.name = some S := by
        rw [Scope.lookupStruct?, hlookup]
        rfl
      rw [hstruct] at hfound
      exact StructSymbol.answers_of_foundAt hfound

/-- The field of a global variable is the one of the structure that declares its type. -/
theorem bindProgram_fields_global :
    ∃ tokens members e object field s S,
      tokenize 0 true "struct P \x7b x int \x7d var p = make P\x7b\x7d p.x" = .ok tokens ∧
      parseProgram tokens = .ok members ∧ e.field? = some (object, field) ∧
      BoundIn [] 0 members e s ∧ .struct S ∈ (bindProgram [] 0 members).symbols ∧ S.name = "P" ∧
      ¬ s.Hides S.name ∧ S.Answers field (bindProgram [] 0 members) := by
  let tokens : List Token :=
    [⟨.keyword .structWord, "struct", none, ⟨0, 0, 6, 1, 1, 1, 7⟩, true⟩,
      ⟨.identifier, "P", none, ⟨0, 7, 8, 1, 8, 1, 9⟩, true⟩,
      ⟨.sign .lbrace, "\x7b", none, ⟨0, 9, 10, 1, 10, 1, 11⟩, true⟩,
      ⟨.identifier, "x", none, ⟨0, 11, 12, 1, 12, 1, 13⟩, true⟩,
      ⟨.identifier, "int", none, ⟨0, 13, 16, 1, 14, 1, 17⟩, true⟩,
      ⟨.sign .rbrace, "\x7d", none, ⟨0, 17, 18, 1, 18, 1, 19⟩, true⟩,
      ⟨.keyword .varWord, "var", none, ⟨0, 19, 22, 1, 20, 1, 23⟩, true⟩,
      ⟨.identifier, "p", none, ⟨0, 23, 24, 1, 24, 1, 25⟩, true⟩,
      ⟨.sign .assign, "=", none, ⟨0, 25, 26, 1, 26, 1, 27⟩, true⟩,
      ⟨.keyword .makeWord, "make", none, ⟨0, 27, 31, 1, 28, 1, 32⟩, true⟩,
      ⟨.identifier, "P", none, ⟨0, 32, 33, 1, 33, 1, 34⟩, false⟩,
      ⟨.sign .lbrace, "\x7b", none, ⟨0, 33, 34, 1, 34, 1, 35⟩, false⟩,
      ⟨.sign .rbrace, "\x7d", none, ⟨0, 34, 35, 1, 35, 1, 36⟩, true⟩,
      ⟨.identifier, "p", none, ⟨0, 36, 37, 1, 37, 1, 38⟩, false⟩,
      ⟨.sign .period, ".", none, ⟨0, 37, 38, 1, 38, 1, 39⟩, false⟩,
      ⟨.identifier, "x", none, ⟨0, 38, 39, 1, 39, 1, 40⟩, true⟩,
      Token.ending ⟨0, 39, 39, 1, 40, 1, 40⟩]
  let field : Ident := ⟨"x", ⟨0, 38, 39, 1, 39, 1, 40⟩⟩
  let object : Ident := ⟨"p", ⟨0, 36, 37, 1, 37, 1, 38⟩⟩
  let e : Expression := .fieldAccess object field
  let int : TypeClause := ⟨none, ⟨"int", ⟨0, 13, 16, 1, 14, 1, 17⟩⟩, [], none⟩
  let struct : StructDeclaration :=
    { keyword := ⟨0, 0, 6, 1, 1, 1, 7⟩
      name := ⟨"P", ⟨0, 7, 8, 1, 8, 1, 9⟩⟩
      fields := [⟨⟨"x", ⟨0, 11, 12, 1, 12, 1, 13⟩⟩, int⟩]
      closing := ⟨0, 17, 18, 1, 18, 1, 19⟩ }
  let clause : TypeClause := ⟨none, ⟨"P", ⟨0, 32, 33, 1, 33, 1, 34⟩⟩, [], none⟩
  let value : Expression :=
    .makeStruct ⟨0, 27, 31, 1, 28, 1, 32⟩ clause [] ⟨0, 34, 35, 1, 35, 1, 36⟩
  let global : VariableDeclaration :=
    ⟨⟨0, 19, 22, 1, 20, 1, 23⟩, false, none, ⟨"p", ⟨0, 23, 24, 1, 24, 1, 25⟩⟩, some value⟩
  let members : List Member :=
    [.struct struct, .statement (.declaration global), .statement (.expression e)]
  have htokens :
      tokenize 0 true "struct P \x7b x int \x7d var p = make P\x7b\x7d p.x" = .ok tokens := by
    decide +kernel
  have hmembers : parseProgram tokens = .ok members := by
    dsimp only [tokens, field, object, e, int, struct, clause, value, global, members]
    cbv
  let s : Scope := ((Walk.declaring [] 0 members).optionalExpression global.value).enter.scope
  have hs : BoundIn [] 0 members e s :=
    ⟨_, rfl, ⟨s, .fieldOf object field⟩, List.mem_cons_of_mem _ List.mem_cons_self, .self _ _⟩
  have hstructs : ((bindProgram [] 0 members).symbols.filterMap Symbol.asStruct?).map
      StructSymbol.name = ["P"] := by
    decide +kernel
  have hvariable : (s.lookupVariable? object.name).map (·.type.structName) =
      some (some "P") := by
    decide +kernel
  have hglobal : (s.lookup? "P").map Symbol.isLocal = some false := by
    decide +kernel
  obtain ⟨S, hS, hname⟩ := List.map_eq_singleton_iff.1 hstructs
  obtain ⟨v, hv, htype⟩ := Option.map_eq_some_iff.1 hvariable
  have hstruct : .struct S ∈ (bindProgram [] 0 members).symbols := by
    rw [← Symbol.mem_filterMap_asStruct?, hS]
    exact List.mem_singleton_self S
  have hhides : ¬ s.Hides S.name := by
    rintro ⟨symbol, hsymbol, hlocal⟩
    rw [hname] at hsymbol
    rw [hsymbol, Option.map_some, hlocal] at hglobal
    cases hglobal
  obtain ⟨-, hfields⟩ := bindProgram_fields htokens hmembers [] 0
  obtain ⟨hanswers, -⟩ := hfields e object field s rfl hs v S hv hstruct
    (htype.trans (congrArg some hname.symm))
  exact ⟨tokens, members, e, object, field, s, S, htokens, hmembers, rfl, hs, hstruct, hname,
    hhides, hanswers.2 hhides⟩

/-- A local variable has the name of a structure. The structure has the field that is read, but the
program says nothing of it. -/
theorem field_of_hidden_struct :
    ∃ tokens members e object field s v S,
      tokenize 0 true
        "struct P \x7b x int \x7d var p = make P\x7b\x7d \x7b var P = 1; p.x \x7d" =
          .ok tokens ∧
      parseProgram tokens = .ok members ∧ e.field? = some (object, field) ∧
      BoundIn [] 0 members e s ∧ s.lookupVariable? object.name = some v ∧
      .struct S ∈ (bindProgram [] 0 members).symbols ∧ v.type.structName = some S.name ∧
      (S.field? field.name).isSome = true ∧
      (bindProgram [] 0 members).resolutionsAt field.span = [] ∧
      (bindProgram [] 0 members).errors = [] := by
  let one : Token := ⟨.integer, "1", some (.integer 1), ⟨0, 46, 47, 1, 47, 1, 48⟩, false⟩
  let tokens : List Token :=
    [⟨.keyword .structWord, "struct", none, ⟨0, 0, 6, 1, 1, 1, 7⟩, true⟩,
      ⟨.identifier, "P", none, ⟨0, 7, 8, 1, 8, 1, 9⟩, true⟩,
      ⟨.sign .lbrace, "\x7b", none, ⟨0, 9, 10, 1, 10, 1, 11⟩, true⟩,
      ⟨.identifier, "x", none, ⟨0, 11, 12, 1, 12, 1, 13⟩, true⟩,
      ⟨.identifier, "int", none, ⟨0, 13, 16, 1, 14, 1, 17⟩, true⟩,
      ⟨.sign .rbrace, "\x7d", none, ⟨0, 17, 18, 1, 18, 1, 19⟩, true⟩,
      ⟨.keyword .varWord, "var", none, ⟨0, 19, 22, 1, 20, 1, 23⟩, true⟩,
      ⟨.identifier, "p", none, ⟨0, 23, 24, 1, 24, 1, 25⟩, true⟩,
      ⟨.sign .assign, "=", none, ⟨0, 25, 26, 1, 26, 1, 27⟩, true⟩,
      ⟨.keyword .makeWord, "make", none, ⟨0, 27, 31, 1, 28, 1, 32⟩, true⟩,
      ⟨.identifier, "P", none, ⟨0, 32, 33, 1, 33, 1, 34⟩, false⟩,
      ⟨.sign .lbrace, "\x7b", none, ⟨0, 33, 34, 1, 34, 1, 35⟩, false⟩,
      ⟨.sign .rbrace, "\x7d", none, ⟨0, 34, 35, 1, 35, 1, 36⟩, true⟩,
      ⟨.sign .lbrace, "\x7b", none, ⟨0, 36, 37, 1, 37, 1, 38⟩, true⟩,
      ⟨.keyword .varWord, "var", none, ⟨0, 38, 41, 1, 39, 1, 42⟩, true⟩,
      ⟨.identifier, "P", none, ⟨0, 42, 43, 1, 43, 1, 44⟩, true⟩,
      ⟨.sign .assign, "=", none, ⟨0, 44, 45, 1, 45, 1, 46⟩, true⟩, one,
      ⟨.sign .semicolon, ";", none, ⟨0, 47, 48, 1, 48, 1, 49⟩, true⟩,
      ⟨.identifier, "p", none, ⟨0, 49, 50, 1, 50, 1, 51⟩, false⟩,
      ⟨.sign .period, ".", none, ⟨0, 50, 51, 1, 51, 1, 52⟩, false⟩,
      ⟨.identifier, "x", none, ⟨0, 51, 52, 1, 52, 1, 53⟩, true⟩,
      ⟨.sign .rbrace, "\x7d", none, ⟨0, 53, 54, 1, 54, 1, 55⟩, true⟩,
      Token.ending ⟨0, 54, 54, 1, 55, 1, 55⟩]
  let field : Ident := ⟨"x", ⟨0, 51, 52, 1, 52, 1, 53⟩⟩
  let object : Ident := ⟨"p", ⟨0, 49, 50, 1, 50, 1, 51⟩⟩
  let e : Expression := .fieldAccess object field
  let int : TypeClause := ⟨none, ⟨"int", ⟨0, 13, 16, 1, 14, 1, 17⟩⟩, [], none⟩
  let struct : StructDeclaration :=
    { keyword := ⟨0, 0, 6, 1, 1, 1, 7⟩
      name := ⟨"P", ⟨0, 7, 8, 1, 8, 1, 9⟩⟩
      fields := [⟨⟨"x", ⟨0, 11, 12, 1, 12, 1, 13⟩⟩, int⟩]
      closing := ⟨0, 17, 18, 1, 18, 1, 19⟩ }
  let clause : TypeClause := ⟨none, ⟨"P", ⟨0, 32, 33, 1, 33, 1, 34⟩⟩, [], none⟩
  let value : Expression :=
    .makeStruct ⟨0, 27, 31, 1, 28, 1, 32⟩ clause [] ⟨0, 34, 35, 1, 35, 1, 36⟩
  let global : VariableDeclaration :=
    ⟨⟨0, 19, 22, 1, 20, 1, 23⟩, false, none, ⟨"p", ⟨0, 23, 24, 1, 24, 1, 25⟩⟩, some value⟩
  let shadow : VariableDeclaration :=
    ⟨⟨0, 38, 41, 1, 39, 1, 42⟩, false, none, ⟨"P", ⟨0, 42, 43, 1, 43, 1, 44⟩⟩,
      some (.literal one)⟩
  let block : Statement :=
    .block ⟨0, 36, 37, 1, 37, 1, 38⟩ [.declaration shadow, .expression e]
      ⟨0, 53, 54, 1, 54, 1, 55⟩
  let members : List Member :=
    [.struct struct, .statement (.declaration global), .statement block]
  have htokens : tokenize 0 true
      "struct P \x7b x int \x7d var p = make P\x7b\x7d \x7b var P = 1; p.x \x7d" =
        .ok tokens := by
    decide +kernel
  have hmembers : parseProgram tokens = .ok members := by
    dsimp only [one, tokens, field, object, e, int, struct, clause, value, global, shadow, block,
      members]
    cbv
  let w : Walk := (Walk.declaring [] 0 members).optionalExpression global.value
  let s : Scope := (w.enter.enter.statement (.declaration shadow)).scope
  have hs : BoundIn [] 0 members e s :=
    ⟨_, rfl, ⟨s, .fieldOf object field⟩, List.mem_cons_of_mem _ List.mem_cons_self, .self _ _⟩
  have hstructs : ((bindProgram [] 0 members).symbols.filterMap Symbol.asStruct?).map
      (fun S => (S.name, (S.field? "x").isSome)) = [("P", true)] := by
    decide +kernel
  have hvariable : (s.lookupVariable? object.name).map (·.type.structName) =
      some (some "P") := by
    decide +kernel
  obtain ⟨S, hS, hfield⟩ := List.map_eq_singleton_iff.1 hstructs
  obtain ⟨hname, hfield⟩ := Prod.mk.inj hfield
  obtain ⟨v, hv, htype⟩ := Option.map_eq_some_iff.1 hvariable
  have hstruct : .struct S ∈ (bindProgram [] 0 members).symbols := by
    rw [← Symbol.mem_filterMap_asStruct?, hS]
    exact List.mem_singleton_self S
  have hunsaid : (bindProgram [] 0 members).resolutionsAt field.span = [] := by
    decide +kernel
  have haccepted : (bindProgram [] 0 members).errors = [] := by
    decide +kernel
  exact ⟨tokens, members, e, object, field, s, v, S, htokens, hmembers, rfl, hs, hv, hstruct,
    htype.trans (congrArg some hname.symm), hfield, hunsaid, haccepted⟩

end TodLang
