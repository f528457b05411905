import TodLang.Proofs.Binding.Origin
/-!
What a written type stands for. It has a meaning if every name in it has one: the name of a package
that is visible, or else that of a visible type or structure. Then the type is written as the clause
is, level by level. If a name has none, the fault is the one of the first clause, those inside first
and from left to right, whose own name has no meaning (`Scope.lookupType_faithful`). In the scopes
of a program the types that a name can stand for are built in, so they have no package
(`Walk.plain_programSites`).
-/

namespace TodLang

/-! ### Written types -/

namespace TypeClause

mutual

/-- A written type with all that are written in it: those inside first, from left to right. -/
def parts : TypeClause → List TypeClause
  | ⟨package, name, arguments, closing⟩ =>
    partsAll arguments ++ [⟨package, name, arguments, closing⟩]

def partsAll : List TypeClause → List TypeClause
  | [] => []
  | clause :: others => clause.parts ++ partsAll others

end

/-- The fault of a written type whose own name has no meaning. -/
def fault (clause : TypeClause) : SemanticError :=
  match clause.package with
  | some package => ⟨.undefinedPackage package.name, package.span⟩
  | none => ⟨.undefinedType clause.name.name, clause.name.span⟩

end TypeClause

namespace Ty

mutual

/-- Whether a type is as it is written: the package and the name are, and so are the types that it
is made from, in their order. -/
def Follows (t : Ty) : TypeClause → Prop
  | ⟨package, name, arguments, _⟩ =>
    t.package = package.map Ident.name ∧ t.name = name.name ∧ FollowAll t.arguments arguments

def FollowAll : List Ty → List TypeClause → Prop
  | types, [] => types = []
  | types, clause :: clauses =>
    ∃ t others, types = t :: others ∧ t.Follows clause ∧ FollowAll others clauses

end

mutual

/-- A type that is as it is written has the text of the clause. -/
theorem Follows.text_eq {t : Ty} {clause : TypeClause} (h : t.Follows clause) :
    t.text = clause.text := by
  obtain ⟨package, name, arguments, closing⟩ := clause
  obtain ⟨typeName, types, isObject, isUserDefined, typePackage, structName⟩ := t
  obtain ⟨hpackage, hname, harguments⟩ := h
  dsimp only at hpackage hname harguments
  subst hpackage hname
  cases arguments with
  | nil =>
    obtain rfl : types = [] := harguments
    rw [Ty.text, TypeClause.text]
  | cons first clauses =>
    obtain ⟨u, others, rfl, hu, hothers⟩ := harguments
    rw [Ty.text, TypeClause.text, hu.text_eq, FollowAll.textTail_eq hothers]

theorem FollowAll.textTail_eq {types : List Ty} {clauses : List TypeClause}
    (h : FollowAll types clauses) : textTail types = TypeClause.textTail clauses := by
  cases clauses with
  | nil =>
    obtain rfl : types = [] := h
    rw [Ty.textTail, TypeClause.textTail]
  | cons clause clauses =>
    obtain ⟨t, others, rfl, ht, hothers⟩ := h
    rw [Ty.textTail, TypeClause.textTail, ht.text_eq, FollowAll.textTail_eq hothers]

end

end Ty

/-! ### Looking up the names -/

/-- Whether a symbol, if it is a type, is one of no package. -/
def Symbol.IsPlain : Symbol → Prop
  | .type t => t.package = none
  | _ => True

namespace Scope

variable {s : Scope}

/-- Whether the own name of a written type has a meaning: its package is visible as a package or, if
none is written, its name is that of a visible type or structure. -/
def Knows (s : Scope) (clause : TypeClause) : Prop :=
  match clause.package with
  | some package => ∃ p, s.lookup? package.name = some (.package p)
  | none =>
    (∃ t, s.lookup? clause.name.name = some (.type t)) ∨
      ∃ d, s.lookup? clause.name.name = some (.struct d)

/-- Whether a clause is the first one of some whose own name has no meaning. -/
def Misses (s : Scope) (clauses : List TypeClause) (clause : TypeClause) : Prop :=
  ∃ front back, clauses = front ++ clause :: back ∧ (∀ c ∈ front, s.Knows c) ∧ ¬ s.Knows clause

theorem misses_own {clause : TypeClause} (h : ¬ s.Knows clause) : s.Misses [clause] clause :=
  ⟨[], [], rfl, List.forall_mem_nil _, h⟩

theorem Misses.not_knows {clauses : List TypeClause} {clause : TypeClause}
    (h : s.Misses clauses clause) : ¬ ∀ c ∈ clauses, s.Knows c := by
  obtain ⟨front, back, rfl, -, hclause⟩ := h
  intro hall
  exact hclause (hall clause (List.mem_append_right front List.mem_cons_self))

theorem Misses.before {clauses : List TypeClause} {clause : TypeClause}
    (h : s.Misses clauses clause) (others : List TypeClause) :
    s.Misses (clauses ++ others) clause := by
  obtain ⟨front, back, rfl, hfront, hclause⟩ := h
  exact ⟨front, back ++ others, by simp, hfront, hclause⟩

theorem Misses.after {clauses : List TypeClause} {clause : TypeClause}
    (h : s.Misses clauses clause) {others : List TypeClause} (hothers : ∀ c ∈ others, s.Knows c) :
    s.Misses (others ++ clauses) clause := by
  obtain ⟨front, back, rfl, hfront, hclause⟩ := h
  exact ⟨others ++ front, back, by simp, List.forall_mem_append.2 ⟨hothers, hfront⟩, hclause⟩

/-- What an outcome of looking up written types says of them: types that are as they are written,
where all names have a meaning, or the fault of the first clause whose name has none. -/
def Resolves {α : Type} (s : Scope) (follows : α → Prop) (clauses : List TypeClause) :
    Except SemanticError α → Prop
  | .ok a => follows a ∧ ∀ c ∈ clauses, s.Knows c
  | .error e => ∃ c, s.Misses clauses c ∧ e = c.fault

/-- The own name of a written type. -/
theorem resolves_namedType (h : s.Among Symbol.IsPlain) (clause : TypeClause) {types : List Ty}
    (htypes : Ty.FollowAll types clause.arguments) :
    s.Resolves (Ty.Follows · clause) [clause] (s.namedType clause.package clause.name types) := by
  obtain ⟨package, name, arguments, closing⟩ := clause
  cases package with
  | some package =>
    dsimp only [namedType]
    cases hpackage : s.lookupPackage? package.name with
    | some p =>
      obtain ⟨symbol, hsymbol, hp⟩ := Option.bind_eq_some_iff.1 hpackage
      cases symbol with
      | package q =>
        obtain rfl := Option.some.inj hp
        refine ⟨⟨?_, rfl, htypes⟩, List.forall_mem_singleton.2 ⟨q, hsymbol⟩⟩
        exact congrArg some (name_of_lookup? hsymbol)
      | _ => cases hp
    | none =>
      refine ⟨_, misses_own ?_, rfl⟩
      rintro ⟨p, hp⟩
      rw [lookupPackage?, hp] at hpackage
      cases hpackage
  | none =>
    dsimp only [namedType]
    split
    · next t ht =>
      have hplain : t.package = none := h.lookup? ht
      exact ⟨⟨hplain, name_of_lookup? ht, htypes⟩, List.forall_mem_singleton.2 (.inl ⟨t, ht⟩)⟩
    · next d hd =>
      exact ⟨⟨rfl, name_of_lookup? hd, htypes⟩, List.forall_mem_singleton.2 (.inr ⟨d, hd⟩)⟩
    · next htype hstruct =>
      refine ⟨_, misses_own ?_, rfl⟩
      rintro (⟨t, ht⟩ | ⟨d, hd⟩)
      · exact htype t ht
      · exact hstruct d hd

mutual

theorem resolves_lookupType (h : s.Among Symbol.IsPlain) (clause : TypeClause) :
    s.Resolves (Ty.Follows · clause) clause.parts (s.lookupType clause) := by
  obtain ⟨package, name, arguments, closing⟩ := clause
  have hall := resolves_lookupTypes h arguments
  rw [lookupType, TypeClause.parts]
  cases htypes : s.lookupTypes arguments with
  | error e =>
    rw [htypes] at hall
    obtain ⟨c, hc, rfl⟩ := hall
    exact ⟨c, hc.before _, rfl⟩
  | ok types =>
    rw [htypes] at hall
    obtain ⟨hfollow, hknown⟩ := hall
    have hown := resolves_namedType h ⟨package, name, arguments, closing⟩ hfollow
    dsimp only at hown ⊢
    cases hnamed : s.namedType package name types with
    | ok t =>
      rw [hnamed] at hown
      exact ⟨hown.1, List.forall_mem_append.2 ⟨hknown, hown.2⟩⟩
    | error e =>
      rw [hnamed] at hown
      obtain ⟨c, hc, rfl⟩ := hown
      exact ⟨c, hc.after hknown, rfl⟩

theorem resolves_lookupTypes (h : s.Among Symbol.IsPlain) (clauses : List TypeClause) :
    s.Resolves (Ty.FollowAll · clauses) (TypeClause.partsAll clauses) (s.lookupTypes clauses) := by
  cases clauses with
  | nil => exact ⟨rfl, List.forall_mem_nil _⟩
  | cons clause others =>
    have hfirst := resolves_lookupType h clause
    have hothers := resolves_lookupTypes h others
    rw [lookupTypes, TypeClause.partsAll]
    cases htype : s.lookupType clause with
    | error e =>
      rw [htype] at hfirst
      obtain ⟨c, hc, rfl⟩ := hfirst
      exact ⟨c, hc.before _, rfl⟩
    | ok t =>
      rw [htype] at hfirst
      dsimp only
      cases htypes : s.lookupTypes others with
      | error e =>
        rw [htypes] at hothers
        obtain ⟨c, hc, rfl⟩ := hothers
        exact ⟨c, hc.after hfirst.2, rfl⟩
      | ok types =>
        rw [htypes] at hothers
        exact ⟨⟨t, types, rfl, hfirst.1, hothers.1⟩,
          List.forall_mem_append.2 ⟨hfirst.2, hothers.2⟩⟩

end

end Scope

/-! ### The scopes of a program -/

namespace Walk

open TodLang.Symbol (IsPlain)

variable {known : List PackageSymbol} {last : Nat} {members : List Member}

theorem admitsDeclared_isPlain {signed : List FunctionSymbol} :
    Symbol.AdmitsDeclared known members signed IsPlain where
  builtin last symbol hsymbol := by
    rcases mem_prelude hsymbol with ⟨name, -, rfl⟩ | ⟨f, -, rfl⟩
    · rfl
    · trivial
  package _ _ := trivial
  imported _ _ _ _ := trivial
  struct _ := trivial
  signed _ _ := trivial
  external _ _ := trivial
  globalVariable _ := trivial

/-- Where every step keeps a property of walks at sites of a program, what it says of the sites of
one step can be said of all. -/
theorem sites_of_follow {α : Type} {step : Walk → α → Walk} {sites : Walk → α → List Site}
    {all : List Site} {I : Walk → Prop} {Q : Site → Prop}
    (hstep : ∀ w x, I w → sites w x ⊆ all → I (step w x))
    (hsites : ∀ w x, I w → ∀ site ∈ sites w x, Q site) {w : Walk} (h : I w) {l : List α}
    (hall : follow step sites w l ⊆ all) : ∀ site ∈ follow step sites w l, Q site := by
  induction l generalizing w with
  | nil => exact List.forall_mem_nil _
  | cons x others ih =>
    obtain ⟨hfirst, hothers⟩ := List.append_subset.1 hall
    exact List.forall_mem_append.2 ⟨hsites w x h, ih (hstep w x h hfirst) hothers⟩

/-- At every site of a program, the types that can be seen have no package. -/
theorem plain_programSites (known : List PackageSymbol) (last : Nat) (members : List Member) :
    ∀ site ∈ programSites known last members, site.scope.Among IsPlain := by
  have hA (signed : List FunctionSymbol) : Symbol.Admits known last members signed IsPlain :=
    admitsDeclared_isPlain.admits last
  have hsitesOf (w : Walk) (h : w.scope.Orderly IsPlain) (references : List Reference) :
      ∀ site ∈ w.sitesOf references, site.scope.Among IsPlain := by
    intro site hsite
    obtain ⟨r, -, rfl⟩ := List.mem_map.1 hsite
    exact h.among
  have hsignatures (w : Walk) (member : Member) (h : w.scope.Orderly IsPlain)
      (hsites : w.sitesOf member.signatureReferences ⊆ programSites known last members) :
      (w.signatures [member]).2.scope.Orderly IsPlain :=
    (orderly_signatures (hA _) w [member] (List.Subset.refl _)
      (List.append_subset.2 ⟨hsites, List.nil_subset _⟩) h).1
  have hglobal (w : Walk) (d : VariableDeclaration) (h : w.scope.Orderly IsPlain) :
      (w.declareVariable .globalVariable d).scope.Orderly IsPlain := by
    have hscope : (w.declaredType d).2.countVariable.scope = w.scope := w.declaredType_scope d
    have htyped : (w.declaredType d).2.countVariable.scope.Orderly IsPlain := by
      rw [hscope]
      exact h
    have hplain : IsPlain (.globalVariable (w.declaredVariable d)) := trivial
    exact orderly_declare htyped hplain d.name.span
  have hfunctions : (functionsDeclared known last members).scope.Orderly IsPlain :=
    (orderly_signatures (hA _) _ members (List.Subset.refl _)
      (signatureSites_subset known last members) (orderly_structsDeclared (hA []))).1
  refine List.forall_mem_append.2 ⟨List.forall_mem_append.2 ⟨List.forall_mem_append.2
    ⟨List.forall_mem_append.2 ⟨?_, ?_⟩, ?_⟩, ?_⟩, ?_⟩
  · exact sites_of_follow (fun w name h _ => orderly_packageUse (hA []) w name h)
      (fun w name h => hsitesOf w h [.packageUse name]) (orderly_packagesDeclared (hA []))
      (List.Subset.refl _)
  · exact sites_of_follow (orderly_structFields (hA []))
      (fun w d h => hsitesOf w h (parameterReferences d.fields)) (orderly_structsNamed (hA []))
      (fieldSites_subset known last members)
  · exact sites_of_follow hsignatures (fun w member h => hsitesOf w h member.signatureReferences)
      (orderly_structsDeclared (hA [])) (signatureSites_subset known last members)
  · exact sites_of_follow (fun w d h _ => hglobal w d h)
      (fun w d h => hsitesOf w h d.typeReferences) hfunctions
      (globalSites_subset known last members)
  · exact among_of_admits (hA _) (fun _ _ _ _ _ => trivial) fun _ _ _ _ _ => trivial

end Walk

namespace Scope

/-- What a written type stands for where types that can be seen have no package, as at every site
of a program. It has a meaning if the names of all clauses in it have one, and then it is written as
the clause is, at every level. If it has none, the one error is that of the first clause whose name
has no meaning, where the clauses inside come first and from left to right. -/
theorem lookupType_faithful :
    (∀ known last members, ∀ site ∈ programSites known last members,
      site.scope.Among Symbol.IsPlain) ∧
    ∀ s : Scope, s.Among Symbol.IsPlain → ∀ clause : TypeClause,
      ((∃ t, s.lookupType clause = .ok t) ↔ ∀ c ∈ clause.parts, s.Knows c) ∧
      (∀ t, s.lookupType clause = .ok t → t.text = clause.text ∧ t.Follows clause ∧
        (s.resolveType clause).2.filterMap Finding.error? = []) ∧
      ∀ e, s.lookupType clause = .error e → ∃ c, s.Misses clause.parts c ∧
        (s.resolveType clause).2.filterMap Finding.error? = [c.fault] := by
  refine ⟨Walk.plain_programSites, ?_⟩
  intro s h clause
  have hresolves := resolves_lookupType h clause
  cases htype : s.lookupType clause with
  | ok t =>
    rw [htype] at hresolves
    obtain ⟨hfollows, hknown⟩ := hresolves
    refine ⟨iff_of_true ⟨t, rfl⟩ hknown, ?_, ?_⟩
    · intro u hu
      obtain rfl := Except.ok.inj hu
      refine ⟨hfollows.text_eq, hfollows, ?_⟩
      rw [resolveType, htype]
      rfl
    · intro e he
      cases he
  | error e =>
    rw [htype] at hresolves
    obtain ⟨c, hc, rfl⟩ := hresolves
    have hfails : ¬ ∃ t : Ty, Except.error c.fault = .ok t := by
      rintro ⟨t, ht⟩
      cases ht
    refine ⟨iff_of_false hfails hc.not_knows, ?_, ?_⟩
    · intro t ht
      cases ht
    · intro e he
      obtain rfl := Except.error.inj he
      refine ⟨c, hc, ?_⟩
      rw [resolveType, htype]
      rfl

/-- In `array[void, lost[gone], int]`, the name that is written first of those without a meaning
stands around another one, which is the fault. -/
theorem lookupType_faithful_lost :
    let s := Scope.root (prelude 0)
    let clause (name : String) (arguments : List TypeClause) : TypeClause :=
      ⟨none, ⟨name, .none⟩, arguments, none⟩
    let written := clause "array" [clause "void" [], clause "lost" [clause "gone" []],
      clause "int" []]
    s.Among Symbol.IsPlain ∧ s.lookupType written = .error (clause "gone" []).fault ∧
      ∃ c, s.Misses written.parts c ∧
        (s.resolveType written).2.filterMap Finding.error? = [c.fault] := by
  intro s clause written
  have hplain : s.Among Symbol.IsPlain := by
    intro r hr symbol hsymbol
    obtain rfl := List.mem_singleton.1 hr
    have hdeclared : Symbol.AdmitsDeclared [] [] [] Symbol.IsPlain := Walk.admitsDeclared_isPlain
    exact hdeclared.builtin 0 symbol hsymbol
  have herror : s.lookupType written = .error (clause "gone" []).fault := rfl
  exact ⟨hplain, herror, (lookupType_faithful.2 s hplain written).2.2 _ herror⟩

end Scope

end TodLang
