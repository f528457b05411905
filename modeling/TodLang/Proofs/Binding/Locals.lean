import TodLang.Proofs.Binding.ProgramRegion
/-!
The symbols that functions are bound with. Every function has an entry of its own, in the order of
the members, which carries what is declared in its regions (`bindProgram_locals`). Numbers are given
to variables one after another (`Walk.ascends_statement`, `Walk.ascends_signatures`), so no symbol
is carried by two functions.
-/

namespace TodLang

/-! ### Numbers in ascending order -/

/-- Numbers that are given one after another, beyond one bound and up to another. -/
structure Ascends (low high : Nat) (ids : List Nat) : Prop where
  le : low ≤ high
  sorted : ids.Pairwise (· < ·)
  bounds : ∀ id ∈ ids, low < id ∧ id ≤ high

theorem ascends_nil {low high : Nat} (h : low ≤ high) : Ascends low high [] :=
  ⟨h, .nil, List.forall_mem_nil _⟩

theorem ascends_next (low : Nat) : Ascends low (low + 1) [low + 1] :=
  ⟨low.le_succ, List.pairwise_singleton _ _, by simp⟩

theorem Ascends.append {low middle high : Nat} {front back : List Nat}
    (h : Ascends low middle front) (h' : Ascends middle high back) :
    Ascends low high (front ++ back) := by
  refine ⟨h.le.trans h'.le, ?_, ?_⟩
  · rw [List.pairwise_append]
    refine ⟨h.sorted, h'.sorted, ?_⟩
    intro i hi j hj
    exact (h.bounds i hi).2.trans_lt (h'.bounds j hj).1
  · intro i hi
    rcases List.mem_append.1 hi with hi | hi
    · exact ⟨(h.bounds i hi).1, (h.bounds i hi).2.trans h'.le⟩
    · exact ⟨h.le.trans_lt (h'.bounds i hi).1, (h'.bounds i hi).2⟩

/-- The numbers of the variables of sites. -/
def siteIds (sites : List VariableSite) : List Nat :=
  sites.map (·.symbol.id)

theorem siteIds_append (front back : List VariableSite) :
    siteIds (front ++ back) = siteIds front ++ siteIds back :=
  List.map_append

namespace Walk

theorem optionalExpression_last (w : Walk) (value : Option Expression) :
    (w.optionalExpression value).last = w.last := by
  cases value <;> rfl

theorem ascends_localVariable (w : Walk) (d : VariableDeclaration) :
    Ascends w.last (w.localVariable d).last (siteIds [w.localSite d]) := by
  let valued := w.optionalExpression d.value
  have hvalued : valued.last = w.last := w.optionalExpression_last d.value
  have hlast : (w.localVariable d).last = w.last + 1 := by
    change (valued.declareVariable .localVariable d).last = _
    rw [declareVariable_eq, declare_last]
    change (valued.declaredType d).2.last + 1 = _
    rw [declaredType_last, hvalued]
  have hid : (w.localSite d).symbol.id = w.last + 1 := by
    change (valued.declaredVariable d).id = _
    rw [declaredVariable_id, hvalued]
  rw [hlast, siteIds, List.map_singleton, hid]
  exact ascends_next w.last

mutual

/-- A statement gives numbers to its variables in their order. -/
theorem ascends_statement (w : Walk) (s : Statement) :
    Ascends w.last (w.statement s).last (siteIds (w.variableSites s)) := by
  cases s with
  | block opening statements closing =>
    rw [statement, variableSites, leave_last]
    exact ascends_statements w.enter statements
  | declaration d => exact w.ascends_localVariable d
  | ifThen keyword condition body | «while» keyword condition body =>
    rw [statement, variableSites, leave_last]
    exact ascends_statement (w.expression condition).enter body
  | ifElse keyword condition body elseKeyword alternative =>
    have hbody := ascends_statement (w.expression condition).enter body
    have halternative :=
      ascends_statement ((w.expression condition).enter.statement body).leave.enter alternative
    rw [statement, variableSites, leave_last, siteIds_append]
    refine hbody.append ?_
    rw [← leave_last ((w.expression condition).enter.statement body)]
    exact halternative
  | «return» keyword value => exact ascends_nil (w.continues_optionalExpression value).last
  | «for» keyword init condition step body =>
    let head := (w.enter.localVariable init).expression condition
    have hinit := w.enter.ascends_localVariable init
    have hstep := ascends_statement head step
    have hbody := ascends_statement (head.statement step).enter body
    have hall := hinit.append (Ascends.append hstep hbody)
    rw [← siteIds_append, ← siteIds_append] at hall
    rw [statement, leave_last, leave_last]
    exact hall
  | «break» keyword => exact ascends_nil le_rfl
  | «continue» keyword => exact ascends_nil le_rfl
  | expression e => exact ascends_nil le_rfl

theorem ascends_statements (w : Walk) (statements : List Statement) :
    Ascends w.last (w.statements statements).last (siteIds (w.variableSitesAll statements)) := by
  cases statements with
  | nil => exact ascends_nil le_rfl
  | cons s others =>
    have hfirst := ascends_statement w s
    have hothers := ascends_statements (w.statement s) others
    rw [variableSitesAll, siteIds_append]
    exact hfirst.append hothers

end

theorem ascends_functionBody (w : Walk) (symbol : FunctionSymbol) (body : Block) :
    Ascends w.last (w.functionBody symbol body).2.last
      (siteIds ((w.body symbol body.opening).variableSitesAll body.statements)) := by
  let inside := w.body symbol body.opening
  have hinside : inside.last = w.last := declareParameters_last ..
  have hleave : (w.functionBody symbol body).2.last = (inside.statements body.statements).last :=
    leave_last _
  have hbody := inside.ascends_statements body.statements
  rw [hinside] at hbody
  rw [hleave]
  exact hbody

theorem ascends_globalStatement (w : Walk) (s : Statement) :
    Ascends w.last (w.globalStatement s).last (siteIds (w.enter.variableSites s)) := by
  have hbody := w.enter.ascends_statement s
  change Ascends w.last (w.enter.statement s).leave.last _
  rw [leave_last]
  exact hbody

/-- The local variables of a program have different numbers, in the order of their sites. -/
theorem ascends_bodyVariables (w : Walk) (members : List Member) (symbols : List FunctionSymbol) :
    Ascends w.last (w.bindMembers members symbols).2.last
      (siteIds (w.bodyVariables members symbols)) := by
  induction members generalizing w symbols with
  | nil => exact ascends_nil le_rfl
  | cons member others ih =>
    cases member with
    | function f =>
      cases symbols with
      | nil => exact ih w []
      | cons symbol symbols =>
        rw [bodyVariables, siteIds_append]
        exact (w.ascends_functionBody symbol f.body).append (ih _ symbols)
    | statement s =>
      have hstatement := (w.ascends_globalStatement s).append (ih (w.globalStatement s) symbols)
      rw [← siteIds_append] at hstatement
      cases s with
      | declaration d =>
        have hothers := ih (w.optionalExpression d.value) symbols
        rw [optionalExpression_last] at hothers
        exact hothers
      | _ => exact hstatement
    | _ => exact ih w symbols

/-! ### Parameters -/

/-- The numbers of the parameters of functions. -/
def parameterIds (symbols : List FunctionSymbol) : List Nat :=
  symbols.flatMap fun symbol => symbol.parameters.map Variable.id

theorem ascends_parameters (w : Walk) (ps : List Parameter) :
    Ascends w.last (w.parameters ps).2.last ((w.parameters ps).1.map Variable.id) := by
  induction ps generalizing w with
  | nil => exact ascends_nil le_rfl
  | cons p others ih => exact (ascends_next w.last).append (ih (w.type p.type).2.countVariable)

theorem ascends_signature (w : Walk) (name : Ident) (ps : List Parameter)
    (returnType : Option TypeClause) (span : Span) :
    Ascends w.last (w.signature name ps returnType span).2.last
      ((w.signature name ps returnType span).1.parameters.map Variable.id) := by
  have hparameters := w.ascends_parameters ps
  cases returnType <;> exact hparameters

/-- The parameters of the functions with a body have different numbers, in their order. -/
theorem ascends_signatures (w : Walk) (members : List Member) :
    Ascends w.last (w.signatures members).2.last (parameterIds (w.signatures members).1) := by
  induction members generalizing w with
  | nil => exact ascends_nil le_rfl
  | cons member others ih =>
    cases member with
    | function f =>
      let signed := w.signature f.name f.parameters f.returnType (Member.function f).span
      let symbol : FunctionSymbol := { signed.1 with isPublic := f.visibility.isSome }
      have hsigned : Ascends w.last signed.2.last (signed.1.parameters.map Variable.id) :=
        w.ascends_signature ..
      have hothers := ih (signed.2.declare (.function symbol) f.name.span)
      rw [declare_last] at hothers
      exact hsigned.append hothers
    | external e =>
      let signed := w.signature e.name e.parameters e.returnType (Member.external e).span
      have hsigned : w.last ≤ signed.2.last := (w.signature_last ..).1
      have hothers := ih (signed.2.declare (.function signed.1.asExternal) e.name.span)
      rw [declare_last] at hothers
      exact (ascends_nil hsigned).append hothers
    | _ => exact ih w

end Walk

/-! ### What functions carry -/

/-- A symbol that a function carries is one of its parameters or the variable of one of its sites.
-/
theorem BoundFunction.Carries.mem_locals {b : BoundFunction} {d : FunctionDeclaration}
    {sites : List VariableSite} (h : b.Carries d sites) {l : Symbol} (hl : l ∈ b.locals) :
    (∃ v ∈ b.symbol.parameters, l = .parameter v) ∨
      ∃ site ∈ sites, l = .localVariable site.symbol := by
  obtain ⟨regions, -, hentries, kept, hkept, hlocals⟩ := h.locals
  rw [hlocals] at hl
  obtain ⟨r, hr, hlr⟩ := List.mem_flatMap.1 hl
  obtain ⟨made, hmade, hfirsts⟩ := exists_mem_of_forall₂ hkept hr
  obtain ⟨m, hm, rfl⟩ := List.mem_map.1 (hfirsts.perm.mem_iff.1 hlr)
  have hflat : m ∈ regions.flatten :=
    List.mem_flatten.2 ⟨made, hmade, (sift_sublist _ _ _).subset hm⟩
  rcases List.mem_append.1 (hentries.mem_iff.1 (List.mem_map_of_mem hflat)) with hmem | hmem
  · obtain ⟨⟨p, v⟩, hpair, hentry⟩ := List.mem_map.1 hmem
    exact .inl ⟨v, (List.of_mem_zip hpair).2, (congrArg Prod.snd hentry).symm⟩
  · obtain ⟨site, hsite, hentry⟩ := List.mem_map.1 hmem
    exact .inr ⟨site, hsite, (congrArg Prod.snd hentry).symm⟩

/-- What holds of all pairs in one list holds of those in a related one. -/
theorem pairwise_of_forall₂ {α β : Type} {R : α → β → Prop} {S : α → α → Prop}
    {T : β → β → Prop} {as : List α} {bs : List β} (h : List.Forall₂ R as bs)
    (has : as.Pairwise S) (hT : ∀ {a a' b b'}, R a b → R a' b' → S a a' → T b b') :
    bs.Pairwise T := by
  induction h with
  | nil => exact .nil
  | cons hab hrest ih =>
    obtain ⟨hfirst, hothers⟩ := List.pairwise_cons.1 has
    rw [List.pairwise_cons]
    refine ⟨?_, ih hothers⟩
    intro b' hb'
    obtain ⟨a', ha', hrelated⟩ := exists_mem_of_forall₂ hrest.flip hb'
    exact hT hab hrelated (hfirst a' ha')

section

variable (known : List PackageSymbol) (last : Nat) (members : List Member)

open Walk in
/-- The sites of the local variables of a program's functions, one list for each function. -/
def functionSites : List (List VariableSite) :=
  (declaring known last members).functionVariables members
    ((structsDeclared known last members).signatures members).1

theorem map_functionSites :
    (functionSites known last members).map (List.map VariableSite.declaration) =
      (functionDeclarations members).map fun d => Statement.declarationsAll d.body.statements :=
  Walk.map_functionVariables (Walk.signatures_sign _ members) _

/-- The sites of different functions are different sites of the program. -/
theorem functionSites_sublist :
    (functionSites known last members).flatten.Sublist (localVariableSites known last members) :=
  Walk.functionVariables_sublist _ members _

/-- The local variables of a program have different numbers. -/
theorem localVariableSites_ascend :
    (localVariableSites known last members).Pairwise (·.symbol.id < ·.symbol.id) := by
  have hascends := (Walk.declaring known last members).ascends_bodyVariables members
    ((Walk.structsDeclared known last members).signatures members).1
  exact List.pairwise_map.1 hascends.sorted

theorem functions_carry :
    List.Forall₂ (fun x b => BoundFunction.Carries b x.1 x.2)
      ((functionDeclarations members).zip (functionSites known last members))
      (bindProgram known last members).functions :=
  (Walk.bindMembers_carries (Walk.signatures_sign _ members) _).1

/-- No two functions carry the same symbol. -/
theorem functions_disjoint :
    (bindProgram known last members).functions.Pairwise fun b b' =>
      b.locals.Disjoint b'.locals := by
  let p := bindProgram known last members
  have hsites : (functionSites known last members).Pairwise fun sites sites' =>
      ∀ site ∈ sites, ∀ site' ∈ sites', site.symbol.id < site'.symbol.id :=
    (List.pairwise_flatten.1 ((localVariableSites_ascend known last members).sublist
      (functionSites_sublist known last members))).2
  have hlength : (functionSites known last members).length ≤
      (functionDeclarations members).length := by
    have hmap := congrArg List.length (map_functionSites known last members)
    rw [List.length_map, List.length_map] at hmap
    exact hmap.le
  have hzip : ((functionDeclarations members).zip (functionSites known last members)).Pairwise
      fun x x' => ∀ site ∈ x.2, ∀ site' ∈ x'.2, site.symbol.id < site'.symbol.id := by
    rw [← List.map_snd_zip hlength] at hsites
    exact List.pairwise_map.1 hsites
  have hparameters : p.functions.Pairwise fun b b' =>
      ∀ v ∈ b.symbol.parameters, ∀ v' ∈ b'.symbol.parameters, v.id < v'.id := by
    have hsymbols : p.functions.map BoundFunction.symbol =
        ((Walk.structsDeclared known last members).signatures members).1 :=
      Walk.bindMembers_symbols (Walk.signatures_sign _ members) _
    have hids := ((Walk.structsDeclared known last members).ascends_signatures members).sorted
    rw [← hsymbols, Walk.parameterIds, List.flatMap_map] at hids
    refine (List.pairwise_flatMap.1 hids).2.imp ?_
    intro b b' h v hv v' hv'
    exact h v.id (List.mem_map_of_mem hv) v'.id (List.mem_map_of_mem hv')
  -- A symbol of two functions would be a parameter of both or a variable of both.
  have hcarried : p.functions.Pairwise fun b b' => ∀ l ∈ b.locals, l ∈ b'.locals →
      ∃ v, l = .parameter v ∧ v ∈ b.symbol.parameters ∧ v ∈ b'.symbol.parameters := by
    apply pairwise_of_forall₂ (functions_carry known last members) hzip
    intro x x' b b' hb hb' hlt l hl hl'
    rcases hb.mem_locals hl with ⟨v, hv, rfl⟩ | ⟨site, hsite, rfl⟩
    · rcases hb'.mem_locals hl' with ⟨v', hv', heq⟩ | ⟨site', -, heq⟩
      · obtain rfl := Symbol.parameter.inj heq
        exact ⟨v, rfl, hv, hv'⟩
      · cases heq
    · rcases hb'.mem_locals hl' with ⟨v', -, heq⟩ | ⟨site', hsite', heq⟩
      · cases heq
      · have hless := hlt site hsite site' hsite'
        rw [Symbol.localVariable.inj heq] at hless
        exact absurd hless (lt_irrefl _)
  refine (hcarried.and hparameters).imp ?_
  rintro b b' ⟨hshared, hlt⟩ l hl hl'
  obtain ⟨v, -, hv, hv'⟩ := hshared l hl hl'
  exact absurd (hlt v hv v hv') (lt_irrefl _)

end

/-- Every function with a body has an entry of its own, in the order of the members and whether it
won its name or not, with the symbol that is built from it. The entry carries the parameters of the
function and the variables that are declared in its body, in every region the first of each name and
each once; no two functions carry the same symbol, and the variables of the statements outside of
functions are others. Every parameter and every variable that is not the first of its name in its
region is found to be declared already, once, and so is nothing else but what is declared in the
program's own region and as fields. -/
theorem bindProgram_locals (known : List PackageSymbol) (last : Nat) (members : List Member) :
    let p := bindProgram known last members
    List.Forall₂ (fun d b => FunctionDeclaration.Declares d b.symbol ∧ Signs d b.symbol)
        (functionDeclarations members) p.functions ∧
      (functionSites known last members).map (List.map VariableSite.declaration) =
        (functionDeclarations members).map (fun d => Statement.declarationsAll d.body.statements) ∧
      List.Forall₂ (fun x b => BoundFunction.Carries b x.1 x.2)
        ((functionDeclarations members).zip (functionSites known last members)) p.functions ∧
      p.functions.Pairwise (fun b b' => b.locals.Disjoint b'.locals) ∧
      ((functionSites known last members).flatten.Sublist
          (localVariableSites known last members) ∧
        (localVariableSites known last members).Pairwise (·.symbol.id < ·.symbol.id)) ∧
      (p.errors.filterMap SemanticError.double?).Perm
        (programRepeats known members ++ members.flatMap Member.repeated) := by
  intro p
  have hsymbols : p.functions.map BoundFunction.symbol =
      ((Walk.structsDeclared known last members).signatures members).1 :=
    Walk.bindMembers_symbols (Walk.signatures_sign _ members) _
  have hdeclares := (Walk.structsDeclared known last members).signatures_declares members
  have hsigns := (Walk.structsDeclared known last members).signatures_sign members
  rw [← hsymbols, List.forall₂_map_right_iff] at hdeclares hsigns
  have hboth : List.Forall₂ (fun d b => FunctionDeclaration.Declares d b.symbol ∧ Signs d b.symbol)
      (functionDeclarations members) p.functions :=
    hsigns.mp (fun _ _ hs hd => ⟨hd, hs⟩) hdeclares
  exact ⟨hboth, map_functionSites known last members, functions_carry known last members,
    functions_disjoint known last members,
    ⟨functionSites_sublist known last members, localVariableSites_ascend known last members⟩,
    bindProgram_doubles known last members⟩

end TodLang
