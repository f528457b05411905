import TodLang.Proofs.Binding.Numbers
/-!
The variables that a program holds. Symbols are copied freely, into the regions of bodies, into
packages and out of them, and each copy keeps the number of its variable; a number is issued to one
variable only. So it is kept in view which variables there are at all: binding a program adds to
those that are known before it only variables with numbers of its own, one number each
(`bindProgram_grows`).
-/

namespace TodLang

/-! ### Numbers that are issued -/

/-- Variables with numbers beyond one bound and up to another, a number for each of them. -/
structure Issued (low high : Nat) (new : List Variable) : Prop where
  le : low ≤ high
  bounds : ∀ v ∈ new, low < v.id ∧ v.id ≤ high
  distinct : ∀ v ∈ new, ∀ u ∈ new, v.id = u.id → v = u

theorem issued_nil {low high : Nat} (h : low ≤ high) : Issued low high [] :=
  ⟨h, List.forall_mem_nil _, List.forall_mem_nil _⟩

theorem issued_next {low : Nat} {v : Variable} (h : v.id = low + 1) : Issued low (low + 1) [v] := by
  refine ⟨Nat.le_succ low, ?_, ?_⟩
  · intro u hu
    obtain rfl := List.mem_singleton.1 hu
    omega
  · intro u hu u' hu' _
    rw [List.mem_singleton.1 hu, List.mem_singleton.1 hu']

theorem Issued.append {low middle high : Nat} {new more : List Variable}
    (h : Issued low middle new) (h' : Issued middle high more) : Issued low high (new ++ more) := by
  refine ⟨h.le.trans h'.le, ?_, ?_⟩
  · intro v hv
    have hle := h.le
    have hle' := h'.le
    rcases List.mem_append.1 hv with hv | hv
    · have hbounds := h.bounds v hv
      omega
    · have hbounds := h'.bounds v hv
      omega
  · intro v hv u hu hid
    rcases List.mem_append.1 hv with hv | hv <;> rcases List.mem_append.1 hu with hu | hu
    · exact h.distinct v hv u hu hid
    · have hbounds := h.bounds v hv
      have hbounds' := h'.bounds u hu
      omega
    · have hbounds := h'.bounds v hv
      have hbounds' := h.bounds u hu
      omega
    · exact h'.distinct v hv u hu hid

/-- Whether a holding of variables has grown into another one by variables that numbers were issued
to meanwhile. The numbers are the last that were taken before and behind. -/
def Grows (held : List Variable) (last : Nat) (held' : List Variable) (last' : Nat) : Prop :=
  ∃ new, Issued last last' new ∧ held' ⊆ held ++ new

/-- Whether the variables of a holding are told apart by numbers that were taken. -/
structure ToldApart (held : List Variable) (last : Nat) : Prop where
  bound : ∀ v ∈ held, v.id ≤ last
  distinct : ∀ v ∈ held, ∀ u ∈ held, v.id = u.id → v = u

section

variable {held held' held'' kept : List Variable} {last last' last'' : Nat}

theorem grows_of_subset (h : held' ⊆ held) (hlast : last ≤ last') : Grows held last held' last' :=
  ⟨[], issued_nil hlast, by rwa [List.append_nil]⟩

theorem Grows.trans (h : Grows held last held' last') (h' : Grows held' last' held'' last'') :
    Grows held last held'' last'' := by
  obtain ⟨new, hnew, hheld⟩ := h
  obtain ⟨more, hmore, hheld'⟩ := h'
  refine ⟨new ++ more, hnew.append hmore, ?_⟩
  rw [← List.append_assoc]
  exact List.Subset.trans hheld' (List.append_subset.2
    ⟨List.Subset.trans hheld (List.subset_append_left _ _), List.subset_append_right _ _⟩)

theorem Grows.le (h : Grows held last held' last') : last ≤ last' := by
  obtain ⟨new, hnew, -⟩ := h
  exact hnew.le

/-- What is held besides is held on to. -/
theorem Grows.keep (h : Grows held last held' last') (kept : List Variable) :
    Grows (kept ++ held) last (kept ++ held') last' := by
  obtain ⟨new, hnew, hheld⟩ := h
  refine ⟨new, hnew, ?_⟩
  rw [List.append_assoc]
  exact List.append_subset.2
    ⟨List.subset_append_left _ _, List.Subset.trans hheld (List.subset_append_right _ _)⟩

theorem Grows.less (h : Grows held last held' last') (hless : held'' ⊆ held') :
    Grows held last held'' last' :=
  h.trans (grows_of_subset hless le_rfl)

theorem Grows.more (hmore : held ⊆ kept) (h : Grows held last held' last') :
    Grows kept last held' last' :=
  (grows_of_subset hmore le_rfl).trans h

/-- Variables that are told apart are so still once numbers were issued to others. -/
theorem ToldApart.grows (h : ToldApart held last) (hgrows : Grows held last held' last') :
    ToldApart held' last' := by
  obtain ⟨new, hnew, hheld⟩ := hgrows
  have hle := hnew.le
  constructor
  · intro v hv
    rcases List.mem_append.1 (hheld hv) with hv | hv
    · exact (h.bound v hv).trans hle
    · exact (hnew.bounds v hv).2
  · intro v hv u hu hid
    rcases List.mem_append.1 (hheld hv) with hv | hv <;>
      rcases List.mem_append.1 (hheld hu) with hu | hu
    · exact h.distinct v hv u hu hid
    · have hbound := h.bound v hv
      have hbounds := hnew.bounds u hu
      omega
    · have hbounds := hnew.bounds v hv
      have hbound := h.bound u hu
      omega
    · exact hnew.distinct v hv u hu hid

end

/-! ### What holds variables -/

def PackageSymbol.holding (p : PackageSymbol) : List Variable :=
  p.functions.flatMap FunctionSymbol.parameters

/-- The variables that a symbol is or that belong to it. -/
def Symbol.holding : Symbol → List Variable
  | .function f => f.parameters
  | .struct s => s.fields
  | .type _ => []
  | .package p => p.holding
  | .globalVariable v | .localVariable v | .parameter v => [v]

def Region.holding (r : Region) : List Variable :=
  r.symbols.flatMap Symbol.holding

def BoundFunction.holding (f : BoundFunction) : List Variable :=
  f.symbol.parameters ++ f.locals.flatMap Symbol.holding

/-- All variables that are in a program or in its functions. -/
def BoundProgram.holding (p : BoundProgram) : List Variable :=
  p.symbols.flatMap Symbol.holding ++ p.functions.flatMap BoundFunction.holding

/-- All variables that a walk can still come upon. -/
def Walk.holding (w : Walk) : List Variable :=
  w.scope.regions.flatMap Region.holding ++ w.closed.flatMap Symbol.holding

namespace Region

theorem holding_declare? {r declaring : Region} {s : Symbol} (h : r.declare? s = some declaring) :
    declaring.holding ⊆ s.holding ++ r.holding := by
  intro v hv
  obtain ⟨t, ht, hv⟩ := List.mem_flatMap.1 hv
  rcases mem_of_declare? h ht with rfl | ht
  · exact List.mem_append_left _ hv
  · exact List.mem_append_right _ (List.mem_flatMap.2 ⟨t, ht, hv⟩)

theorem holding_setFields (r : Region) (name : String) (fields : List Variable) :
    (r.setFields name fields).holding ⊆ fields ++ r.holding := by
  intro v hv
  obtain ⟨t, ht, hv⟩ := List.mem_flatMap.1 hv
  obtain ⟨s, hs, rfl⟩ := List.mem_map.1 ht
  have hkept (hv : v ∈ s.holding) : v ∈ fields ++ r.holding :=
    List.mem_append_right _ (List.mem_flatMap.2 ⟨s, hs, hv⟩)
  cases s with
  | struct s =>
    dsimp only at hv
    split at hv
    · exact List.mem_append_left _ hv
    · exact hkept hv
  | _ => exact hkept hv

end Region

/-- A package that a name stands for is in one of the regions. -/
theorem Scope.holding_lookupPackage? {s : Scope} {name : String} {p : PackageSymbol}
    (h : s.lookupPackage? name = some p) : p.holding ⊆ s.regions.flatMap Region.holding := by
  obtain ⟨symbol, hsymbol, hp⟩ := Option.bind_eq_some_iff.1 h
  obtain ⟨r, hr, hlookup⟩ := List.exists_of_findSome?_eq_some hsymbol
  have hmem : symbol ∈ r.symbols := List.mem_of_find?_eq_some hlookup
  cases symbol with
  | package q =>
    obtain rfl := Option.some.inj hp
    intro v hv
    exact List.mem_flatMap.2 ⟨r, hr, List.mem_flatMap.2 ⟨_, hmem, hv⟩⟩
  | _ => cases hp

namespace Walk

/-! ### Steps -/

/-- What a walk holds grows from one walk to another. -/
def Accrues (w w' : Walk) : Prop :=
  Grows w.holding w.last w'.holding w'.last

theorem Accrues.refl (w : Walk) : w.Accrues w :=
  grows_of_subset (List.Subset.refl _) le_rfl

theorem Accrues.trans {w₁ w₂ w₃ : Walk} (h : w₁.Accrues w₂) (h' : w₂.Accrues w₃) : w₁.Accrues w₃ :=
  Grows.trans h h'

section

variable (w : Walk)

theorem holding_declare (symbol : Symbol) (span : Span) :
    (w.declare symbol span).holding ⊆ symbol.holding ++ w.holding := by
  unfold declare
  cases hdeclare : w.scope.declare? symbol with
  | none => exact List.subset_append_right symbol.holding w.holding
  | some scope =>
    obtain ⟨inner, hinner, rfl⟩ := Option.map_eq_some_iff.1 hdeclare
    have hholding := Region.holding_declare? hinner
    intro v hv
    simp only [holding, Scope.regions, List.flatMap_cons, List.mem_append] at hv ⊢
    rcases hv with (hv | hv) | hv
    · rcases List.mem_append.1 (hholding hv) with hv | hv
      · exact .inl hv
      · exact .inr (.inl (.inl hv))
    · exact .inr (.inl (.inr hv))
    · exact .inr (.inr hv)

/-- A symbol is declared whose variables are held. -/
theorem grows_declare {symbol : Symbol} {held : List Variable} (hsymbol : symbol.holding ⊆ held)
    (hheld : w.holding ⊆ held) (span : Span) :
    Grows held w.last (w.declare symbol span).holding (w.declare symbol span).last := by
  apply grows_of_subset
  · exact List.Subset.trans (w.holding_declare symbol span) (List.append_subset.2 ⟨hsymbol, hheld⟩)
  · exact (w.declare_last symbol span).ge

theorem accrues_declare {symbol : Symbol} (h : symbol.holding ⊆ w.holding) (span : Span) :
    w.Accrues (w.declare symbol span) :=
  w.grows_declare h (List.Subset.refl _) span

theorem holding_leave : w.leave.holding ⊆ w.holding := by
  unfold leave
  cases houter : w.scope.outer with
  | nil => exact List.Subset.refl _
  | cons next others =>
    intro v hv
    simp only [holding, Scope.regions, houter, List.flatMap_cons, List.flatMap_append,
      List.mem_append] at hv ⊢
    rcases hv with (hv | hv) | hv | hv
    · exact .inl (.inr (.inl hv))
    · exact .inl (.inr (.inr hv))
    · exact .inr hv
    · exact .inl (.inl hv)

/-- A walk holds what it held if it only reports or counts. -/
theorem accrues_of_eq {w w' : Walk} (hscope : w'.scope = w.scope) (hclosed : w'.closed = w.closed)
    (hlast : w.last ≤ w'.last) : w.Accrues w' := by
  apply grows_of_subset _ hlast
  rw [holding, hscope, hclosed]
  exact List.Subset.refl _

theorem declaredType_closed (d : VariableDeclaration) :
    (w.declaredType d).2.closed = w.closed := by
  unfold declaredType
  cases d.type <;> cases d.value <;> rfl

/-- A variable gets a number that no other variable has. -/
theorem accrues_declareVariable {make : Variable → Symbol} (hmake : ∀ v, (make v).holding = [v])
    (d : VariableDeclaration) : w.Accrues (w.declareVariable make d) := by
  let typed := (w.declaredType d).2
  let v := w.declaredVariable d
  have htyped : w.Accrues typed :=
    accrues_of_eq (w.declaredType_scope d) (w.declaredType_closed d) (w.declaredType_last d).ge
  have hissued : Issued typed.last (typed.last + 1) [v] := issued_next rfl
  have hcount : Grows typed.holding typed.last ([v] ++ typed.holding) (typed.last + 1) :=
    ⟨[v], hissued, List.append_subset.2
      ⟨List.subset_append_right _ _, List.subset_append_left _ _⟩⟩
  have hmade : (make v).holding ⊆ [v] ++ typed.holding := by
    rw [hmake]
    exact List.subset_append_left _ _
  have hdeclare := typed.countVariable.grows_declare hmade
    (List.subset_append_right [v] typed.holding) d.name.span
  exact htyped.trans (hcount.trans hdeclare)

theorem accrues_optionalExpression (value : Option Expression) :
    w.Accrues (w.optionalExpression value) := by
  cases value with
  | none => exact .refl w
  | some e => exact accrues_of_eq rfl rfl le_rfl

theorem accrues_expression (e : Expression) : w.Accrues (w.expression e) :=
  accrues_of_eq rfl rfl le_rfl

theorem accrues_localVariable (d : VariableDeclaration) : w.Accrues (w.localVariable d) :=
  (w.accrues_optionalExpression d.value).trans (accrues_declareVariable _ (fun _ => rfl) d)

end

theorem accrues_foldl {α : Type} {step : Walk → α → Walk} (hstep : ∀ w x, Accrues w (step w x))
    (w : Walk) (l : List α) : w.Accrues (l.foldl step w) := by
  induction l generalizing w with
  | nil => exact .refl w
  | cons x others ih => exact (hstep w x).trans (ih (step w x))

/-- What is held in a region is held around it once the region is left. -/
theorem Accrues.inside {w w' : Walk} (h : w.enter.Accrues w') : w.Accrues w'.leave :=
  Grows.trans h (grows_of_subset w'.holding_leave w'.leave_last.ge)

mutual

theorem accrues_statement (w : Walk) (s : Statement) : w.Accrues (w.statement s) := by
  cases s with
  | block opening statements closing => exact (accrues_statements w.enter statements).inside
  | declaration d => exact w.accrues_localVariable d
  | ifThen keyword condition body =>
    have hbody := accrues_statement (w.expression condition).enter body
    exact (w.accrues_expression condition).trans hbody.inside
  | ifElse keyword condition body elseKeyword alternative =>
    have hbody := accrues_statement (w.expression condition).enter body
    have halternative :=
      accrues_statement ((w.expression condition).enter.statement body).leave.enter alternative
    exact ((w.accrues_expression condition).trans hbody.inside).trans halternative.inside
  | «return» keyword value => exact w.accrues_optionalExpression value
  | «for» keyword init condition step body =>
    let head := w.enter.localVariable init
    have hinit := w.enter.accrues_localVariable init
    have hstep := accrues_statement (head.expression condition) step
    have hbody := accrues_statement ((head.expression condition).statement step).enter body
    have hhead := (hinit.trans (head.accrues_expression condition)).trans hstep
    exact (hhead.trans hbody.inside).inside
  | «while» keyword condition body =>
    have hbody := accrues_statement (w.expression condition).enter body
    exact (w.accrues_expression condition).trans hbody.inside
  | «break» keyword => exact .refl w
  | «continue» keyword => exact .refl w
  | expression e => exact w.accrues_expression e

theorem accrues_statements (w : Walk) (statements : List Statement) :
    w.Accrues (w.statements statements) := by
  cases statements with
  | nil => exact .refl w
  | cons s others =>
    have hfirst := accrues_statement w s
    have hothers := accrues_statements (w.statement s) others
    exact hfirst.trans hothers

end

/-! ### Declaring the members -/

/-- Symbols are declared one after another whose variables are held. -/
theorem holding_foldl_declare {α : Type} (symbol : α → Symbol) (span : α → Span)
    {held : List Variable} {l : List α} (hl : ∀ a ∈ l, (symbol a).holding ⊆ held) {w : Walk}
    (hw : w.holding ⊆ held) :
    (l.foldl (fun w a => w.declare (symbol a) (span a)) w).holding ⊆ held ∧
      (l.foldl (fun w a => w.declare (symbol a) (span a)) w).last = w.last := by
  induction l generalizing w with
  | nil => exact ⟨hw, rfl⟩
  | cons a others ih =>
    rw [List.forall_mem_cons] at hl
    have hfirst : (w.declare (symbol a) (span a)).holding ⊆ held :=
      List.Subset.trans (w.holding_declare _ _) (List.append_subset.2 ⟨hl.1, hw⟩)
    obtain ⟨hothers, hlast⟩ := ih hl.2 hfirst
    exact ⟨hothers, hlast.trans (w.declare_last _ _)⟩

/-- What is known of packages is declared with them. -/
theorem grows_packageReferences (known : List PackageSymbol) (w : Walk)
    (references : List (Span × Ident)) :
    Grows (known.flatMap PackageSymbol.holding ++ w.holding) w.last
      (known.flatMap PackageSymbol.holding ++
        (references.foldl (fun w r => w.packageReference known r.1 r.2) w).holding)
      (references.foldl (fun w r => w.packageReference known r.1 r.2) w).last := by
  let symbol (r : Span × Ident) : Symbol :=
    .package { (known.reverse.find? (·.name == r.2.name)).getD { name := r.2.name } with
      declaration := some r.1 }
  have hsymbol : ∀ r ∈ references,
      (symbol r).holding ⊆ known.flatMap PackageSymbol.holding ++ w.holding := by
    intro r _ v hv
    dsimp only [symbol] at hv
    cases hfind : known.reverse.find? (·.name == r.2.name) with
    | none =>
      rw [hfind] at hv
      cases hv
    | some p =>
      rw [hfind] at hv
      have hp : p ∈ known := List.mem_reverse.1 (List.mem_of_find?_eq_some hfind)
      exact List.mem_append_left _ (List.mem_flatMap.2 ⟨p, hp, hv⟩)
  obtain ⟨hheld, hlast⟩ := holding_foldl_declare symbol (fun r => r.2.span) hsymbol
    (List.subset_append_right (known.flatMap PackageSymbol.holding) w.holding)
  exact grows_of_subset (List.append_subset.2 ⟨List.subset_append_left _ _, hheld⟩) hlast.ge

theorem accrues_packageUse (w : Walk) (name : Ident) : w.Accrues (w.packageUse name) := by
  unfold packageUse
  cases hpackage : w.scope.lookupPackage? name.name with
  | none => exact accrues_of_eq rfl rfl le_rfl
  | some package =>
    have hpackages : package.holding ⊆ w.holding :=
      List.Subset.trans (Scope.holding_lookupPackage? hpackage) (List.subset_append_left _ _)
    have hfunctions : ∀ f ∈ package.functions, (Symbol.function f).holding ⊆ w.holding := by
      intro f hf v hv
      exact hpackages (List.mem_flatMap.2 ⟨f, hf, hv⟩)
    obtain ⟨hheld, hlast⟩ := holding_foldl_declare Symbol.function (fun _ => name.span) hfunctions
      (List.Subset.refl (w.report [.resolved name package.fingerprint]).holding)
    exact grows_of_subset hheld hlast.ge

theorem accrues_structNames (w : Walk) (ds : List StructDeclaration) :
    w.Accrues (w.structNames ds).2 := by
  induction ds generalizing w with
  | nil => exact .refl w
  | cons d others ih =>
    exact (w.accrues_declare (List.nil_subset _) d.name.span).trans (ih (w.structName d).2)

/-- The fields of a structure get numbers one after another. -/
theorem grows_fields (w : Walk) (known : List Variable) (ps : List Parameter) :
    Grows (known ++ w.holding) w.last ((w.fields known ps).1 ++ (w.fields known ps).2.holding)
      (w.fields known ps).2.last := by
  induction ps generalizing w known with
  | nil => exact grows_of_subset (List.Subset.refl _) le_rfl
  | cons field others ih =>
    unfold fields
    dsimp only
    split
    · exact ih ((w.type field.type).2.report _) known
    · let typed := (w.type field.type).2
      let v := typed.newVariable field.name false (w.type field.type).1
      have hissued : Issued w.last (w.last + 1) [v] := issued_next rfl
      have hnext :
          Grows (known ++ w.holding) w.last ((known ++ [v]) ++ w.holding) (w.last + 1) := by
        refine ⟨[v], hissued, ?_⟩
        intro u hu
        simp only [List.mem_append] at hu ⊢
        tauto
      exact hnext.trans (ih typed.countVariable (known ++ [v]))

theorem accrues_structFields (w : Walk) (d : StructDeclaration) : w.Accrues (w.structFields d) := by
  have hfields := w.grows_fields [] d.fields
  rw [List.nil_append] at hfields
  apply hfields.less
  intro v hv
  rcases List.mem_append.1 hv with hv | hv
  · rw [Scope.regions, List.flatMap_cons] at hv
    rcases List.mem_append.1 hv with hv | hv
    · have hset := Region.holding_setFields _ _ _ hv
      simp only [holding, Scope.regions, List.flatMap_cons, List.mem_append] at hset ⊢
      tauto
    · simp only [holding, Scope.regions, List.flatMap_cons, List.mem_append]
      exact .inr (.inl (.inr hv))
  · exact List.mem_append_right _ (List.mem_append_right _ hv)

/-- The parameters of a function get numbers one after another. -/
theorem grows_parameters (w : Walk) (ps : List Parameter) :
    Grows w.holding w.last ((w.parameters ps).1 ++ (w.parameters ps).2.holding)
      (w.parameters ps).2.last := by
  induction ps generalizing w with
  | nil => exact grows_of_subset (List.Subset.refl _) le_rfl
  | cons p others ih =>
    let typed := (w.type p.type).2
    let v := typed.newVariable p.name false (w.type p.type).1
    have hissued : Issued w.last (w.last + 1) [v] := issued_next rfl
    have hnext : Grows w.holding w.last ([v] ++ w.holding) (w.last + 1) :=
      ⟨[v], hissued, List.append_subset.2
        ⟨List.subset_append_right _ _, List.subset_append_left _ _⟩⟩
    exact hnext.trans ((ih typed.countVariable).keep [v])

theorem grows_signature (w : Walk) (name : Ident) (ps : List Parameter)
    (returnType : Option TypeClause) (span : Span) :
    Grows w.holding w.last ((w.signature name ps returnType span).1.parameters ++
        (w.signature name ps returnType span).2.holding)
      (w.signature name ps returnType span).2.last := by
  have hparameters := w.grows_parameters ps
  cases returnType <;> exact hparameters

/-- A function is declared whose signature was read. -/
theorem grows_declareFunction {w : Walk} {parameters : List Variable} {signed : Walk}
    (h : Grows w.holding w.last (parameters ++ signed.holding) signed.last) {f : FunctionSymbol}
    (hf : f.parameters = parameters) (span : Span) :
    Grows w.holding w.last (parameters ++ (signed.declare (.function f) span).holding)
      (signed.declare (.function f) span).last := by
  apply h.trans
  have hsymbol : (Symbol.function f).holding ⊆ parameters ++ signed.holding := by
    rw [← hf]
    exact List.subset_append_left _ _
  have hdeclare := signed.grows_declare hsymbol (List.subset_append_right _ _) span
  apply grows_of_subset _ hdeclare.le
  exact List.append_subset.2 ⟨List.subset_append_left _ _,
    List.Subset.trans (signed.holding_declare _ span)
      (List.append_subset.2 ⟨hsymbol, List.subset_append_right _ _⟩)⟩

theorem grows_signatures (w : Walk) (members : List Member) :
    Grows w.holding w.last
      ((w.signatures members).1.flatMap FunctionSymbol.parameters ++
        (w.signatures members).2.holding)
      (w.signatures members).2.last := by
  induction members generalizing w with
  | nil => exact grows_of_subset (List.Subset.refl _) le_rfl
  | cons member others ih =>
    cases member with
    | function f =>
      let signed := w.signature f.name f.parameters f.returnType (Member.function f).span
      let symbol := { signed.1 with isPublic := f.visibility.isSome }
      have hfirst := grows_declareFunction (w.grows_signature f.name f.parameters f.returnType
        (Member.function f).span) (f := symbol) rfl f.name.span
      have hothers := ih (signed.2.declare (.function symbol) f.name.span)
      have hall := hfirst.trans (hothers.keep signed.1.parameters)
      rw [← List.append_assoc] at hall
      exact hall
    | external e =>
      let signed := w.signature e.name e.parameters e.returnType (Member.external e).span
      have hfirst := grows_declareFunction (w.grows_signature e.name e.parameters e.returnType
        (Member.external e).span) (f := signed.1.asExternal) rfl e.name.span
      exact (hfirst.less (List.subset_append_right _ _)).trans
        (ih (signed.2.declare (.function signed.1.asExternal) e.name.span))
    | _ => exact ih w

/-! ### Binding the members -/

/-- The parameters of a function are declared in its body, and nothing of it is lost. -/
theorem grows_functionBody (w : Walk) (symbol : FunctionSymbol) (body : Block) :
    Grows (symbol.parameters ++ w.holding) w.last
      ((w.functionBody symbol body).1.holding ++ (w.functionBody symbol body).2.holding)
      (w.functionBody symbol body).2.last := by
  let start := w.body symbol body.opening
  let inside := start.statements body.statements
  have hclosed :
      ({ w with closed := [] } : Walk).enter.holding ⊆ symbol.parameters ++ w.holding := by
    intro v hv
    simp only [holding, enter, Scope.enter, Scope.regions, List.flatMap_nil, List.append_nil] at hv
    exact List.mem_append_right _ (List.mem_append_left _ hv)
  have hparameters : ∀ p ∈ symbol.parameters,
      (Symbol.parameter p).holding ⊆ symbol.parameters ++ w.holding := by
    intro p hp v hv
    obtain rfl := List.mem_singleton.1 hv
    exact List.mem_append_left _ hp
  obtain ⟨hstart, hlast⟩ := holding_foldl_declare Symbol.parameter
    (fun p => p.declaration.getD body.opening) hparameters hclosed
  have hbegun : Grows (symbol.parameters ++ w.holding) w.last (symbol.parameters ++ start.holding)
      start.last :=
    grows_of_subset (List.append_subset.2 ⟨List.subset_append_left _ _, hstart⟩) hlast.ge
  have hinside := hbegun.trans ((accrues_statements start body.statements).keep symbol.parameters)
  apply hinside.trans
  apply grows_of_subset _ inside.leave_last.ge
  intro v hv
  rcases List.mem_append.1 hv with hv | hv
  · rcases List.mem_append.1 hv with hv | hv
    · exact List.mem_append_left _ hv
    · apply List.mem_append_right
      change v ∈ (inside.scope.inner.symbols ++ inside.closed).flatMap Symbol.holding at hv
      rw [List.flatMap_append] at hv
      simp only [holding, Scope.regions, Region.holding, List.flatMap_cons, List.mem_append] at hv ⊢
      tauto
  · apply List.mem_append_right
    change v ∈ ({ inside.leave with closed := [] } : Walk).holding at hv
    apply inside.holding_leave
    simp only [holding, List.flatMap_nil, List.append_nil] at hv
    exact List.mem_append_left _ hv

theorem accrues_globalStatement (w : Walk) (s : Statement) : w.Accrues (w.globalStatement s) := by
  have hinside := (accrues_statement w.enter s).inside
  apply hinside.trans
  apply grows_of_subset _ le_rfl
  intro v hv
  simp only [globalStatement, holding, List.flatMap_nil, List.append_nil] at hv
  exact List.mem_append_left _ hv

theorem grows_bindMembers (w : Walk) (members : List Member) (symbols : List FunctionSymbol) :
    Grows (symbols.flatMap FunctionSymbol.parameters ++ w.holding) w.last
      ((w.bindMembers members symbols).1.flatMap BoundFunction.holding ++
        (w.bindMembers members symbols).2.holding)
      (w.bindMembers members symbols).2.last := by
  induction members generalizing w symbols with
  | nil => exact grows_of_subset (List.subset_append_right _ _) le_rfl
  | cons member others ih =>
    have hstep {w' : Walk} (h : w.Accrues w') := (h.keep (symbols.flatMap
      FunctionSymbol.parameters)).trans (ih w' symbols)
    cases member with
    | function f =>
      cases symbols with
      | nil => exact ih w []
      | cons symbol symbols =>
        let parameters := symbols.flatMap FunctionSymbol.parameters
        let bound := w.functionBody symbol f.body
        have hbody := (w.grows_functionBody symbol f.body).keep parameters
        have hothers := (ih bound.2 symbols).keep bound.1.holding
        have hfirst : Grows ((symbol :: symbols).flatMap FunctionSymbol.parameters ++ w.holding)
            w.last (bound.1.holding ++ (parameters ++ bound.2.holding)) bound.2.last := by
          refine (hbody.less ?_).more ?_
          · intro v hv
            simp only [List.mem_append] at hv ⊢
            tauto
          · intro v hv
            simp only [parameters, List.flatMap_cons, List.mem_append] at hv ⊢
            tauto
        have hall := hfirst.trans hothers
        rw [← List.append_assoc] at hall
        exact hall
    | statement s =>
      cases s with
      | declaration d => exact hstep (w.accrues_optionalExpression d.value)
      | _ => exact hstep (w.accrues_globalStatement _)
    | _ => exact ih w symbols

/-! ### The whole program -/

/-- What a program begins with holds only parameters. -/
theorem holding_prelude (last : Nat) :
    (prelude last).holding ⊆ (preludeFunctions last).flatMap FunctionSymbol.parameters := by
  intro v hv
  obtain ⟨symbol, hsymbol, hv⟩ := List.mem_flatMap.1 hv
  rcases mem_prelude hsymbol with ⟨name, -, rfl⟩ | ⟨f, hf, rfl⟩
  · cases hv
  · exact List.mem_flatMap.2 ⟨f, hf, hv⟩

/-- The parameters of the functions that every program has get numbers, too. -/
theorem grows_beginning (last : Nat) :
    Grows [] last (beginning last).holding (beginning last).last := by
  let start := last + typeFunctionIds
  let text := builtinParameter (start + 1) "text" "string"
  let value := builtinParameter (start + 2) "value" "any"
  have hskip : Issued last start [] := issued_nil (Nat.le_add_right _ _)
  have htext : Issued start (start + 1) [text] := issued_next rfl
  have hvalue : Issued (start + 1) (start + 2) [value] := issued_next rfl
  refine ⟨[text, value], (hskip.append htext).append hvalue, ?_⟩
  have hholding : (beginning last).holding = (prelude start).holding := by
    have hempty : Region.empty.holding = [] := rfl
    simp only [holding, beginning, start, Scope.enter, Scope.root, Scope.regions, hempty,
      List.flatMap_cons, List.flatMap_nil, List.append_nil, List.nil_append]
  rw [hholding]
  exact holding_prelude start

section

variable (known : List PackageSymbol) (last : Nat) (members : List Member)

theorem grows_structsDeclared :
    Grows (known.flatMap PackageSymbol.holding) last
      (known.flatMap PackageSymbol.holding ++ (structsDeclared known last members).holding)
      (structsDeclared known last members).last := by
  have hbegin := (grows_beginning last).keep (known.flatMap PackageSymbol.holding)
  rw [List.append_nil] at hbegin
  have hpackages := grows_packageReferences known (beginning last) (packageReferences members)
  have huses : (packagesDeclared known last members).Accrues (usesDeclared known last members) :=
    accrues_foldl accrues_packageUse _ _
  have hnames : (usesDeclared known last members).Accrues (structsNamed known last members).2 :=
    accrues_structNames _ _
  have hfields : (structsNamed known last members).2.Accrues (structsDeclared known last members) :=
    accrues_foldl accrues_structFields _ _
  exact (hbegin.trans hpackages).trans (((huses.trans hnames).trans hfields).keep _)

end

end Walk

open Walk in
/-- Binding a program adds variables to those that are known, each with a number of its own. -/
theorem bindProgram_grows (known : List PackageSymbol) (last : Nat) (members : List Member) :
    Grows (known.flatMap PackageSymbol.holding) last
      (known.flatMap PackageSymbol.holding ++ (bindProgram known last members).holding)
      (bindProgram known last members).last := by
  let signed := (structsDeclared known last members).signatures members
  let declared := declaring known last members
  let bound := declared.bindMembers members signed.1
  let parameters := signed.1.flatMap FunctionSymbol.parameters
  have hsigned : Grows (structsDeclared known last members).holding
      (structsDeclared known last members).last (parameters ++ signed.2.holding) signed.2.last :=
    grows_signatures _ members
  have hglobals : signed.2.Accrues declared :=
    accrues_foldl (fun w d => w.accrues_declareVariable (fun _ => rfl) d) _ _
  have hbound : Grows (parameters ++ declared.holding) declared.last
      (bound.1.flatMap BoundFunction.holding ++ bound.2.holding) bound.2.last :=
    grows_bindMembers declared members signed.1
  have hmembers := (hsigned.trans (hglobals.keep parameters)).trans hbound
  have hall := (grows_structsDeclared known last members).trans (hmembers.keep _)
  apply hall.less
  intro v hv
  have hprogram : (bindProgram known last members).holding =
      bound.2.scope.inner.symbols.flatMap Symbol.holding ++
        bound.1.flatMap BoundFunction.holding := rfl
  simp only [hprogram, holding, Scope.regions, Region.holding, List.flatMap_cons,
    List.mem_append] at hv ⊢
  tauto

end TodLang
