import TodLang.Proofs.Binding.Alike
/-!
The members of a program as steps of a walk. The fields of a structure (`Walk.giveFields`), the
signature of a function (`Walk.sign`) and the bodies and statements (`Walk.bindSigned`) are bound in
one scope each, so they are steps. What is declared meanwhile can as well be declared at the end:
for fields `foldl_structFields`, for functions `signatures_within`.
-/

namespace TodLang

/-- A member and the symbol of the function that it declares, if it declares one. -/
structure SignedMember where
  member : Member
  symbol : Option FunctionSymbol

namespace SignedMember

def renumber (σ : Nat → Nat) (x : SignedMember) : SignedMember :=
  { x with symbol := x.symbol.map (FunctionSymbol.renumber σ) }

theorem renumber_comp (σ τ : Nat → Nat) (x : SignedMember) :
    (x.renumber σ).renumber τ = x.renumber (τ ∘ σ) := by
  obtain ⟨member, symbol⟩ := x
  cases symbol with
  | none => rfl
  | some f => exact congrArg (fun f => SignedMember.mk member (some f)) (f.renumber_comp σ τ)

/-- The function that a member declares. -/
def declared? (x : SignedMember) : Option Symbol :=
  x.symbol.map .function

/-- The symbol of a function with a body. -/
def bodySymbol? (x : SignedMember) : Option FunctionSymbol :=
  match x.member with
  | .function _ => x.symbol
  | _ => none

theorem map_declared? (σ : Nat → Nat) (xs : List SignedMember) :
    (xs.map (renumber σ)).filterMap declared? =
      (xs.filterMap declared?).map (Symbol.renumber σ) := by
  rw [List.filterMap_map, List.map_filterMap]
  apply List.filterMap_congr
  rintro ⟨member, symbol⟩ -
  cases symbol <;> rfl

end SignedMember

namespace Walk

/-! ### Regions that are left again -/

/-- A region that is left leads back to the scope around it. -/
theorem leave_scope {w w' : Walk} (h : w'.scope.outer = w.enter.scope.outer) :
    w'.leave.scope = w.scope := by
  unfold leave
  rw [h]
  rfl

theorem localVariable_outer (w : Walk) (d : VariableDeclaration) :
    (w.localVariable d).scope.outer = w.scope.outer := by
  have hvalue := congrArg Scope.outer (w.optionalExpression_scope d.value)
  exact (declareVariable_outer ..).trans hvalue

mutual

/-- A statement leaves what is around the innermost region as it is. -/
theorem statement_outer (w : Walk) (s : Statement) :
    (w.statement s).scope.outer = w.scope.outer := by
  cases s with
  | block opening statements closing =>
    exact congrArg Scope.outer (leave_scope (statements_outer w.enter statements))
  | declaration d => exact w.localVariable_outer d
  | ifThen keyword condition body | «while» keyword condition body =>
    exact congrArg Scope.outer (leave_scope (statement_outer (w.expression condition).enter body))
  | ifElse keyword condition body elseKeyword alternative =>
    let after := ((w.expression condition).enter.statement body).leave
    have hbody : after.scope.outer = w.scope.outer :=
      congrArg Scope.outer (leave_scope (statement_outer (w.expression condition).enter body))
    have halternative := leave_scope (statement_outer after.enter alternative)
    exact (congrArg Scope.outer halternative).trans hbody
  | «return» keyword value => exact congrArg Scope.outer (w.optionalExpression_scope value)
  | «for» keyword init condition step body =>
    let head := ((w.enter.localVariable init).expression condition).statement step
    have hhead : head.scope.outer = w.enter.scope.outer :=
      (statement_outer _ step).trans (w.enter.localVariable_outer init)
    have hbody := congrArg Scope.outer (leave_scope (statement_outer head.enter body))
    exact congrArg Scope.outer (leave_scope (hbody.trans hhead))
  | «break» keyword => rfl
  | «continue» keyword => rfl
  | expression e => rfl

theorem statements_outer (w : Walk) (statements : List Statement) :
    (w.statements statements).scope.outer = w.scope.outer := by
  cases statements with
  | nil => rfl
  | cons s others => exact (statements_outer _ others).trans (statement_outer w s)

end

theorem functionBody_scope (w : Walk) (symbol : FunctionSymbol) (body : Block) :
    (w.functionBody symbol body).2.scope = w.scope := by
  have hparameters := foldl_outer
    (fun w (p : Variable) => declare_outer w (.parameter p) (p.declaration.getD body.opening))
    symbol.parameters { w with closed := [] }.enter
  exact leave_scope ((statements_outer _ body.statements).trans hparameters)

theorem globalStatement_scope (w : Walk) (s : Statement) :
    (w.globalStatement s).scope = w.scope :=
  leave_scope (statement_outer w.enter s)

theorem declareParameters_last (w : Walk) (opening : Span) (parameters : List Variable) :
    (w.declareParameters opening parameters).last = w.last := by
  induction parameters generalizing w with
  | nil => rfl
  | cons p others ih => exact (ih _).trans (declare_last ..)

theorem functionBody_last (w : Walk) (symbol : FunctionSymbol) (body : Block) :
    w.last ≤ (w.functionBody symbol body).2.last := by
  let inside := { w with closed := [] }.enter.declareParameters body.opening symbol.parameters
  have hinside : inside.last = w.last := declareParameters_last ..
  have hbody := (inside.continues_statements body.statements).last
  have hleave : (w.functionBody symbol body).2.last = (inside.statements body.statements).last :=
    leave_last _
  rw [hleave, ← hinside]
  exact hbody

/-! ### Fields -/

theorem fields_closed (w : Walk) (known : List Variable) (ps : List Parameter) :
    (w.fields known ps).2.closed = w.closed := by
  induction ps generalizing w known with
  | nil => rfl
  | cons field others ih =>
    unfold fields
    dsimp only
    split
    · exact ih _ _
    · exact ih _ _

/-- The fields of a structure, with its name. -/
def giveFields (d : StructDeclaration) (w : Walk) : (String × List Variable) × Walk :=
  ((d.name.name, (w.fields [] d.fields).1), (w.fields [] d.fields).2)

/-- Fields as a step. -/
def fieldsStep : Step StructDeclaration (String × List Variable) where
  run := giveFields
  renumberThing _ d := d
  renumberResult σ f := (f.1, f.2.map (Variable.renumber σ))
  scope d w := w.fields_scope [] d.fields
  functions d w := (w.adds_fields (P := fun _ => True) [] d.fields).functions
  closed d w hw := (w.fields_closed [] d.fields).trans hw
  last d w := w.fields_last [] d.fields
  shows := by
    intro m w w' h d hbound
    obtain ⟨hfields, hw⟩ := h.fields [] d.fields hbound
    exact ⟨congrArg (Prod.mk d.name.name) hfields, hw⟩
  comp := by
    intro σ τ f
    rw [List.map_map]
    rfl

/-- Structures that get their fields one after another can get them at the end. -/
theorem foldl_structFields {w : Walk} {s : Scope} (h : ∀ names, w.scope.Alike s names)
    (ds : List StructDeclaration) :
    ds.foldl structFields (w.within s) =
      (fieldsStep.all.run ds w).2.within (s.setAll (fieldsStep.all.run ds w).1) := by
  induction ds generalizing w s with
  | nil => rfl
  | cons d others ih =>
    let next := (giveFields d w).2
    let fields := (giveFields d w).1
    have hfields := fields_within (h (w.scope.soughtParameters d.fields)) []
    have hstep : (w.within s).structFields d = next.within (s.setAll [fields]) := by
      unfold structFields
      rw [hfields]
      rfl
    have hnext : ∀ names, next.scope.Alike (s.setAll [fields]) names := by
      intro names
      have hscope : next.scope = w.scope := w.fields_scope [] d.fields
      rw [hscope]
      exact (h names).trans (Scope.alike_setAll s fields.1 fields.2 names)
    rw [List.foldl_cons, hstep, ih hnext]
    rfl

theorem map_fieldsStep (ds : List StructDeclaration) (w : Walk) :
    (fieldsStep.all.run ds w).1.map Prod.fst = ds.map (·.name.name) := by
  induction ds generalizing w with
  | nil => rfl
  | cons d others ih => exact congrArg (d.name.name :: ·) (ih _)

/-! ### Signatures -/

theorem parameters_closed (w : Walk) (ps : List Parameter) :
    (w.parameters ps).2.closed = w.closed := by
  induction ps generalizing w with
  | nil => rfl
  | cons p others ih => exact ih (w.type p.type).2.countVariable

theorem signature_closed (w : Walk) (name : Ident) (ps : List Parameter)
    (returnType : Option TypeClause) (span : Span) :
    (w.signature name ps returnType span).2.closed = w.closed := by
  have hparameters := w.parameters_closed ps
  cases returnType <;> exact hparameters

/-- The symbol of a member that declares a function. -/
def sign (member : Member) (w : Walk) : SignedMember × Walk :=
  match member with
  | .function f =>
    let (symbol, w) := w.signature f.name f.parameters f.returnType member.span
    (⟨member, some { symbol with isPublic := f.visibility.isSome }⟩, w)
  | .external e =>
    let (symbol, w) := w.signature e.name e.parameters e.returnType member.span
    (⟨member, some symbol.asExternal⟩, w)
  | _ => (⟨member, none⟩, w)

/-- A member leads the walk where its signature does, if it has one. -/
theorem sign_walk (member : Member) (w : Walk) :
    (sign member w).2 = w ∨ ∃ name ps returnType span,
      (sign member w).2 = (w.signature name ps returnType span).2 := by
  cases member with
  | function f => exact .inr ⟨f.name, f.parameters, f.returnType, (Member.function f).span, rfl⟩
  | external e => exact .inr ⟨e.name, e.parameters, e.returnType, (Member.external e).span, rfl⟩
  | _ => exact .inl rfl

theorem sign_closed (member : Member) (w : Walk) : (sign member w).2.closed = w.closed := by
  rcases sign_walk member w with h | ⟨name, ps, returnType, span, h⟩
  · rw [h]
  · rw [h, signature_closed]

theorem sign_member (member : Member) (w : Walk) : (sign member w).1.member = member := by
  cases member <;> rfl

/-- A function with a body has a symbol. -/
theorem sign_isSome (member : Member) (w : Walk) (f : FunctionDeclaration)
    (h : (sign member w).1.member = .function f) : (sign member w).1.symbol.isSome := by
  rw [sign_member] at h
  subst h
  rfl

/-- Signatures as a step. -/
def signStep : Step Member SignedMember where
  run := sign
  renumberThing _ member := member
  renumberResult := SignedMember.renumber
  scope member w := by
    rcases sign_walk member w with h | ⟨name, ps, returnType, span, h⟩
    · rw [h]
    · rw [h, signature_scope]
  functions member w := by
    rcases sign_walk member w with h | ⟨name, ps, returnType, span, h⟩
    · rw [h]
    · rw [h, (w.adds_signature (P := fun _ => True) name ps returnType span).functions]
  closed member w hw := (sign_closed member w).trans hw
  last member w := by
    rcases sign_walk member w with h | ⟨name, ps, returnType, span, h⟩
    · rw [h]
    · rw [h]
      exact (w.signature_last name ps returnType span).1
  shows := by
    intro m w w' h member hbound
    cases member with
    | function f =>
      obtain ⟨hsymbol, hw⟩ :=
        h.signature f.name f.parameters f.returnType (Member.function f).span hbound
      refine ⟨?_, hw⟩
      dsimp only [sign]
      rw [hsymbol]
      rfl
    | external e =>
      obtain ⟨hsymbol, hw⟩ :=
        h.signature e.name e.parameters e.returnType (Member.external e).span hbound
      refine ⟨?_, hw⟩
      dsimp only [sign]
      rw [hsymbol]
      rfl
    | _ => exact ⟨rfl, h hbound⟩
  comp := SignedMember.renumber_comp

end Walk

/-- The names that are looked up for the signature of a member. -/
def Member.sought (s : Scope) : Member → List Ident
  | .function f => s.soughtSignature f.parameters f.returnType
  | .external e => s.soughtSignature e.parameters e.returnType
  | _ => []

theorem Member.sought_renumber (σ : Nat → Nat) (s : Scope) (member : Member) :
    member.sought (s.renumber σ) = member.sought s := by
  cases member with
  | function f => exact s.soughtSignature_renumber σ f.parameters f.returnType
  | external e => exact s.soughtSignature_renumber σ e.parameters e.returnType
  | _ => rfl

namespace Walk

theorem map_signStep (members : List Member) (w : Walk) :
    ((signStep.all.run members w).1.filterMap SignedMember.declared?).map Symbol.name =
      members.filterMap Member.functionName? := by
  induction members generalizing w with
  | nil => rfl
  | cons member others ih =>
    cases member with
    | function f => exact congrArg (f.name.name :: ·) (ih _)
    | external e => exact congrArg (e.name.name :: ·) (ih _)
    | _ => exact ih w

/-- Functions that are declared one after another can be declared at the end, unless one of them
hides a type from the signatures behind it. -/
theorem signatures_within {w : Walk} {base s : Scope} {members : List Member}
    (hbase : w.scope = base) (hs : s.Packageless)
    (halike : ∀ member ∈ members, base.Alike s (member.sought base))
    (htakes : s.inner.Takes
      ((signStep.all.run members w).1.filterMap SignedMember.declared?))
    (hhides : members.Pairwise fun f member => ∀ n ∈ member.sought base,
      f.functionName? = some n.name → (s.around? n.name).bind Symbol.namedType? = none) :
    (w.within s).signatures members =
      ((signStep.all.run members w).1.filterMap SignedMember.bodySymbol?,
        (signStep.all.run members w).2.within
          (s.addAll ((signStep.all.run members w).1.filterMap SignedMember.declared?))) := by
  induction members generalizing w s with
  | nil => rfl
  | cons member others ih =>
    obtain ⟨hhead, hothers⟩ := List.pairwise_cons.1 hhides
    obtain ⟨hmember, halikes⟩ := List.forall_mem_cons.1 halike
    -- A function that is declared leaves the types in the other signatures as they are.
    have hnext {symbol : FunctionSymbol} (hfree : s.inner.lookup? symbol.name = none)
        (hname : member.functionName? = some symbol.name) :
        ∀ other ∈ others, base.Alike (s.addAll [.function symbol]) (other.sought base) := by
      intro other hmem
      apply (halikes other hmem).trans
      apply Scope.alike_addAll_function hfree hs
      intro n hn heq
      rw [← heq]
      exact hhead other hmem n hn (heq ▸ hname)
    rw [← hbase] at hmember
    cases member with
    | function f =>
      let signed := w.signature f.name f.parameters f.returnType (Member.function f).span
      let symbol : FunctionSymbol := { signed.1 with isPublic := f.visibility.isSome }
      have hscope : signed.2.scope = base := (w.signature_scope ..).trans hbase
      have hfree : s.inner.lookup? symbol.name = none := htakes.head
      have hrest := ih (w := signed.2) (s := s.addAll [.function symbol]) hscope hs
        (hnext hfree rfl) htakes.tail hothers
      have hdeclare : (signed.2.within s).declare (.function symbol) f.name.span =
          signed.2.within (s.addAll [.function symbol]) := declare_within hfree f.name.span
      unfold signatures
      dsimp only
      rw [signature_within hmember]
      dsimp only
      rw [hdeclare]
      rw [hrest]
      rfl
    | external e =>
      let signed := w.signature e.name e.parameters e.returnType (Member.external e).span
      let symbol : FunctionSymbol := signed.1.asExternal
      have hscope : signed.2.scope = base := (w.signature_scope ..).trans hbase
      have hfree : s.inner.lookup? symbol.name = none := htakes.head
      have hrest := ih (w := signed.2) (s := s.addAll [.function symbol]) hscope hs
        (hnext hfree rfl) htakes.tail hothers
      have hdeclare : (signed.2.within s).declare (.function symbol) e.name.span =
          signed.2.within (s.addAll [.function symbol]) := declare_within hfree e.name.span
      unfold signatures
      dsimp only
      rw [signature_within hmember]
      dsimp only
      rw [hdeclare]
      exact hrest
    | _ => exact ih hbase hs halikes htakes hothers

/-! ### Bodies and statements -/

theorem optionalExpression_closed (w : Walk) (value : Option Expression) :
    (w.optionalExpression value).closed = w.closed := by
  cases value <;> rfl

/-- Binds the body of a member, its value or its statement. -/
def bindSigned (x : SignedMember) (w : Walk) : Option BoundFunction × Walk :=
  match x.member, x.symbol with
  | .function f, some symbol =>
    let (bound, w) := w.functionBody symbol f.body
    (some bound, w)
  | .statement (.declaration d), _ => (none, w.optionalExpression d.value)
  | .statement s, _ => (none, w.globalStatement s)
  | _, _ => (none, w)

/-- Bodies, values and statements as a step. -/
def bodyStep : Step SignedMember (Option BoundFunction) where
  run := bindSigned
  renumberThing := SignedMember.renumber
  renumberResult σ := Option.map (BoundFunction.renumber σ)
  scope x w := by
    unfold bindSigned
    split
    · exact w.functionBody_scope ..
    · exact w.optionalExpression_scope _
    · exact w.globalStatement_scope _
    · rfl
  functions x w := by
    unfold bindSigned
    split
    · exact (w.adds_functionBody (P := fun _ => True) _ fun _ _ => trivial).functions
    · exact (w.adds_optionalExpression (P := fun _ => True) fun _ _ => trivial).functions
    · exact (w.adds_globalStatement (P := fun _ => True) fun _ _ => trivial).functions
    · rfl
  closed x w hw := by
    unfold bindSigned
    split
    · rfl
    · exact (w.optionalExpression_closed _).trans hw
    · rfl
    · exact hw
  last x w := by
    unfold bindSigned
    split
    · exact w.functionBody_last ..
    · exact (w.continues_optionalExpression _).last
    · exact (w.continues_globalStatement _).last
    · exact le_rfl
  shows := by
    rintro m w w' h ⟨member, symbol⟩ hbound
    cases member with
    | function f =>
      cases symbol with
      | none => exact ⟨rfl, h hbound⟩
      | some symbol =>
        obtain ⟨hbody, hw⟩ := h.functionBody symbol f.body hbound
        exact ⟨congrArg some hbody, hw⟩
    | statement s =>
      have hstatement := h.globalStatement s
      cases s with
      | declaration d => exact ⟨rfl, h.optionalExpression d.value hbound⟩
      | _ => exact ⟨rfl, hstatement hbound⟩
    | _ => exact ⟨rfl, h hbound⟩
  comp := by
    intro σ τ bound
    cases bound with
    | none => rfl
    | some f => exact congrArg some (f.renumber_comp σ τ)

/-- Members are bound with the symbols of their functions. -/
theorem bindMembers_eq {xs : List SignedMember}
    (h : ∀ x ∈ xs, ∀ f, x.member = .function f → x.symbol.isSome) (w : Walk) :
    w.bindMembers (xs.map SignedMember.member) (xs.filterMap SignedMember.bodySymbol?) =
      ((bodyStep.all.run xs w).1.filterMap id, (bodyStep.all.run xs w).2) := by
  induction xs generalizing w with
  | nil => rfl
  | cons x others ih =>
    obtain ⟨hx, hothers⟩ := List.forall_mem_cons.1 h
    obtain ⟨member, symbol⟩ := x
    have hrest := ih hothers (bodyStep.run ⟨member, symbol⟩ w).2
    cases member with
    | function f =>
      obtain ⟨symbol, rfl⟩ := Option.isSome_iff_exists.1 (hx f rfl)
      let bound := (w.functionBody symbol f.body).1
      exact congrArg (fun rest : List BoundFunction × Walk => (bound :: rest.1, rest.2)) hrest
    | statement s => cases s <;> exact hrest
    | _ => exact hrest

theorem signStep_signed (members : List Member) (w : Walk) :
    (signStep.all.run members w).1.map SignedMember.member = members ∧
      ∀ x ∈ (signStep.all.run members w).1, ∀ f, x.member = .function f → x.symbol.isSome := by
  induction members generalizing w with
  | nil => exact ⟨rfl, List.forall_mem_nil _⟩
  | cons member others ih =>
    obtain ⟨hmembers, hsigned⟩ := ih (sign member w).2
    exact ⟨congrArg₂ List.cons (sign_member member w) hmembers,
      List.forall_mem_cons.2 ⟨sign_isSome member w, hsigned⟩⟩

end Walk

end TodLang
