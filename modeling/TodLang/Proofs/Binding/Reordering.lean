import TodLang.Proofs.Binding.Hiding
import TodLang.Proofs.Binding.Permutation
/-!
When the order of the members matters. A function that has the name of a built-in type hides it from
the signatures behind it, so two orders that differ in such a function and a signature lead to
different faults. This is the only reason: if the names that are declared are different, every order
that keeps the statements as they are leads to the same program, up to the numbers of variables and
the order in which things are found, exactly if no function hides a type (`bindProgram_perm_iff`).
-/

namespace TodLang

namespace SignedMember

theorem renumber_id (x : SignedMember) : x.renumber id = x := by
  obtain ⟨member, symbol⟩ := x
  cases symbol with
  | none => rfl
  | some f =>
    exact congrArg (fun parameters => SignedMember.mk member (some { f with parameters }))
      (List.map_id f.parameters)

/-- Declares the function of a member. -/
def declare (x : SignedMember) (w : Walk) : Walk :=
  match x.member, x.symbol with
  | .function f, some symbol => w.declare (.function symbol) f.name.span
  | .external e, some symbol => w.declare (.function symbol) e.name.span
  | _, _ => w

theorem declare_cases (x : SignedMember) (w : Walk) :
    x.declare w = w ∨ ∃ symbol span, x.declare w = w.declare (.function symbol) span := by
  obtain ⟨member, symbol⟩ := x
  cases symbol with
  | none => cases member <;> exact .inl rfl
  | some symbol =>
    cases member with
    | function f => exact .inr ⟨symbol, f.name.span, rfl⟩
    | external e => exact .inr ⟨symbol, e.name.span, rfl⟩
    | _ => exact .inl rfl

end SignedMember

namespace Walk

/-! ### Members one after another -/

/-- Declares the function of a member, and gives the member with its symbol. -/
def signDeclared (member : Member) (w : Walk) : SignedMember × Walk :=
  ((sign member w).1, (sign member w).1.declare (sign member w).2)

/-- Declares the functions of members, and gives the members with their symbols. -/
def signAll : List Member → Walk → List SignedMember × Walk
  | [], w => ([], w)
  | member :: others, w =>
    ((signDeclared member w).1 :: (signAll others (signDeclared member w).2).1,
      (signAll others (signDeclared member w).2).2)

theorem signatures_eq_signAll (w : Walk) (members : List Member) :
    w.signatures members =
      ((signAll members w).1.filterMap SignedMember.bodySymbol?, (signAll members w).2) := by
  induction members generalizing w with
  | nil => rfl
  | cons member others ih =>
    have hothers := ih (signDeclared member w).2
    cases member with
    | function f =>
      let symbol : FunctionSymbol :=
        { (w.signature f.name f.parameters f.returnType (Member.function f).span).1 with
          isPublic := f.visibility.isSome }
      exact congrArg (fun rest : List FunctionSymbol × Walk => (symbol :: rest.1, rest.2)) hothers
    | external e => exact hothers
    | _ => exact hothers

theorem signAll_signed (members : List Member) (w : Walk) :
    (signAll members w).1.map SignedMember.member = members ∧
      ∀ x ∈ (signAll members w).1, ∀ f, x.member = .function f → x.symbol.isSome := by
  induction members generalizing w with
  | nil => exact ⟨rfl, List.forall_mem_nil _⟩
  | cons member others ih =>
    obtain ⟨hmembers, hsigned⟩ := ih (signDeclared member w).2
    exact ⟨congrArg₂ List.cons (sign_member member w) hmembers,
      List.forall_mem_cons.2 ⟨sign_isSome member w, hsigned⟩⟩

theorem signDeclared_walk (member : Member) (w : Walk) :
    (signDeclared member w).2.last = (sign member w).2.last ∧
      (signDeclared member w).2.closed = (sign member w).2.closed := by
  unfold signDeclared
  dsimp only
  rcases (sign member w).1.declare_cases (sign member w).2 with h | ⟨symbol, span, h⟩
  · rw [h]
    exact ⟨rfl, rfl⟩
  · rw [h]
    exact ⟨declare_last .., declare_closed ..⟩

theorem signDeclared_last (member : Member) (w : Walk) :
    w.last ≤ (signDeclared member w).2.last :=
  (signStep.last member w).trans_eq (signDeclared_walk member w).1.symm

theorem signAll_last (members : List Member) (w : Walk) : w.last ≤ (signAll members w).2.last := by
  induction members generalizing w with
  | nil => exact le_rfl
  | cons member others ih => exact (signDeclared_last member w).trans (ih _)

theorem signAll_closed (members : List Member) (w : Walk) :
    (signAll members w).2.closed = w.closed := by
  induction members generalizing w with
  | nil => rfl
  | cons member others ih =>
    exact (ih _).trans ((signDeclared_walk member w).2.trans (sign_closed member w))

end Walk

namespace Mirror

variable {m : Mirror} {w w' : Walk}

theorem Shows.declareSigned (h : m.Shows w w') (x : SignedMember) :
    m.Shows (x.declare w) ((x.renumber m.renumber).declare w') := by
  obtain ⟨member, symbol⟩ := x
  cases symbol with
  | none => cases member <;> exact h
  | some symbol =>
    cases member with
    | function f => exact h.declare (.function symbol) f.name.span
    | external e => exact h.declare (.function symbol) e.name.span
    | _ => exact h

theorem Shows.signDeclared (h : m.Shows w w') (member : Member) :
    m.Yields (SignedMember.renumber m.renumber) (Walk.signDeclared member w)
      (Walk.signDeclared member w') := by
  intro hbound
  have hsign : m.Yields (SignedMember.renumber m.renumber) (Walk.sign member w)
      (Walk.sign member w') := Walk.signStep.shows m h member
  have hsame := (hsign ((Walk.signDeclared_walk member w).1 ▸ hbound)).1
  have hdeclare := hsign.shows.declareSigned (Walk.sign member w).1 hbound
  rw [← hsame] at hdeclare
  exact ⟨hsame, hdeclare⟩

theorem Shows.signAll (h : m.Shows w w') (members : List Member) :
    m.Yields (List.map (SignedMember.renumber m.renumber)) (Walk.signAll members w)
      (Walk.signAll members w') := by
  induction members generalizing w w' with
  | nil => exact fun hbound => ⟨rfl, h hbound⟩
  | cons member others ih =>
    intro hbound
    have hfirst := h.signDeclared member
    obtain ⟨hothers, hw⟩ := ih hfirst.shows hbound
    have hbefore := (Walk.signAll_last others (Walk.signDeclared member w).2).trans hbound
    exact ⟨congrArg₂ List.cons (hfirst hbefore).1 hothers, hw⟩

end Mirror

namespace Walk

/-! ### What was found before -/

theorem undefinedCount_renumber (σ : Nat → Nat) (name : String) (findings : List Finding) :
    undefinedCount name (findings.map (Finding.renumber σ)) = undefinedCount name findings := by
  have herrors : (findings.map (Finding.renumber σ)).filterMap Finding.error? =
      findings.filterMap Finding.error? := by
    rw [List.filterMap_map]
    exact List.filterMap_congr fun f _ => f.error?_renumber σ
  rw [undefinedCount, herrors]
  rfl

/-- A walk that has found nothing yet. -/
def clear (w : Walk) : Walk :=
  { w with findings := [] }

theorem Settled.clear {w : Walk} (h : w.Settled) : w.clear.Settled :=
  ⟨h.closed, h.scope, fun _ _ => rfl⟩

/-- The program that a walk binds from some members on, given the symbols of the members in front
of them. -/
def programFrom (w : Walk) (ds : List VariableDeclaration) (front : List SignedMember)
    (members : List Member) : BoundProgram :=
  (signAll members w).2.program ds (front ++ (signAll members w).1)

/-- What was found before does not change what is found. -/
theorem undefined_programFrom {w : Walk} (hw : w.Settled) (ds : List VariableDeclaration)
    (front : List SignedMember) (members : List Member) (name : String) :
    undefinedCount name (w.programFrom ds front members).findings =
      w.undefined name + undefinedCount name (w.clear.programFrom ds front members).findings := by
  let declared (w : Walk) : Walk :=
    ds.foldl (declareVariable · .globalVariable ·) (signAll members w).2
  let final := bodyStep.all.run (front ++ (signAll members w).1) (declared w)
  let m := Mirror.between w w.clear id final.2.last fun i _ _ => rfl
  have hshows : m.Shows w w.clear :=
    Mirror.shows_between _ (hw.scope id fun _ _ => rfl).symm rfl hw.closed hw.closed
  have hbefore : (signAll members w).2.last ≤ m.bound :=
    (globals_last _ ds).trans (bodyStep.all.last (front ++ (signAll members w).1) (declared w))
  have hsigned := hshows.signAll members
  have hsame : (front ++ (signAll members w).1).map (SignedMember.renumber id) =
      front ++ (signAll members w.clear).1 := by
    have hfront : front.map (SignedMember.renumber id) = front :=
      (List.map_congr_left fun x _ => x.renumber_id).trans (List.map_id front)
    rw [List.map_append, hfront, (hsigned hbefore).1]
    rfl
  obtain ⟨-, hreflects⟩ :=
    bodyStep.all.shows m (shows_globals hsigned.shows ds) (front ++ (signAll members w).1) le_rfl
  change m.Reflects final.2
    (bodyStep.all.run ((front ++ (signAll members w).1).map (SignedMember.renumber id)) _).2
      at hreflects
  rw [hsame] at hreflects
  obtain ⟨added, hfound, hfound'⟩ := hreflects.findings
  change (w.programFrom ds front members).findings = w.findings ++ added at hfound
  change (w.clear.programFrom ds front members).findings = [] ++ added.map (Finding.renumber id)
    at hfound'
  rw [hfound, hfound', undefinedCount_append, List.nil_append, undefinedCount_renumber]
  rfl

/-! ### Signatures with the same types -/

end Walk

/-- The types of the parameters of a function, and the one that it gives back. -/
def FunctionSymbol.types (f : FunctionSymbol) : List Ty × Ty :=
  (f.parameters.map Variable.type, f.returnType)

/-- The types in the signature of a member. -/
def SignedMember.types? (x : SignedMember) : Option (List Ty × Ty) :=
  x.symbol.map FunctionSymbol.types

theorem FunctionSymbol.types_renumber (σ : Nat → Nat) (f : FunctionSymbol) :
    (f.renumber σ).types = f.types :=
  congrArg (Prod.mk · f.returnType) (List.map_map ..)

namespace Walk

/-- Parameters of the same types differ in their numbers alone. -/
theorem parameters_renumber {w v : Walk} {σ : Nat → Nat} {ps : List Parameter}
    (hshift : ∀ i, w.last < i → i ≤ (w.parameters ps).2.last → σ i + w.last = i + v.last)
    (htypes : (v.parameters ps).1.map Variable.type = (w.parameters ps).1.map Variable.type) :
    (v.parameters ps).1 = (w.parameters ps).1.map (Variable.renumber σ) ∧
      (v.parameters ps).2.last + w.last = (w.parameters ps).2.last + v.last := by
  induction ps generalizing w v with
  | nil => exact ⟨rfl, Nat.add_comm _ _⟩
  | cons p others ih =>
    let next (w : Walk) : Walk := (w.type p.type).2.countVariable
    have hbound : w.last + 1 ≤ ((next w).parameters others).2.last :=
      ((next w).parameters_last others).1
    have hid : v.last + 1 = σ (w.last + 1) := by
      have hfirst := hshift (w.last + 1) (Nat.lt_succ_self _) hbound
      omega
    obtain ⟨htype, hrest⟩ := List.cons.inj htypes
    have hnext (i : Nat) (hlt : w.last + 1 < i) (hle : i ≤ ((next w).parameters others).2.last) :
        σ i + (w.last + 1) = i + (v.last + 1) := by
      have hrow := hshift i (Nat.lt_of_succ_lt hlt) hle
      omega
    obtain ⟨hothers, hcount⟩ := ih (w := next w) (v := next v) hnext hrest
    change _ + (w.last + 1) = _ + (v.last + 1) at hcount
    refine ⟨congrArg₂ List.cons ?_ hothers, ?_⟩
    · change (v.type p.type).1 = (w.type p.type).1 at htype
      change Variable.mk p.name.name false (v.type p.type).1 (v.last + 1) (some p.name.span) =
        Variable.mk p.name.name false (w.type p.type).1 (σ (w.last + 1)) (some p.name.span)
      rw [htype, hid]
    · change ((next v).parameters others).2.last + w.last =
        ((next w).parameters others).2.last + v.last
      omega

theorem signature_renumber {w v : Walk} {σ : Nat → Nat} {n : Ident} {ps : List Parameter}
    {returnType : Option TypeClause} {span : Span}
    (hshift : ∀ i, w.last < i → i ≤ (w.signature n ps returnType span).2.last →
      σ i + w.last = i + v.last)
    (htypes : (v.signature n ps returnType span).1.types =
      (w.signature n ps returnType span).1.types) :
    (v.signature n ps returnType span).1 = (w.signature n ps returnType span).1.renumber σ ∧
      (v.signature n ps returnType span).2.last + w.last =
        (w.signature n ps returnType span).2.last + v.last := by
  have hlast (w : Walk) : (w.signature n ps returnType span).2.last = (w.parameters ps).2.last := by
    cases returnType <;> rfl
  rw [hlast] at hshift
  obtain ⟨hparameters, hreturn⟩ := Prod.mk.inj htypes
  obtain ⟨hsame, hcount⟩ := parameters_renumber hshift hparameters
  rw [hlast, hlast]
  refine ⟨?_, hcount⟩
  unfold signature FunctionSymbol.renumber
  dsimp only
  rw [hsame]
  exact congrArg (FunctionSymbol.mk _ _ · _ _ _ _) hreturn

/-- The symbol of a member differs in its numbers alone if its types are the same. -/
theorem sign_renumber {w v : Walk} {σ : Nat → Nat} {member : Member}
    (hshift : ∀ i, w.last < i → i ≤ (sign member w).2.last → σ i + w.last = i + v.last)
    (htypes : (sign member v).1.types? = (sign member w).1.types?) :
    (sign member v).1 = (sign member w).1.renumber σ ∧
      (sign member v).2.last + w.last = (sign member w).2.last + v.last := by
  cases member with
  | function f =>
    obtain ⟨hsame, hcount⟩ := signature_renumber hshift (Option.some.inj htypes)
    refine ⟨?_, hcount⟩
    dsimp only [sign]
    rw [hsame]
    rfl
  | external e =>
    obtain ⟨hsame, hcount⟩ := signature_renumber hshift (Option.some.inj htypes)
    refine ⟨?_, hcount⟩
    dsimp only [sign]
    rw [hsame]
    rfl
  | _ => exact ⟨rfl, Nat.add_comm _ _⟩

/-! ### Two members in both orders -/

/-- A member declares its function if the name is free. -/
theorem exists_signDeclared {member : Member} {name : String}
    (h : member.functionName? = some name) {w : Walk} (hfree : w.scope.inner.lookup? name = none) :
    ∃ f : FunctionSymbol, f.name = name ∧ signDeclared member w =
      (⟨member, some f⟩, (sign member w).2.within (w.scope.addAll [.function f])) := by
  have hscope : (sign member w).2.scope = w.scope := signStep.scope member w
  rw [← hscope] at hfree ⊢
  cases member with
  | function d =>
    obtain rfl : d.name.name = name := Option.some.inj h
    exact ⟨_, rfl, congrArg (Prod.mk _) (declare_eq_gather hfree d.name.span)⟩
  | external e =>
    obtain rfl : e.name.name = name := Option.some.inj h
    exact ⟨_, rfl, congrArg (Prod.mk _) (declare_eq_gather hfree e.name.span)⟩
  | _ => cases h

theorem lookup?_addAll_single {s : Scope} {f : FunctionSymbol} {name : String}
    (hf : s.inner.lookup? f.name = none) (hne : f.name ≠ name)
    (hfree : s.inner.lookup? name = none) :
    (s.addAll [.function f]).inner.lookup? name = none := by
  change (s.inner.add (.function f)).lookup? name = none
  exact (Region.lookup?_add hf name).trans ((if_neg hne).trans hfree)

/-- Whether two members declare functions of different names that are free. -/
structure FreePair (w : Walk) (a b : Member) (name other : String) : Prop where
  first : a.functionName? = some name
  second : b.functionName? = some other
  ne : name ≠ other
  free : w.scope.inner.lookup? name = none
  free' : w.scope.inner.lookup? other = none

theorem FreePair.symm {w : Walk} {a b : Member} {name other : String}
    (h : w.FreePair a b name other) : w.FreePair b a other name :=
  ⟨h.second, h.first, h.ne.symm, h.free', h.free⟩

/-- What two members come to that declare functions of free names one after another. -/
structure DeclaresBoth (w : Walk) (a b : Member) (f g : FunctionSymbol) : Prop where
  first : (signDeclared a w).1 = ⟨a, some f⟩
  second : (signDeclared b (signDeclared a w).2).1 = ⟨b, some g⟩
  front : (signDeclared a w).2.scope = w.scope.addAll [.function f]
  scope : (signDeclared b (signDeclared a w).2).2.scope =
    w.scope.addAll [.function f, .function g]
  functions : (signDeclared b (signDeclared a w).2).2.typeFunctions = w.typeFunctions
  found : (signDeclared a w).2.findings = (sign a w).2.findings
  foundBoth : (signDeclared b (signDeclared a w).2).2.findings =
    (sign b (signDeclared a w).2).2.findings

theorem FreePair.declaresBoth {w : Walk} {a b : Member} {name other : String}
    (h : w.FreePair a b name other) :
    ∃ f g : FunctionSymbol, f.name = name ∧ g.name = other ∧ w.DeclaresBoth a b f g := by
  obtain ⟨f, rfl, hfirst⟩ := exists_signDeclared h.first h.free
  have hfront : (signDeclared a w).2.scope = w.scope.addAll [.function f] := by
    rw [hfirst]
    rfl
  have hnext : (signDeclared a w).2.scope.inner.lookup? other = none := by
    rw [hfront]
    exact lookup?_addAll_single h.free h.ne h.free'
  obtain ⟨g, rfl, hsecond⟩ := exists_signDeclared h.second hnext
  have hfunctions : (sign b (signDeclared a w).2).2.typeFunctions = w.typeFunctions := by
    refine (signStep.functions b _).trans ?_
    rw [hfirst]
    exact signStep.functions a w
  refine ⟨f, g, rfl, rfl, congrArg Prod.fst hfirst, congrArg Prod.fst hsecond, hfront, ?_, ?_,
    congrArg (fun x => Walk.findings x.2) hfirst, congrArg (fun x => Walk.findings x.2) hsecond⟩
  · rw [hsecond, hfront]
    rfl
  · rw [hsecond]
    exact hfunctions

theorem DeclaresBoth.lookup? {w : Walk} {a b : Member} {f g : FunctionSymbol}
    (h : w.DeclaresBoth a b f g) (hfree : w.FreePair a b f.name g.name) :
    (signDeclared b (signDeclared a w).2).2.scope.inner.lookup? f.name = some (.function f) ∧
      (signDeclared b (signDeclared a w).2).2.scope.inner.lookup? g.name = some (.function g) := by
  have hadd (name : String) : (w.scope.addAll [.function f, .function g]).inner.lookup? name =
      if g.name = name then some (.function g)
      else (w.scope.inner.add (.function f)).lookup? name :=
    Region.lookup?_add (s := .function g)
      (lookup?_addAll_single hfree.free hfree.ne hfree.free') name
  rw [h.scope, hadd, hadd, if_pos rfl, if_neg hfree.ne.symm]
  exact ⟨(Region.lookup?_add hfree.free f.name).trans (if_pos rfl), rfl⟩

theorem settled_signDeclared {w : Walk} (h : w.Settled) (member : Member) :
    (signDeclared member w).2.Settled ∧
      ∀ σ, Fixes σ (signDeclared member w).2.last →
        (signDeclared member w).1.renumber σ = (signDeclared member w).1 :=
  h.of_yields (fun _ _ _ hv => hv.signDeclared member) (signDeclared_last member)
    fun v => (signDeclared_walk member v).2.trans (sign_closed member v)

theorem signDeclared_renumber {w v : Walk} {σ : Nat → Nat} {member : Member}
    (hshift : ∀ i, w.last < i → i ≤ (signDeclared member w).2.last → σ i + w.last = i + v.last)
    (htypes : (signDeclared member v).1.types? = (signDeclared member w).1.types?) :
    (signDeclared member v).1 = (signDeclared member w).1.renumber σ ∧
      (signDeclared member v).2.last + w.last = (signDeclared member w).2.last + v.last := by
  rw [(signDeclared_walk member w).1] at hshift
  rw [(signDeclared_walk member w).1, (signDeclared_walk member v).1]
  exact sign_renumber hshift htypes

/-- Two members that get the same types in both orders exchange the numbers of their parameters. -/
theorem exists_exchange {w : Walk} {a b : Member}
    (hfirst : (signDeclared a (signDeclared b w).2).1.types? = (signDeclared a w).1.types?)
    (hsecond : (signDeclared b w).1.types? = (signDeclared b (signDeclared a w).2).1.types?) :
    ∃ σ : Equiv.Perm Nat, Fixes σ w.last ∧
      (∀ i, (signDeclared b (signDeclared a w).2).2.last < i → σ i = i) ∧
      (signDeclared a (signDeclared b w).2).1 = (signDeclared a w).1.renumber σ ∧
      (signDeclared b w).1 = (signDeclared b (signDeclared a w).2).1.renumber σ ∧
      (signDeclared a (signDeclared b w).2).2.last =
        (signDeclared b (signDeclared a w).2).2.last := by
  have hle := signDeclared_last a w
  have hle' := signDeclared_last b (signDeclared a w).2
  obtain ⟨hb, hcount⟩ := signDeclared_renumber (fun _ => exchange_back hle) hsecond
  obtain ⟨ha, hcount'⟩ := signDeclared_renumber (fun _ => exchange_forth hle' hcount) hfirst
  exact ⟨_, fixes_exchange _ _ _, fun _ => exchange_behind hle hle', ha, hb, by omega⟩

/-- The scopes behind two members in both orders differ in these numbers alone. -/
theorem DeclaresBoth.scope_swapped {w : Walk} {a b : Member} {f g : FunctionSymbol}
    {σ : Nat → Nat} (h : w.DeclaresBoth a b f g)
    (h' : w.DeclaresBoth b a (g.renumber σ) (f.renumber σ)) (hne : f.name ≠ g.name)
    (hscope : w.scope.renumber σ = w.scope) :
    (signDeclared a (signDeclared b w).2).2.scope =
      (signDeclared b (signDeclared a w).2).2.scope.renumber σ := by
  have hnames : ([Symbol.function (g.renumber σ), .function (f.renumber σ)].map
      Symbol.name).Nodup := by
    simpa [Symbol.name, FunctionSymbol.renumber] using hne.symm
  rw [h.scope, h'.scope, Scope.addAll_renumber, hscope]
  exact congrArg (Scope.mk · _) (Region.addAll_perm (.swap ..) hnames w.scope.inner)

/-- If two members get the same types in both orders, the walks behind them correspond but for what
they have found, and so do the members with their symbols. -/
theorem corresponds_swapped {w : Walk} (hw : w.Settled) {a b : Member} {name other : String}
    (h : w.FreePair a b name other)
    (hfirst : (signDeclared a (signDeclared b w).2).1.types? = (signDeclared a w).1.types?)
    (hsecond : (signDeclared b w).1.types? = (signDeclared b (signDeclared a w).2).1.types?) :
    ∃ σ, (signDeclared b (signDeclared a w).2).2.clear.Corresponds w.last σ
        (signDeclared a (signDeclared b w).2).2.clear ∧
      (signDeclared a (signDeclared b w).2).1 = (signDeclared a w).1.renumber σ ∧
      (signDeclared b w).1 = (signDeclared b (signDeclared a w).2).1.renumber σ := by
  obtain ⟨σ, hearlier, hlater, hsame, hsame', hlast⟩ := exists_exchange hfirst hsecond
  obtain ⟨f, g, rfl, rfl, hab⟩ := h.declaresBoth
  obtain ⟨g', f', -, -, hba⟩ := h.symm.declaresBoth
  have hf : f' = f.renumber σ := by
    rw [hba.second, hab.first] at hsame
    exact Option.some.inj (congrArg SignedMember.symbol hsame)
  have hg : g' = g.renumber σ := by
    rw [hba.first, hab.second] at hsame'
    exact Option.some.inj (congrArg SignedMember.symbol hsame')
  subst hf hg
  have hrearranged : (signDeclared b (signDeclared a w).2).2.clear.Rearranged w.last σ
      (signDeclared a (signDeclared b w).2).2.clear :=
    { scope := hab.scope_swapped hba h.ne (hw.scope σ hearlier)
      functions := hba.functions.trans hab.functions.symm
      last := hlast
      findings := .nil
      earlier := hearlier
      later := hlater }
  refine ⟨σ, ⟨hrearranged, ?_, ?_, ?_⟩, hsame, hsame'⟩
  · exact (settled_signDeclared (settled_signDeclared hw a).1 b).1.clear
  · exact (settled_signDeclared (settled_signDeclared hw b).1 a).1.clear
  · exact (signDeclared_last a w).trans (signDeclared_last b _)

theorem Holds.append {w v : Walk} {front back : List SignedMember}
    (h : w.Holds SignedMember.renumber front) (h' : v.Holds SignedMember.renumber back)
    (hle : w.last ≤ v.last) : v.Holds SignedMember.renumber (front ++ back) := by
  intro σ hσ
  rw [List.map_append, h σ (hσ.mono hle), h' σ hσ]

/-- Corresponding walks bind the members behind them to programs with the same faults. -/
theorem Corresponds.undefined_programFrom {start : Nat} {σ : Equiv.Perm Nat} {w w' : Walk}
    (h : w.Corresponds start σ w') {front front' : List SignedMember}
    (hperm : (front.map (SignedMember.renumber σ)).Perm front')
    (hfront : w.Holds SignedMember.renumber front) (hfront' : w'.Holds SignedMember.renumber front')
    (ds : List VariableDeclaration) (members : List Member) (name : String) :
    undefinedCount name (w'.programFrom ds front' members).findings =
      undefinedCount name (w.programFrom ds front members).findings := by
  let renumber (τ : Nat → Nat) : List SignedMember → List SignedMember :=
    List.map (SignedMember.renumber τ)
  have hyields (m : Mirror) {v v' : Walk} (hv : m.Shows v v') :
      m.Yields (renumber m.renumber) (signAll members v) (signAll members v') :=
    hv.signAll members
  have hlast := signAll_last members
  have hclosed := signAll_closed members
  obtain ⟨hsigned, hsame⟩ := h.of_yields hyields hlast hclosed
  have hholds := (h.settled.of_yields hyields hlast hclosed).2
  have hholds' := (h.settled'.of_yields hyields hlast hclosed).2
  have halike : SignAlike start σ (signAll members w).2 (signAll members w').2
      (front ++ (signAll members w).1) (front' ++ (signAll members w').1) := by
    refine ⟨hsigned, ?_, hfront.append hholds (hlast w), hfront'.append hholds' (hlast w')⟩
    rw [List.map_append, hsame]
    exact hperm.append_right _
  obtain ⟨τ, -, hprograms⟩ := halike.program ds
  exact (hprograms.errors.map SemanticError.fault).count_eq _

section

variable {w : Walk} {f g : Member} {name other : String}

/-- Behind a signature, the name of a type can be taken without a fault that names it. -/
theorem undefined_behind (hs : w.scope.Packageless) (h : w.FreePair f g name other)
    (htype : w.scope.namedType? name ≠ none) :
    (signDeclared f (signDeclared g w).2).2.undefined name = w.undefined name := by
  obtain ⟨symbol, _, rfl, -, hboth⟩ := h.symm.declaresBoth
  have hnext : (signDeclared g w).2.scope.namedType? name ≠ none := by
    rw [hboth.front, (Scope.obscures_addAll_function h.free' hs).types name h.ne]
    exact htype
  calc (signDeclared f (signDeclared g w).2).2.undefined name
      = (sign f (signDeclared g w).2).2.undefined name :=
        congrArg (undefinedCount name) hboth.foundBoth
    _ = (signDeclared g w).2.undefined name := undefined_sign hnext f
    _ = (sign g w).2.undefined name := congrArg (undefinedCount name) hboth.found
    _ = w.undefined name := undefined_sign htype g

/-- In front of a signature that looks it up, it cannot. -/
theorem undefined_before (hs : w.scope.Packageless) (h : w.FreePair f g name other)
    (htype : w.scope.namedType? name ≠ none) (hsought : ∃ n ∈ g.sought w.scope, n.name = name) :
    w.undefined name < (signDeclared g (signDeclared f w).2).2.undefined name := by
  obtain ⟨symbol, _, rfl, -, hboth⟩ := h.declaresBoth
  have hobscures : w.scope.Obscures (signDeclared f w).2.scope symbol.name := by
    rw [hboth.front]
    exact Scope.obscures_addAll_function h.free hs
  calc w.undefined symbol.name
      = (sign f w).2.undefined symbol.name := (undefined_sign htype f).symm
    _ = (signDeclared f w).2.undefined symbol.name :=
        congrArg (undefinedCount symbol.name) hboth.found.symm
    _ < (sign g (signDeclared f w).2).2.undefined symbol.name :=
        undefined_lt_sign hobscures hsought
    _ = (signDeclared g (signDeclared f w).2).2.undefined symbol.name :=
        congrArg (undefinedCount symbol.name) hboth.foundBoth.symm

theorem holds_signDeclared_pair (hw : w.Settled) (a b : Member) :
    (signDeclared b (signDeclared a w).2).2.Holds SignedMember.renumber
      [(signDeclared a w).1, (signDeclared b (signDeclared a w).2).1] := by
  obtain ⟨ha, hfirst⟩ := settled_signDeclared hw a
  have hsecond := (settled_signDeclared ha b).2
  intro τ hτ
  exact congrArg₂ (fun x y => [x, y]) (hfirst τ (hτ.mono (signDeclared_last b _))) (hsecond τ hτ)

/-- If they get the same types in both orders, what is found behind two members does not depend on
their order. -/
theorem undefined_programFrom_swapped (hw : w.Settled) {a b : Member}
    (h : w.FreePair a b name other)
    (hfirst : (signDeclared a (signDeclared b w).2).1.types? = (signDeclared a w).1.types?)
    (hsecond : (signDeclared b w).1.types? = (signDeclared b (signDeclared a w).2).1.types?)
    (ds : List VariableDeclaration) (members : List Member) (missing : String) :
    undefinedCount missing ((signDeclared a (signDeclared b w).2).2.clear.programFrom ds
        [(signDeclared b w).1, (signDeclared a (signDeclared b w).2).1] members).findings =
      undefinedCount missing ((signDeclared b (signDeclared a w).2).2.clear.programFrom ds
        [(signDeclared a w).1, (signDeclared b (signDeclared a w).2).1] members).findings := by
  obtain ⟨σ, hcorresponds, hsame, hsame'⟩ := corresponds_swapped hw h hfirst hsecond
  apply hcorresponds.undefined_programFrom ?_ (holds_signDeclared_pair hw a b)
    (holds_signDeclared_pair hw b a)
  rw [hsame, hsame']
  exact .swap ..

/-- A function that hides a type from a signature leads to one more fault if it stands in front. -/
theorem undefined_lt_programFrom (hw : w.Settled) (hs : w.scope.Packageless)
    (h : w.FreePair f g name other) (htype : w.scope.namedType? name ≠ none)
    (hsought : ∃ n ∈ g.sought w.scope, n.name = name)
    (hfirst : (signDeclared g (signDeclared f w).2).1.types? = (signDeclared g w).1.types?)
    (hsecond : (signDeclared f w).1.types? = (signDeclared f (signDeclared g w).2).1.types?)
    (ds : List VariableDeclaration) (members : List Member) :
    undefinedCount name (w.programFrom ds [] (g :: f :: members)).findings <
      undefinedCount name (w.programFrom ds [] (f :: g :: members)).findings := by
  let behind := (signDeclared f (signDeclared g w).2).2
  let before := (signDeclared g (signDeclared f w).2).2
  have hsettled : behind.Settled := (settled_signDeclared (settled_signDeclared hw g).1 f).1
  have hsettled' : before.Settled := (settled_signDeclared (settled_signDeclared hw f).1 g).1
  have hrest := undefined_programFrom_swapped hw h.symm hfirst hsecond ds members name
  have hless : behind.undefined name < before.undefined name := by
    rw [undefined_behind hs h htype]
    exact undefined_before hs h htype hsought
  have hbehind : undefinedCount name (w.programFrom ds [] (g :: f :: members)).findings =
      behind.undefined name + _ := undefined_programFrom hsettled ds
        [(signDeclared g w).1, (signDeclared f (signDeclared g w).2).1] members name
  have hbefore : undefinedCount name (w.programFrom ds [] (f :: g :: members)).findings =
      before.undefined name + _ := undefined_programFrom hsettled' ds
        [(signDeclared f w).1, (signDeclared g (signDeclared f w).2).1] members name
  rw [hbehind, hbefore]
  exact Nat.add_lt_add_of_lt_of_le hless hrest.ge

end

/-! ### The symbols of a program -/

/-- What a name stands for stays when more is declared. -/
theorem lookup?_declare_of_some {w : Walk} {name : String} {s : Symbol}
    (h : w.scope.inner.lookup? name = some s) (symbol : Symbol) (span : Span) :
    (w.declare symbol span).scope.inner.lookup? name = some s := by
  rcases w.inner_declare symbol span with hdeclare | ⟨-, hinner⟩
  · have hnew : symbol.name ≠ name := by
      rintro rfl
      have hfresh := Region.declares_of_declare? hdeclare
      rw [Region.declares, h] at hfresh
      cases hfresh
    rw [Region.lookup?_declare? hdeclare, if_neg hnew]
    exact h
  · rw [hinner]
    exact h

theorem lookup?_signAll_of_some {w : Walk} {name : String} {s : Symbol}
    (h : w.scope.inner.lookup? name = some s) (members : List Member) :
    (signAll members w).2.scope.inner.lookup? name = some s := by
  induction members generalizing w with
  | nil => exact h
  | cons member others ih =>
    apply ih
    have hsign : (sign member w).2.scope.inner.lookup? name = some s := by
      have hscope : (sign member w).2.scope = w.scope := signStep.scope member w
      rw [hscope]
      exact h
    rcases (sign member w).1.declare_cases (sign member w).2 with hsame | ⟨symbol, span, hdeclare⟩
    · exact (congrArg (fun w => w.scope.inner.lookup? name) hsame).trans hsign
    · exact (congrArg (fun w => w.scope.inner.lookup? name) hdeclare).trans
        (lookup?_declare_of_some hsign _ span)

theorem lookup?_globals_of_some {w : Walk} {name : String} {s : Symbol}
    (h : w.scope.inner.lookup? name = some s) (ds : List VariableDeclaration) :
    (ds.foldl (declareVariable · .globalVariable ·) w).scope.inner.lookup? name = some s := by
  induction ds generalizing w with
  | nil => exact h
  | cons d others ih =>
    have htype : (w.declaredType d).2.countVariable.scope.inner.lookup? name = some s := by
      change (w.declaredType d).2.scope.inner.lookup? name = some s
      rw [declaredType_scope]
      exact h
    have hdeclare := lookup?_declare_of_some htype (.globalVariable (w.declaredVariable d))
      d.name.span
    rw [← declareVariable_eq] at hdeclare
    exact ih hdeclare

/-- What a name stands for once functions are declared is what the program has it for. -/
theorem symbol?_programFrom {w : Walk} {name : String} {s : Symbol}
    (h : w.scope.inner.lookup? name = some s) (ds : List VariableDeclaration)
    (front : List SignedMember) (members : List Member) :
    (w.programFrom ds front members).symbol? name = some s := by
  have hdeclared := lookup?_globals_of_some (lookup?_signAll_of_some h members) ds
  have hscope := bodyStep.all.scope (front ++ (signAll members w).1)
    (ds.foldl (declareVariable · .globalVariable ·) (signAll members w).2)
  change (bodyStep.all.run _ _).2.scope.inner.lookup? name = some s
  rw [hscope]
  exact hdeclared

end Walk

/-- The types in the signature of a function. -/
def Symbol.types? : Symbol → Option (List Ty × Ty)
  | .function f => some f.types
  | _ => none

theorem Symbol.types?_renumber (σ : Nat → Nat) (s : Symbol) : (s.renumber σ).types? = s.types? := by
  cases s with
  | function f => exact congrArg some (f.types_renumber σ)
  | _ => rfl

/-- Programs that are the same up to numbers have functions of the same types. -/
theorem BoundProgram.SameUpTo.types? {σ : Equiv.Perm Nat} {p p' : BoundProgram}
    (h : p.SameUpTo σ p') (name : String) :
    (p'.symbol? name).bind Symbol.types? = (p.symbol? name).bind Symbol.types? := by
  have hlookup := Region.lookup?_renumber σ ⟨p.symbols⟩ name
  have hsymbol : p'.symbol? name = (p.symbol? name).map (Symbol.renumber σ) := by
    rw [BoundProgram.symbol?, h.symbols]
    exact hlookup
  rw [hsymbol]
  cases p.symbol? name with
  | none => rfl
  | some s => exact s.types?_renumber σ

namespace Walk

section

variable {w : Walk} {a b : Member} {name other : String}

/-- The types of two functions that are declared first are those that the program has. -/
theorem FreePair.types?_programFrom (h : w.FreePair a b name other)
    (ds : List VariableDeclaration) (members : List Member) :
    ((w.programFrom ds [] (a :: b :: members)).symbol? name).bind Symbol.types? =
        (signDeclared a w).1.types? ∧
      ((w.programFrom ds [] (a :: b :: members)).symbol? other).bind Symbol.types? =
        (signDeclared b (signDeclared a w).2).1.types? := by
  obtain ⟨f, g, rfl, rfl, hboth⟩ := h.declaresBoth
  obtain ⟨hf, hg⟩ := hboth.lookup? h
  have hprogram {name : String} {s : Symbol}
      (h : (signDeclared b (signDeclared a w).2).2.scope.inner.lookup? name = some s) :
      (w.programFrom ds [] (a :: b :: members)).symbol? name = some s :=
    symbol?_programFrom h ds [(signDeclared a w).1, (signDeclared b (signDeclared a w).2).1] members
  rw [hprogram hf, hprogram hg, hboth.first, hboth.second]
  exact ⟨rfl, rfl⟩

/-- If a function hides a type from a signature, no program is the same as those of both orders:
either the functions have other types or there are not as many faults. -/
theorem not_sameUpTo_swapped (hw : w.Settled) (hs : w.scope.Packageless)
    (h : w.FreePair a b name other) (htype : w.scope.namedType? name ≠ none)
    (hsought : ∃ n ∈ b.sought w.scope, n.name = name) {ds : List VariableDeclaration}
    {members : List Member} {p : BoundProgram} {σ τ : Equiv.Perm Nat}
    (hbefore : p.SameUpTo σ (w.programFrom ds [] (a :: b :: members))) :
    ¬ p.SameUpTo τ (w.programFrom ds [] (b :: a :: members)) := by
  intro hbehind
  obtain ⟨ha, hb⟩ := h.types?_programFrom ds members
  obtain ⟨hb', ha'⟩ := h.symm.types?_programFrom ds members
  have htypes (name : String) := (hbefore.types? name).trans (hbehind.types? name).symm
  have hless := undefined_lt_programFrom hw hs h htype hsought
    (hb.symm.trans ((htypes other).trans hb')) (ha.symm.trans ((htypes name).trans ha')) ds members
  have herrors := hbehind.errors.trans hbefore.errors.symm
  exact hless.ne ((herrors.map SemanticError.fault).count_eq _)

end

end Walk

/-! ### Programs in another order -/

section

variable {known : List PackageSymbol} {last : Nat} {members : List Member}

namespace Walk

theorem bindProgram_eq_programFrom (known : List PackageSymbol) (last : Nat)
    (members : List Member) :
    bindProgram known last members =
      (structsDeclared known last members).programFrom (globalVariables members) [] members := by
  have hsignatures := signatures_eq_signAll (structsDeclared known last members) members
  obtain ⟨hmembers, hsigned⟩ := signAll_signed members (structsDeclared known last members)
  rw [bindProgram_eq hmembers hsigned (congrArg Prod.fst hsignatures), functionsDeclared,
    hsignatures]
  rfl

/-- Functions are declared behind the structures. -/
theorem structsDeclared_cons {member : Member} {name : String}
    (h : member.functionName? = some name) (others : List Member) :
    structsDeclared known last (member :: others) = structsDeclared known last others := by
  cases member <;> first | rfl | cases h

end Walk

theorem globalVariables_cons {member : Member} {name : String}
    (h : member.functionName? = some name) (others : List Member) :
    globalVariables (member :: others) = globalVariables others := by
  cases member <;> first | rfl | cases h

theorem Member.statement?_eq_none {member : Member} {name : String}
    (h : member.functionName? = some name) : member.statement? = none := by
  cases member <;> first | rfl | cases h

/-- What looks types up for a signature declares a function. -/
theorem Member.exists_functionName? {s : Scope} {member : Member} {n : Ident}
    (h : n ∈ member.sought s) : ∃ name, member.functionName? = some name := by
  cases member with
  | function f => exact ⟨f.name.name, rfl⟩
  | external e => exact ⟨e.name.name, rfl⟩
  | _ => cases h

theorem Member.Hides.statement? {s : Scope} {f g : Member} (h : f.Hides s g) :
    f.statement? = none ∧ g.statement? = none := by
  obtain ⟨n, hn, hf, -⟩ := h
  obtain ⟨other, hg⟩ := Member.exists_functionName? hn
  exact ⟨Member.statement?_eq_none hf, Member.statement?_eq_none hg⟩

/-- Two functions of a program have different names, which are free before functions are declared.
-/
theorem freePair_structsDeclared {f g : Member} {rest : List Member} {name other : String}
    (hnames : (declaredNames known (f :: g :: rest)).Nodup) (hf : f.functionName? = some name)
    (hg : g.functionName? = some other) :
    (Walk.structsDeclared known last rest).FreePair f g name other := by
  have hfree {name : String} (hname : name ∈ (f :: g :: rest).filterMap Member.functionName?) :
      (Walk.structsDeclared known last rest).scope.inner.lookup? name = none := by
    have hlookup : (Walk.structsDeclared known last (f :: g :: rest)).scope.inner.lookup? name =
        none := Walk.lookup?_structsDeclared hnames hname
    rwa [Walk.structsDeclared_cons hf, Walk.structsDeclared_cons hg] at hlookup
  have hfunctions := hnames.of_append_right
  rw [List.filterMap_cons_some hf, List.filterMap_cons_some hg] at hfunctions hfree
  refine ⟨hf, hg, ?_, hfree List.mem_cons_self, hfree (List.mem_cons_of_mem _ List.mem_cons_self)⟩
  exact fun heq => (List.nodup_cons.1 hfunctions).1 (heq ▸ List.mem_cons_self)

theorem namedType?_structsDeclared {name : String}
    (hfree : (Walk.structsDeclared known last members).scope.inner.lookup? name = none)
    (hbuiltin : name ∈ Ty.builtinNames) :
    (Walk.structsDeclared known last members).scope.namedType? name ≠ none := by
  unfold Scope.namedType?
  rw [Scope.lookup?_eq_or, hfree, Option.none_or, Walk.around?_structsDeclared,
    Walk.around?_beginning, lookup?_prelude hbuiltin]
  exact Option.some_ne_none _

theorem bindProgram_cons_cons {f g : Member} {name other : String}
    (hf : f.functionName? = some name) (hg : g.functionName? = some other) (rest : List Member) :
    bindProgram known last (f :: g :: rest) =
      (Walk.structsDeclared known last rest).programFrom (globalVariables rest) []
        (f :: g :: rest) := by
  rw [Walk.bindProgram_eq_programFrom, Walk.structsDeclared_cons hf, Walk.structsDeclared_cons hg,
    globalVariables_cons hf, globalVariables_cons hg]

/-- If the order of the members does not matter, the first of two members hides no type from the
second one. -/
theorem not_hides_of_perm {f g : Member} {rest : List Member}
    (hknown : ∀ p ∈ known, p.CountsTo (Walk.beginning last).last)
    (hnames : (declaredNames known members).Nodup) (hperm : members.Perm (f :: g :: rest))
    (hall : ∀ members' : List Member, members.Perm members' →
      members'.filterMap Member.statement? = members.filterMap Member.statement? →
      ∃ σ : Equiv.Perm Nat,
        (bindProgram known last members).SameUpTo σ (bindProgram known last members'))
    (hstatements : rest.filterMap Member.statement? = members.filterMap Member.statement?) :
    ¬ f.Hides (Walk.structsDeclared known last members).scope g := by
  rintro ⟨n, hn, hf, hbuiltin⟩
  obtain ⟨other, hg⟩ := Member.exists_functionName? hn
  obtain ⟨ρ, hstructs⟩ :=
    Walk.corresponds_structsDeclared hperm hknown (Walk.earlySymbols_nodup hnames)
  rw [Walk.structsDeclared_cons hf, Walk.structsDeclared_cons hg] at hstructs
  have hfree : (Walk.structsDeclared known last rest).FreePair f g n.name other :=
    freePair_structsDeclared ((Walk.declaredNames_perm hperm hnames).nodup_iff.1 hnames) hf hg
  have htype := namedType?_structsDeclared hfree.free hbuiltin
  have hsought : n ∈ g.sought (Walk.structsDeclared known last rest).scope := by
    rw [hstructs.rearranged.scope, Member.sought_renumber]
    exact hn
  -- Both orders keep the statements.
  have hf' := Member.statement?_eq_none hf
  have hg' := Member.statement?_eq_none hg
  obtain ⟨σ, hbefore⟩ := hall (f :: g :: rest) hperm
    (by rw [List.filterMap_cons_none hf', List.filterMap_cons_none hg', hstatements])
  obtain ⟨τ, hbehind⟩ := hall (g :: f :: rest) (hperm.trans (.swap ..))
    (by rw [List.filterMap_cons_none hg', List.filterMap_cons_none hf', hstatements])
  rw [bindProgram_cons_cons hf hg] at hbefore
  rw [bindProgram_cons_cons hg hf] at hbehind
  exact Walk.not_sameUpTo_swapped hstructs.settled' Walk.packageless_structsDeclared hfree htype
    ⟨n, hsought, rfl⟩ hbefore hbehind

/-- Two members of a list in front of all others. -/
theorem exists_perm_of_sublist {a b : Member} {members : List Member}
    (h : [a, b].Sublist members) (ha : a.statement? = none) (hb : b.statement? = none) :
    ∃ rest, members.Perm (a :: b :: rest) ∧
      rest.filterMap Member.statement? = members.filterMap Member.statement? := by
  obtain ⟨front, behind, rfl, hfront, hbehind⟩ := List.cons_sublist_iff.1 h
  obtain ⟨s, t, rfl⟩ := List.append_of_mem hfront
  obtain ⟨u, v, rfl⟩ := List.append_of_mem (List.singleton_sublist.1 hbehind)
  refine ⟨s ++ t ++ (u ++ v), ?_, ?_⟩
  · have hmiddle : (a :: (s ++ t) ++ b :: (u ++ v)).Perm (a :: b :: (s ++ t ++ (u ++ v))) :=
      List.perm_middle.cons a
    exact (List.perm_middle.append List.perm_middle).trans hmiddle
  · simp [List.filterMap_append, List.filterMap_cons_none ha, List.filterMap_cons_none hb]

/-- Exactly if no function hides a built-in type from the signature of another member, programs
whose members are in another order are the same up to numbers. -/
theorem bindProgram_perm_iff
    (hknown : ∀ p ∈ known, p.CountsTo (Walk.beginning last).last)
    (hnames : (declaredNames known members).Nodup) :
    (∀ members' : List Member, members.Perm members' →
      members'.filterMap Member.statement? = members.filterMap Member.statement? →
      ∃ σ : Equiv.Perm Nat, Fixes σ (Walk.beginning last).last ∧
        (bindProgram known last members).SameUpTo σ (bindProgram known last members')) ↔
    Unhidden (Walk.structsDeclared known last members).scope members := by
  constructor
  · intro hall
    have hsame (members' : List Member) (hperm : members.Perm members')
        (hstatements : members'.filterMap Member.statement? =
          members.filterMap Member.statement?) :
        ∃ σ : Equiv.Perm Nat,
          (bindProgram known last members).SameUpTo σ (bindProgram known last members') := by
      obtain ⟨σ, -, hσ⟩ := hall members' hperm hstatements
      exact ⟨σ, hσ⟩
    refine List.pairwise_iff_forall_sublist.2 fun {a b} hsublist => ⟨?_, ?_⟩
    · intro hhides
      obtain ⟨ha, hb⟩ := hhides.statement?
      obtain ⟨rest, hperm, hstatements⟩ := exists_perm_of_sublist hsublist ha hb
      exact not_hides_of_perm hknown hnames hperm hsame hstatements hhides
    · intro hhides
      obtain ⟨hb, ha⟩ := hhides.statement?
      obtain ⟨rest, hperm, hstatements⟩ := exists_perm_of_sublist hsublist ha hb
      exact not_hides_of_perm hknown hnames (hperm.trans (.swap ..)) hsame hstatements hhides
  · intro hhides members' hperm hstatements
    exact bindProgram_perm hknown hnames hhides hperm hstatements

/-- In `fn f(x int) {} fn g() {}`, no function has the name of a built-in type. -/
theorem bindProgram_perm_iff_functions :
    let f : Member := .function
      ⟨none, ⟨0, 0, 2, 1, 1, 1, 3⟩, ⟨"f", ⟨0, 3, 4, 1, 4, 1, 5⟩⟩,
        [⟨⟨"x", ⟨0, 5, 6, 1, 6, 1, 7⟩⟩, ⟨none, ⟨"int", ⟨0, 7, 10, 1, 8, 1, 11⟩⟩, [], none⟩⟩], none,
        ⟨⟨0, 12, 13, 1, 13, 1, 14⟩, [], ⟨0, 13, 14, 1, 14, 1, 15⟩⟩⟩
    let g : Member := .function
      ⟨none, ⟨0, 15, 17, 1, 16, 1, 18⟩, ⟨"g", ⟨0, 18, 19, 1, 19, 1, 20⟩⟩, [], none,
        ⟨⟨0, 22, 23, 1, 23, 1, 24⟩, [], ⟨0, 23, 24, 1, 24, 1, 25⟩⟩⟩
    (declaredNames [] [f, g]).Nodup ∧
      ∃ σ : Equiv.Perm Nat, Fixes σ 5 ∧
        (bindProgram [] 0 [f, g]).SameUpTo σ (bindProgram [] 0 [g, f]) := by
  intro f g
  have hnames : (declaredNames [] [f, g]).Nodup := by
    decide
  have hunhidden : Unhidden (Walk.structsDeclared [] 0 [f, g]).scope [f, g] := by
    apply List.pairwise_pair.2
    constructor
    · rintro ⟨n, -, hname, hbuiltin⟩
      rw [← Option.some.inj hname] at hbuiltin
      exact absurd hbuiltin (by decide)
    · rintro ⟨n, -, hname, hbuiltin⟩
      rw [← Option.some.inj hname] at hbuiltin
      exact absurd hbuiltin (by decide)
  exact ⟨hnames, (bindProgram_perm_iff (List.forall_mem_nil _) hnames).2 hunhidden [g, f]
    (.swap ..) rfl⟩

/-- In `fn f(x int) {} fn int() {}`, the type of the parameter is a built-in one, but in the other
order there is no type of its name. -/
theorem not_bindProgram_perm_hidden :
    ∃ tokens f g, tokenize 0 true "fn f(x int) \x7b\x7d fn int() \x7b\x7d" = .ok tokens ∧
      parseProgram tokens = .ok [f, g] ∧ (declaredNames [] [f, g]).Nodup ∧
      [g, f].filterMap Member.statement? = [f, g].filterMap Member.statement? ∧
      ¬ ∃ σ : Equiv.Perm Nat, (bindProgram [] 0 [f, g]).SameUpTo σ (bindProgram [] 0 [g, f]) := by
  let tokens : List Token :=
    [⟨.keyword .fnWord, "fn", none, ⟨0, 0, 2, 1, 1, 1, 3⟩, true⟩,
      ⟨.identifier, "f", none, ⟨0, 3, 4, 1, 4, 1, 5⟩, false⟩,
      ⟨.sign .lparen, "(", none, ⟨0, 4, 5, 1, 5, 1, 6⟩, false⟩,
      ⟨.identifier, "x", none, ⟨0, 5, 6, 1, 6, 1, 7⟩, true⟩,
      ⟨.identifier, "int", none, ⟨0, 7, 10, 1, 8, 1, 11⟩, false⟩,
      ⟨.sign .rparen, ")", none, ⟨0, 10, 11, 1, 11, 1, 12⟩, true⟩,
      ⟨.sign .lbrace, "\x7b", none, ⟨0, 12, 13, 1, 13, 1, 14⟩, false⟩,
      ⟨.sign .rbrace, "\x7d", none, ⟨0, 13, 14, 1, 14, 1, 15⟩, true⟩,
      ⟨.keyword .fnWord, "fn", none, ⟨0, 15, 17, 1, 16, 1, 18⟩, true⟩,
      ⟨.identifier, "int", none, ⟨0, 18, 21, 1, 19, 1, 22⟩, false⟩,
      ⟨.sign .lparen, "(", none, ⟨0, 21, 22, 1, 22, 1, 23⟩, false⟩,
      ⟨.sign .rparen, ")", none, ⟨0, 22, 23, 1, 23, 1, 24⟩, true⟩,
      ⟨.sign .lbrace, "\x7b", none, ⟨0, 24, 25, 1, 25, 1, 26⟩, false⟩,
      ⟨.sign .rbrace, "\x7d", none, ⟨0, 25, 26, 1, 26, 1, 27⟩, true⟩,
      Token.ending ⟨0, 26, 26, 1, 27, 1, 27⟩]
  let f : Member := .function
    ⟨none, ⟨0, 0, 2, 1, 1, 1, 3⟩, ⟨"f", ⟨0, 3, 4, 1, 4, 1, 5⟩⟩,
      [⟨⟨"x", ⟨0, 5, 6, 1, 6, 1, 7⟩⟩, ⟨none, ⟨"int", ⟨0, 7, 10, 1, 8, 1, 11⟩⟩, [], none⟩⟩], none,
      ⟨⟨0, 12, 13, 1, 13, 1, 14⟩, [], ⟨0, 13, 14, 1, 14, 1, 15⟩⟩⟩
  let g : Member := .function
    ⟨none, ⟨0, 15, 17, 1, 16, 1, 18⟩, ⟨"int", ⟨0, 18, 21, 1, 19, 1, 22⟩⟩, [], none,
      ⟨⟨0, 24, 25, 1, 25, 1, 26⟩, [], ⟨0, 25, 26, 1, 26, 1, 27⟩⟩⟩
  refine ⟨tokens, f, g, ?_, ?_, ?_, rfl, ?_⟩
  · decide +kernel
  · dsimp only [tokens, f, g]
    cbv
  · decide
  · rintro ⟨σ, hsame⟩
    have hcount := hsame.errors.length_eq
    have hdiffer : (bindProgram [] 0 [g, f]).errors.length ≠
        (bindProgram [] 0 [f, g]).errors.length := by
      decide +kernel
    exact hdiffer hcount

end

end TodLang
