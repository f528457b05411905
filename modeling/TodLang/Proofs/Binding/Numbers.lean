import Mathlib.Order.Nat
import TodLang.Proofs.Binding.Accepted
/-!
The numbers of variables. A walk counts upwards, so no variable that it sees has a number that is
still to be taken (`Walk.Numbered`). Each thing that a walk does keeps this (`Walk.Continues`): one
lemma a thing, then statements by induction, then the stages of a program.
-/

namespace TodLang

namespace Region

theorem mem_foldr_insertSorted {t : Symbol} {added l : List Symbol} :
    t ∈ added.foldr insertSorted l ↔ t ∈ added ∨ t ∈ l := by
  induction added with
  | nil => simp
  | cons s others ih => simp [mem_insertSorted, ih, or_assoc]

theorem mem_of_declare? {r declaring : Region} {s t : Symbol} (h : r.declare? s = some declaring)
    (ht : t ∈ declaring.symbols) : t = s ∨ t ∈ r.symbols := by
  unfold declare? at h
  split at h
  · cases h
  · obtain rfl := Option.some.inj h
    exact mem_insertSorted.1 ht

/-- A structure that gets its fields is no variable. -/
theorem mem_setFields {r : Region} {name : String} {fields : List Variable} {t : Symbol}
    {v : Variable} (ht : t ∈ (r.setFields name fields).symbols) (hv : t.asVariable? = some v) :
    t ∈ r.symbols := by
  obtain ⟨s, hs, rfl⟩ := List.mem_map.1 ht
  cases s with
  | struct s =>
    dsimp only at hv
    split at hv <;> cases hv
  | _ => exact hs

end Region

/-- The prelude has the built-in types and the functions that every program has. -/
theorem mem_prelude {last : Nat} {symbol : Symbol} (h : symbol ∈ (prelude last).symbols) :
    (∃ name ∈ Ty.builtinNames, symbol = .type (.builtin name)) ∨
      ∃ f ∈ preludeFunctions last, symbol = .function f := by
  unfold prelude at h
  dsimp only at h
  rcases Region.mem_foldr_insertSorted.1 h with h | h
  · rcases List.mem_append.1 h with h | h
    · obtain ⟨name, hname, rfl⟩ := List.mem_map.1 h
      exact .inl ⟨name, hname, rfl⟩
    · obtain ⟨f, hf, rfl⟩ := List.mem_map.1 h
      exact .inr ⟨f, hf, rfl⟩
  · cases h

/-- The prelude has no variables. -/
theorem asVariable?_prelude {last : Nat} {symbol : Symbol} (h : symbol ∈ (prelude last).symbols) :
    symbol.asVariable? = none := by
  rcases mem_prelude h with ⟨name, -, rfl⟩ | ⟨f, -, rfl⟩ <;> rfl

namespace Scope

theorem exists_of_lookupVariable? {s : Scope} {name : String} {v : Variable}
    (h : s.lookupVariable? name = some v) :
    ∃ r ∈ s.regions, ∃ symbol ∈ r.symbols, symbol.asVariable? = some v := by
  obtain ⟨symbol, hsymbol, hv⟩ := Option.bind_eq_some_iff.1 h
  obtain ⟨r, hr, hlookup⟩ := List.exists_of_findSome?_eq_some hsymbol
  exact ⟨r, hr, symbol, List.mem_of_find?_eq_some hlookup, hv⟩

end Scope

namespace Walk

/-- Whether the variables that a walk sees have numbers that it has taken. -/
def Numbered (w : Walk) : Prop :=
  ∀ r ∈ w.scope.regions, ∀ symbol ∈ r.symbols, ∀ v, symbol.asVariable? = some v → v.id ≤ w.last

theorem Numbered.lookupVariable? {w : Walk} (h : w.Numbered) {name : String} {v : Variable}
    (hv : w.scope.lookupVariable? name = some v) : v.id ≤ w.last := by
  obtain ⟨r, hr, symbol, hsymbol, hvariable⟩ := Scope.exists_of_lookupVariable? hv
  exact h r hr symbol hsymbol v hvariable

/-- Whether a walk leads to another one that counts on from it. -/
structure Continues (w w' : Walk) : Prop where
  numbered : w.Numbered → w'.Numbered
  last : w.last ≤ w'.last

/-- A walk counts on if it only takes numbers. -/
theorem continues_of_eq {w w' : Walk} (hscope : w'.scope = w.scope) (hlast : w.last ≤ w'.last) :
    w.Continues w' := by
  refine ⟨?_, hlast⟩
  intro h r hr symbol hsymbol v hv
  rw [hscope] at hr
  exact (h r hr symbol hsymbol v hv).trans hlast

theorem Continues.refl (w : Walk) : w.Continues w :=
  continues_of_eq rfl le_rfl

theorem Continues.trans {w₁ w₂ w₃ : Walk} (h : w₁.Continues w₂) (h' : w₂.Continues w₃) :
    w₁.Continues w₃ :=
  ⟨h'.numbered ∘ h.numbered, h.last.trans h'.last⟩

theorem continues_foldl {α : Type} {step : Walk → α → Walk}
    (hstep : ∀ w x, Continues w (step w x)) (w : Walk) (l : List α) :
    w.Continues (l.foldl step w) := by
  induction l generalizing w with
  | nil => exact .refl w
  | cons x others ih => exact (hstep w x).trans (ih (step w x))

section

variable (w : Walk)

theorem leave_last : w.leave.last = w.last := by
  unfold leave
  cases w.scope.outer <;> rfl

theorem declare_last (symbol : Symbol) (span : Span) : (w.declare symbol span).last = w.last := by
  unfold declare
  cases w.scope.declare? symbol <;> rfl

/-- A variable is declared with a number that was taken. -/
theorem continues_declare {symbol : Symbol}
    (h : ∀ v, symbol.asVariable? = some v → v.id ≤ w.last) (span : Span) :
    w.Continues (w.declare symbol span) := by
  unfold declare
  cases hdeclare : w.scope.declare? symbol with
  | none => exact continues_of_eq rfl le_rfl
  | some scope =>
    obtain ⟨inner, hinner, rfl⟩ := Option.map_eq_some_iff.1 hdeclare
    refine ⟨?_, le_rfl⟩
    intro hw r hr t ht v hv
    rcases List.mem_cons.1 hr with rfl | hr
    · rcases Region.mem_of_declare? hinner ht with rfl | ht
      · exact h v hv
      · exact hw w.scope.inner List.mem_cons_self t ht v hv
    · exact hw r (List.mem_cons_of_mem _ hr) t ht v hv

/-- Other symbols than variables take no numbers. -/
theorem continues_declare_other {symbol : Symbol} (h : symbol.asVariable? = none) (span : Span) :
    w.Continues (w.declare symbol span) := by
  apply continues_declare
  intro v hv
  rw [h] at hv
  cases hv

theorem continues_enter : w.Continues w.enter := by
  refine ⟨?_, le_rfl⟩
  intro h r hr
  rcases List.mem_cons.1 hr with rfl | hr
  · exact fun symbol hsymbol => absurd hsymbol List.not_mem_nil
  · exact h r hr

theorem continues_leave : w.Continues w.leave := by
  unfold leave
  cases houter : w.scope.outer with
  | nil => exact .refl w
  | cons next others =>
    refine ⟨?_, le_rfl⟩
    intro h r hr
    have hregions : w.scope.regions = w.scope.inner :: next :: others :=
      congrArg (w.scope.inner :: ·) houter
    apply h
    rw [hregions]
    exact List.mem_cons_of_mem _ hr

theorem continues_countVariable : w.Continues w.countVariable :=
  continues_of_eq rfl (Nat.le_succ w.last)

theorem continues_expression (e : Expression) : w.Continues (w.expression e) :=
  continues_of_eq rfl le_rfl

theorem continues_optionalExpression (value : Option Expression) :
    w.Continues (w.optionalExpression value) := by
  cases value with
  | none => exact .refl w
  | some e => exact w.continues_expression e

/-- The type of a variable is found without taking a number. -/
theorem declaredType_last (d : VariableDeclaration) : (w.declaredType d).2.last = w.last := by
  unfold declaredType
  cases d.type <;> cases d.value <;> rfl

/-- What a walk makes of a variable's declaration. -/
def declaredVariable (d : VariableDeclaration) : Variable :=
  (w.declaredType d).2.newVariable d.name d.readOnly (w.declaredType d).1

theorem declareVariable_eq (make : Variable → Symbol) (d : VariableDeclaration) :
    w.declareVariable make d =
      (w.declaredType d).2.countVariable.declare (make (w.declaredVariable d)) d.name.span := rfl

/-- A variable takes the next number. -/
theorem declaredVariable_id (d : VariableDeclaration) : (w.declaredVariable d).id = w.last + 1 :=
  congrArg (· + 1) (w.declaredType_last d)

theorem continues_declareVariable {make : Variable → Symbol}
    (hmake : ∀ v, (make v).asVariable? = some v) (d : VariableDeclaration) :
    w.Continues (w.declareVariable make d) := by
  have htype : w.Continues (w.declaredType d).2 :=
    continues_of_eq (w.declaredType_scope d) (w.declaredType_last d).ge
  rw [declareVariable_eq]
  apply (htype.trans (continues_countVariable _)).trans
  apply continues_declare
  intro v hv
  rw [hmake] at hv
  obtain rfl := Option.some.inj hv
  exact le_rfl

theorem continues_localVariable (d : VariableDeclaration) : w.Continues (w.localVariable d) :=
  (w.continues_optionalExpression d.value).trans (continues_declareVariable _ (fun _ => rfl) d)

end

/-- What goes on in a region goes on around it. -/
theorem Continues.inside {w w' : Walk} (h : w.enter.Continues w') : w.Continues w'.leave :=
  (w.continues_enter.trans h).trans w'.continues_leave

mutual

/-- Binding a statement counts on. -/
theorem continues_statement (w : Walk) (s : Statement) : w.Continues (w.statement s) := by
  cases s with
  | block opening statements closing => exact (continues_statements w.enter statements).inside
  | declaration d => exact w.continues_localVariable d
  | ifThen keyword condition body =>
    have hbody := continues_statement (w.expression condition).enter body
    exact (w.continues_expression condition).trans hbody.inside
  | ifElse keyword condition body elseKeyword alternative =>
    have hbody := continues_statement (w.expression condition).enter body
    have halternative :=
      continues_statement ((w.expression condition).enter.statement body).leave.enter alternative
    exact ((w.continues_expression condition).trans hbody.inside).trans halternative.inside
  | «return» keyword value => exact w.continues_optionalExpression value
  | «for» keyword init condition step body =>
    let head := w.enter.localVariable init
    have hinit := w.enter.continues_localVariable init
    have hstep := continues_statement (head.expression condition) step
    have hbody := continues_statement ((head.expression condition).statement step).enter body
    have hhead := (hinit.trans (head.continues_expression condition)).trans hstep
    exact (hhead.trans hbody.inside).inside
  | «while» keyword condition body =>
    have hbody := continues_statement (w.expression condition).enter body
    exact (w.continues_expression condition).trans hbody.inside
  | «break» keyword => exact .refl w
  | «continue» keyword => exact .refl w
  | expression e => exact w.continues_expression e

theorem continues_statements (w : Walk) (statements : List Statement) :
    w.Continues (w.statements statements) := by
  cases statements with
  | nil => exact .refl w
  | cons s others =>
    have hfirst := continues_statement w s
    have hothers := continues_statements (w.statement s) others
    exact hfirst.trans hothers

end

/-! ### Declaring the members -/

theorem continues_packageUse (w : Walk) (name : Ident) : w.Continues (w.packageUse name) := by
  unfold packageUse
  cases w.scope.lookupPackage? name.name with
  | none => exact continues_of_eq rfl le_rfl
  | some package =>
    have hreport : w.Continues (w.report [.resolved name package.fingerprint]) :=
      continues_of_eq rfl le_rfl
    apply hreport.trans
    exact continues_foldl (fun w f => w.continues_declare_other rfl name.span) _ package.functions

theorem continues_structNames (w : Walk) (ds : List StructDeclaration) :
    w.Continues (w.structNames ds).2 := by
  induction ds generalizing w with
  | nil => exact .refl w
  | cons d others ih =>
    exact (w.continues_declare_other rfl d.name.span).trans (ih (w.structName d).2)

theorem fields_last (w : Walk) (known : List Variable) (ps : List Parameter) :
    w.last ≤ (w.fields known ps).2.last := by
  induction ps generalizing w known with
  | nil => exact le_rfl
  | cons field others ih =>
    unfold fields
    dsimp only
    split
    · exact ih ((w.type field.type).2.report _) known
    · exact (Nat.le_succ w.last).trans (ih (w.type field.type).2.countVariable _)

theorem continues_structFields (w : Walk) (d : StructDeclaration) :
    w.Continues (w.structFields d) := by
  have hfields : w.Continues (w.fields [] d.fields).2 :=
    continues_of_eq (w.fields_scope [] d.fields) (w.fields_last [] d.fields)
  apply hfields.trans
  refine ⟨?_, le_rfl⟩
  intro h r hr symbol hsymbol v hv
  rcases List.mem_cons.1 hr with rfl | hr
  · exact h _ List.mem_cons_self symbol (Region.mem_setFields hsymbol hv) v hv
  · exact h r (List.mem_cons_of_mem _ hr) symbol hsymbol v hv

/-- Parameters take one number after another. -/
theorem parameters_last (w : Walk) (ps : List Parameter) :
    w.last ≤ (w.parameters ps).2.last ∧
      ∀ v ∈ (w.parameters ps).1, v.id ≤ (w.parameters ps).2.last := by
  induction ps generalizing w with
  | nil => exact ⟨le_rfl, List.forall_mem_nil _⟩
  | cons p others ih =>
    obtain ⟨hlast, hothers⟩ := ih (w.type p.type).2.countVariable
    refine ⟨(Nat.le_succ w.last).trans hlast, ?_⟩
    exact List.forall_mem_cons.2 ⟨hlast, hothers⟩

/-- Whether the parameters of functions have numbers that a walk has taken. -/
def Counts (w : Walk) (symbols : List FunctionSymbol) : Prop :=
  ∀ symbol ∈ symbols, ∀ v ∈ symbol.parameters, v.id ≤ w.last

theorem Counts.mono {w w' : Walk} {symbols : List FunctionSymbol} (h : w.Counts symbols)
    (hlast : w.last ≤ w'.last) : w'.Counts symbols :=
  fun symbol hsymbol v hv => (h symbol hsymbol v hv).trans hlast

theorem signature_last (w : Walk) (name : Ident) (ps : List Parameter)
    (returnType : Option TypeClause) (span : Span) :
    w.last ≤ (w.signature name ps returnType span).2.last ∧
      ∀ v ∈ (w.signature name ps returnType span).1.parameters,
        v.id ≤ (w.signature name ps returnType span).2.last := by
  have hparameters := w.parameters_last ps
  cases returnType <;> exact hparameters

theorem continues_signature (w : Walk) (name : Ident) (ps : List Parameter)
    (returnType : Option TypeClause) (span : Span) :
    w.Continues (w.signature name ps returnType span).2 :=
  continues_of_eq (w.signature_scope ..) (w.signature_last ..).1

theorem continues_signatures (w : Walk) (members : List Member) :
    w.Continues (w.signatures members).2 ∧
      (w.signatures members).2.Counts (w.signatures members).1 := by
  induction members generalizing w with
  | nil => exact ⟨.refl w, List.forall_mem_nil _⟩
  | cons member others ih =>
    cases member with
    | function f =>
      let signed := w.signature f.name f.parameters f.returnType (Member.function f).span
      let symbol := { signed.1 with isPublic := f.visibility.isSome }
      have hsignature : w.Continues signed.2 := w.continues_signature ..
      have hdeclare : signed.2.Continues (signed.2.declare (.function symbol) f.name.span) :=
        signed.2.continues_declare_other rfl f.name.span
      obtain ⟨hothers, hcounts⟩ := ih (signed.2.declare (.function symbol) f.name.span)
      refine ⟨(hsignature.trans hdeclare).trans hothers, ?_⟩
      refine List.forall_mem_cons.2 ⟨?_, hcounts⟩
      intro v hv
      exact ((w.signature_last ..).2 v hv).trans (hdeclare.trans hothers).last
    | external e =>
      let signed := w.signature e.name e.parameters e.returnType (Member.external e).span
      have hsignature : w.Continues signed.2 := w.continues_signature ..
      have hdeclare : signed.2.Continues
          (signed.2.declare (.function signed.1.asExternal) e.name.span) :=
        signed.2.continues_declare_other rfl e.name.span
      obtain ⟨hothers, hcounts⟩ := ih (signed.2.declare (.function signed.1.asExternal) e.name.span)
      exact ⟨(hsignature.trans hdeclare).trans hothers, hcounts⟩
    | _ => exact ih w

/-! ### Binding the members -/

theorem continues_declareParameters {w : Walk} {parameters : List Variable}
    (h : ∀ v ∈ parameters, v.id ≤ w.last) (opening : Span) :
    w.Continues (w.declareParameters opening parameters) := by
  induction parameters generalizing w with
  | nil => exact .refl w
  | cons p others ih =>
    obtain ⟨hp, hothers⟩ := List.forall_mem_cons.1 h
    have hdeclare : w.Continues (w.declare (.parameter p) (p.declaration.getD opening)) := by
      apply continues_declare
      intro v hv
      obtain rfl := Option.some.inj hv
      exact hp
    apply hdeclare.trans
    exact ih fun v hv => (hothers v hv).trans hdeclare.last

/-- The beginning of a function's body. -/
def body (w : Walk) (symbol : FunctionSymbol) (opening : Span) : Walk :=
  { w with closed := [] }.enter.declareParameters opening symbol.parameters

theorem continues_body {w : Walk} {symbol : FunctionSymbol}
    (h : ∀ v ∈ symbol.parameters, v.id ≤ w.last) (opening : Span) :
    w.Continues (w.body symbol opening) := by
  let closed : Walk := { w with closed := [] }
  have hclosed : w.Continues closed := continues_of_eq rfl le_rfl
  have hparameters : ∀ v ∈ symbol.parameters, v.id ≤ closed.enter.last := h
  exact (hclosed.trans closed.continues_enter).trans
    (continues_declareParameters hparameters opening)

theorem continues_functionBody {w : Walk} {symbol : FunctionSymbol}
    (h : ∀ v ∈ symbol.parameters, v.id ≤ w.last) (block : Block) :
    w.Continues (w.functionBody symbol block).2 := by
  have hbody := (continues_body h block.opening).trans (continues_statements _ block.statements)
  exact (hbody.trans (continues_leave _)).trans (continues_of_eq rfl le_rfl)

theorem continues_globalStatement (w : Walk) (s : Statement) :
    w.Continues (w.globalStatement s) :=
  (continues_statement w.enter s).inside.trans (continues_of_eq rfl le_rfl)

/-! ### The whole program -/

theorem numbered_beginning (last : Nat) : (beginning last).Numbered := by
  intro r hr symbol hsymbol v hv
  rcases List.mem_cons.1 hr with rfl | hr
  · cases hsymbol
  · obtain rfl := List.mem_singleton.1 hr
    rw [asVariable?_prelude hsymbol] at hv
    cases hv

section

variable (known : List PackageSymbol) (last : Nat) (members : List Member)

theorem continues_structsDeclared :
    (beginning last).Continues (structsDeclared known last members) := by
  have hpackages : (beginning last).Continues (packagesDeclared known last members) :=
    continues_foldl (fun w _ => w.continues_declare_other rfl _) _ _
  have huses : (packagesDeclared known last members).Continues (usesDeclared known last members) :=
    continues_foldl continues_packageUse _ _
  have hnames : (usesDeclared known last members).Continues (structsNamed known last members).2 :=
    continues_structNames _ _
  have hfields : (structsNamed known last members).2.Continues
      (structsDeclared known last members) := continues_foldl continues_structFields _ _
  exact ((hpackages.trans huses).trans hnames).trans hfields

theorem numbered_functionsDeclared : (functionsDeclared known last members).Numbered :=
  (continues_signatures _ members).1.numbered
    ((continues_structsDeclared known last members).numbered (numbered_beginning last))

theorem continues_declaring :
    (functionsDeclared known last members).Continues (declaring known last members) :=
  continues_foldl (fun w d => w.continues_declareVariable (fun _ => rfl) d) _ _

theorem numbered_declaring : (declaring known last members).Numbered :=
  (continues_declaring known last members).numbered (numbered_functionsDeclared known last members)

end

end Walk

end TodLang
