import TodLang.Proofs.Binding.Resolution
import TodLang.Proofs.Binding.Stages
/-!
Which structures of a program are accepted: those whose symbol the program has in the end. The first
declaration of a name counts, so what a name stands for stays declared where it was first declared
(`Region.Keeps`), and a structure that came too late is not the one that the name stands for.
-/

namespace TodLang

namespace BoundProgram

/-- Whether a program has a structure of a given declaration. -/
def accepts (p : BoundProgram) (d : StructDeclaration) : Bool :=
  ((p.symbol? d.name.name).bind Symbol.asStruct?).any
    (·.declaration == some (Member.struct d).span)

end BoundProgram

namespace Region

/-- Where the structure that a name stands for is declared. A name that stands for another symbol
has no such place. -/
def origin? (r : Region) (name : String) : Option (Option Span) :=
  (r.lookup? name).map fun symbol => symbol.asStruct?.bind StructSymbol.declaration

/-- Whether the names of one region stand in another for what was declared where they were. -/
def Keeps (r r' : Region) : Prop :=
  ∀ name origin, r.origin? name = some origin → r'.origin? name = some origin

theorem Keeps.refl (r : Region) : r.Keeps r :=
  fun _ _ h => h

theorem Keeps.trans {r₁ r₂ r₃ : Region} (h : r₁.Keeps r₂) (h' : r₂.Keeps r₃) : r₁.Keeps r₃ :=
  fun name origin horigin => h' name origin (h name origin horigin)

theorem origin?_declare? {r declaring : Region} {s : Symbol} (h : r.declare? s = some declaring)
    (name : String) :
    declaring.origin? name =
      if s.name = name then some (s.asStruct?.bind StructSymbol.declaration)
      else r.origin? name := by
  unfold origin?
  rw [lookup?_declare? h]
  split <;> rfl

theorem keeps_declare? {r declaring : Region} {s : Symbol} (h : r.declare? s = some declaring) :
    r.Keeps declaring := by
  intro name origin horigin
  rw [origin?_declare? h, if_neg, horigin]
  rintro rfl
  have hfresh := declares_of_declare? h
  have hnone : r.lookup? s.name = none := by simpa [declares] using hfresh
  simp [origin?, hnone] at horigin

theorem exists_origin? {r : Region} {name : String} (h : r.declares name = true) :
    ∃ origin, r.origin? name = some origin := by
  obtain ⟨symbol, hsymbol⟩ := Option.isSome_iff_exists.1 h
  exact ⟨_, congrArg (Option.map _) hsymbol⟩

/-- Symbols may change where their names and their places stay. -/
theorem origin?_map {change : Symbol → Symbol} (hname : ∀ s, (change s).name = s.name)
    (hplace : ∀ s, (change s).asStruct?.bind StructSymbol.declaration =
      s.asStruct?.bind StructSymbol.declaration) (r : Region) (name : String) :
    (⟨r.symbols.map change⟩ : Region).origin? name = r.origin? name := by
  have hfind : (r.symbols.map change).find? (·.name == name) =
      (r.symbols.find? (·.name == name)).map change := by
    rw [List.find?_map]
    congr 2
    funext s
    exact congrArg (· == name) (hname s)
  change Option.map _ ((r.symbols.map change).find? _) = Option.map _ (r.symbols.find? _)
  rw [hfind, Option.map_map]
  congr 1
  funext s
  exact hplace s

/-- A structure keeps its place when it gets its fields. -/
theorem origin?_setFields (r : Region) (changed : String) (fields : List Variable)
    (name : String) : (r.setFields changed fields).origin? name = r.origin? name := by
  apply origin?_map
  · intro s
    cases s with
    | struct s => by_cases hs : s.name = changed <;> simp [hs, Symbol.name]
    | _ => rfl
  · intro s
    cases s with
    | struct s => by_cases hs : s.name = changed <;> simp [hs, Symbol.asStruct?]
    | _ => rfl

/-- Whether no name stands for a structure that is declared in the program. -/
def Structless (r : Region) : Prop :=
  ∀ name span, r.origin? name ≠ some (some span)

end Region

namespace Walk

/-- The program's own region, or whichever a walk is in. -/
def Keeps (w w' : Walk) : Prop :=
  w.scope.inner.Keeps w'.scope.inner

theorem inner_declare (w : Walk) (symbol : Symbol) (span : Span) :
    w.scope.inner.declare? symbol = some (w.declare symbol span).scope.inner ∨
      w.scope.inner.declares symbol.name = true ∧
        (w.declare symbol span).scope.inner = w.scope.inner := by
  unfold declare Scope.declare?
  cases hdeclare : w.scope.inner.declare? symbol with
  | some declaring => exact .inl rfl
  | none => exact .inr ⟨Region.declares_of_declare?_none hdeclare, rfl⟩

theorem keeps_of_eq {w w' : Walk} (h : w'.scope.inner = w.scope.inner) : w.Keeps w' := by
  unfold Keeps
  rw [h]
  exact .refl _

theorem keeps_declare (w : Walk) (symbol : Symbol) (span : Span) :
    w.Keeps (w.declare symbol span) := by
  rcases w.inner_declare symbol span with hdeclare | ⟨-, hinner⟩
  · exact Region.keeps_declare? hdeclare
  · exact keeps_of_eq hinner

theorem keeps_foldl {α : Type} {step : Walk → α → Walk} (hstep : ∀ w x, Keeps w (step w x))
    (w : Walk) (l : List α) : w.Keeps (l.foldl step w) := by
  induction l generalizing w with
  | nil => exact keeps_of_eq rfl
  | cons x others ih => exact (hstep w x).trans (ih (step w x))

theorem keeps_structNames (w : Walk) (ds : List StructDeclaration) :
    w.Keeps (w.structNames ds).2 := by
  induction ds generalizing w with
  | nil => exact keeps_of_eq rfl
  | cons d others ih => exact (w.keeps_declare _ d.name.span).trans (ih (w.structName d).2)

theorem keeps_structFields (w : Walk) (d : StructDeclaration) : w.Keeps (w.structFields d) := by
  have hfields := w.fields_scope [] d.fields
  intro name origin horigin
  change ((w.fields [] d.fields).2.scope.inner.setFields _ _).origin? name = some origin
  rw [Region.origin?_setFields, hfields]
  exact horigin

theorem keeps_signatures (w : Walk) (member : Member) : w.Keeps (w.signatures [member]).2 := by
  cases member with
  | function f =>
    have hscope := w.signature_scope f.name f.parameters f.returnType (Member.function f).span
    exact (keeps_of_eq (congrArg Scope.inner hscope)).trans (keeps_declare _ _ f.name.span)
  | external e =>
    have hscope := w.signature_scope e.name e.parameters e.returnType (Member.external e).span
    exact (keeps_of_eq (congrArg Scope.inner hscope)).trans (keeps_declare _ _ e.name.span)
  | _ => exact keeps_of_eq rfl

theorem declaredType_scope (w : Walk) (d : VariableDeclaration) :
    (w.declaredType d).2.scope = w.scope := by
  unfold declaredType
  cases d.type <;> cases d.value <;> rfl

theorem keeps_declareVariable (w : Walk) (make : Variable → Symbol) (d : VariableDeclaration) :
    w.Keeps (w.declareVariable make d) := by
  have hscope := w.declaredType_scope d
  unfold declareVariable
  generalize w.declaredType d = typed at hscope ⊢
  obtain ⟨type, next⟩ := typed
  have hnext : w.Keeps next.countVariable := keeps_of_eq (congrArg Scope.inner hscope)
  exact hnext.trans (keeps_declare _ _ d.name.span)

/-- A declaration gives a name no other place than its own. -/
theorem origin?_declare_ne {w : Walk} {symbol : Symbol} {name : String} {place : Span}
    (hsymbol : symbol.asStruct?.bind StructSymbol.declaration ≠ some place)
    (h : w.scope.inner.origin? name ≠ some (some place)) (span : Span) :
    (w.declare symbol span).scope.inner.origin? name ≠ some (some place) := by
  rcases w.inner_declare symbol span with hdeclare | ⟨-, hinner⟩
  · rw [Region.origin?_declare? hdeclare]
    split
    · intro heq
      exact hsymbol (Option.some.inj heq)
    · exact h
  · rw [hinner]
    exact h

/-- Before the structures, only packages and their functions are declared. -/
theorem structless_declare {w : Walk} {symbol : Symbol} (h : w.scope.inner.Structless)
    (hsymbol : symbol.asStruct? = none) (span : Span) :
    (w.declare symbol span).scope.inner.Structless := by
  intro name place
  apply origin?_declare_ne ?_ (h name place)
  simp [hsymbol]

theorem structless_foldl {α : Type} {step : Walk → α → Walk}
    (hstep : ∀ w x, w.scope.inner.Structless → (step w x).scope.inner.Structless) {w : Walk}
    (h : w.scope.inner.Structless) (l : List α) : (l.foldl step w).scope.inner.Structless := by
  induction l generalizing w with
  | nil => exact h
  | cons x others ih => exact ih (hstep w x h)

theorem structless_packageUse (w : Walk) (name : Ident) (h : w.scope.inner.Structless) :
    (w.packageUse name).scope.inner.Structless := by
  unfold packageUse
  cases w.scope.lookupPackage? name.name with
  | none => exact h
  | some package =>
    have hreport : (w.report [.resolved name package.fingerprint]).scope.inner.Structless := h
    apply structless_foldl ?_ hreport
    intro w f hw
    exact structless_declare hw rfl name.span

theorem structless_usesDeclared (known : List PackageSymbol) (last : Nat)
    (members : List Member) : (usesDeclared known last members).scope.inner.Structless := by
  have hempty : (beginning last).scope.inner.Structless := by
    intro name span horigin
    cases horigin
  have hpackages : (packagesDeclared known last members).scope.inner.Structless := by
    apply structless_foldl ?_ hempty
    intro w reference hw
    exact structless_declare hw rfl reference.2.span
  exact structless_foldl structless_packageUse hpackages (packageUses members)

/-- The structures that are the first of their name are those that their names stand for. -/
theorem structNames_eq_filter {w : Walk} {ds : List StructDeclaration} {final : Region}
    (hdistinct : ds.Pairwise fun a b => (Member.struct a).span ≠ (Member.struct b).span)
    (hfresh : ∀ d ∈ ds, ∀ name, w.scope.inner.origin? name ≠ some (some (Member.struct d).span))
    (hkeeps : (w.structNames ds).2.scope.inner.Keeps final) :
    (w.structNames ds).1 =
      ds.filter fun d => final.origin? d.name.name == some (some (Member.struct d).span) := by
  induction ds generalizing w with
  | nil => rfl
  | cons d others ih =>
    rcases List.pairwise_cons.1 hdistinct with ⟨hother, hothers⟩
    let place := (Member.struct d).span
    let symbol : Symbol := .struct ⟨d.name.name, [], some place⟩
    -- The structure itself is the only one that is declared here.
    have hnew : ∀ e ∈ others, ∀ name,
        (w.declare symbol d.name.span).scope.inner.origin? name ≠
          some (some (Member.struct e).span) := by
      intro e he name
      apply origin?_declare_ne ?_ (hfresh e (List.mem_cons_of_mem d he) name)
      exact fun heq => hother e he (Option.some.inj heq)
    have hrest := ih hothers hnew hkeeps
    have hkept : (w.declare symbol d.name.span).scope.inner.Keeps final :=
      (keeps_structNames (w.structName d).2 others).trans hkeeps
    have hstep : (w.structNames (d :: others)).1 =
        if !w.scope.inner.declares d.name.name then
          d :: ((w.declare symbol d.name.span).structNames others).1
        else ((w.declare symbol d.name.span).structNames others).1 := rfl
    rw [hstep, hrest, List.filter_cons]
    rcases w.inner_declare symbol d.name.span with hdeclare | ⟨hdeclares, hinner⟩
    · have hfirst : w.scope.inner.declares d.name.name = false :=
        Region.declares_of_declare? hdeclare
      have hplace : final.origin? d.name.name = some (some place) := by
        apply hkept
        rw [Region.origin?_declare? hdeclare]
        exact if_pos rfl
      simp [hfirst, hplace, place]
    · have hdeclared : w.scope.inner.declares d.name.name = true := hdeclares
      obtain ⟨origin, horigin⟩ := Region.exists_origin? hdeclared
      have hlate : origin ≠ some place := by
        rintro rfl
        exact hfresh d List.mem_cons_self d.name.name horigin
      have hplace : final.origin? d.name.name = some origin := by
        apply hkept
        rw [hinner]
        exact horigin
      have hother : (final.origin? d.name.name == some (some place)) = false := by
        simpa [hplace] using hlate
      rw [hdeclared, hother]
      rfl

end Walk

namespace BoundProgram

theorem accepts_eq (p : BoundProgram) (d : StructDeclaration) :
    p.accepts d =
      ((⟨p.symbols⟩ : Region).origin? d.name.name == some (some (Member.struct d).span)) := by
  unfold accepts symbol? Region.origin? Region.lookup?
  dsimp only
  cases p.symbols.find? (·.name == d.name.name) with
  | none => rfl
  | some symbol => cases symbol <;> simp [Symbol.asStruct?]

end BoundProgram

open Walk in
/-- The structures whose fields are bound are those that the program has in the end, if no two
structures are declared at one place. -/
theorem structsNamed_eq_filter (known : List PackageSymbol) (last : Nat) {members : List Member}
    (hdistinct : (structDeclarations members).Pairwise fun a b =>
      (Member.struct a).span ≠ (Member.struct b).span) :
    (structsNamed known last members).1 =
      (structDeclarations members).filter (bindProgram known last members).accepts := by
  let p := bindProgram known last members
  have hscope := congrArg Scope.inner (programScope_eq known last members)
  have hsymbols : (⟨p.symbols⟩ : Region) = (declaring known last members).scope.inner := hscope
  have hfields : (structsNamed known last members).2.Keeps (structsDeclared known last members) :=
    keeps_foldl keeps_structFields _ _
  have hsignatures :
      (structsDeclared known last members).Keeps (functionsDeclared known last members) := by
    have hfold := keeps_foldl keeps_signatures (structsDeclared known last members) members
    rw [← signatures_snd] at hfold
    exact hfold
  have hglobals : (functionsDeclared known last members).Keeps (declaring known last members) :=
    keeps_foldl (fun w d => keeps_declareVariable w .globalVariable d) _ _
  have hkeeps := (hfields.trans hsignatures).trans hglobals
  have hstructless := structless_usesDeclared known last members
  have hnamed := structNames_eq_filter hdistinct (fun d _ name => hstructless name _) hkeeps
  rw [structsNamed, hnamed]
  congr 1
  funext d
  change _ = p.accepts d
  rw [p.accepts_eq, hsymbols]

end TodLang
