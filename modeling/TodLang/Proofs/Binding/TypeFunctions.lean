import TodLang.Proofs.Binding.CallTypes
import TodLang.Proofs.Binding.TypeSources
/-!
Functions of built-in types. They are looked for by the names of types alone. So a call finds the
function of the type that its receiver has unless this type is not built in but has the name of one
that is: then it is taken for the built-in one (`bindProgram_typeFunctions`).
-/

namespace TodLang

open Node (Within)
open Finding (foundAt)
open TodLang.Symbol (Tells)

/-- Whether a type is a given built-in one, whatever it is made from. -/
def Ty.IsA (t builtin : Ty) : Prop :=
  t = { builtin with arguments := t.arguments }

theorem Ty.IsA.name_eq {t builtin : Ty} (h : t.IsA builtin) : t.name = builtin.name := by
  unfold Ty.IsA at h
  rw [h]

/-- The function of a type that is called, perhaps behind `main`. -/
def Expression.typeCall? : Expression → Option Ident
  | typeCall _ callee _ _ => some callee
  | main _ inner => inner.typeCall?
  | _ => none

/-- The type of what a function is called on. -/
def Scope.receiverOf? (s : Scope) : Expression → Option Ty
  | .typeCall receiver _ _ _ => (s.lookup? receiver.name).bind receiverType?
  | .main _ inner => s.program.receiverOf? inner
  | _ => none

/-- Whether a function of a given name is called on a type of a given name, or if nothing is known
of what it is called on. -/
def Offers (functions : List TypeFunction) (type name : String) : Prop :=
  type = "any" ∨ ∃ f ∈ functions, f.origin.name = type ∧ f.name = name

/-- Whether a program leaves it open what a name stands for. -/
def BoundProgram.Unchecked (p : BoundProgram) (n : Ident) : Prop :=
  p.resolutionsAt n.span = [⟨n, none⟩] ∧ p.errorsAt n.span = []

/-- Whether a program takes a function that is called for one of the type that it is called on, and
leaves it open only if nothing is known of what it is called on. -/
structure BoundProgram.KeepsTo (p : BoundProgram) (functions : List TypeFunction) (callee : Ident)
    (receiver : Option Ty) : Prop where
  resolved : ∀ fingerprint, ⟨callee, some fingerprint⟩ ∈ p.resolutions →
    ∃ f ∈ functions, f.fingerprint = fingerprint ∧ ∃ t, receiver = some t ∧ t.IsA f.origin
  unchecked : p.Unchecked callee → ∃ t, receiver = some t ∧ t.IsA .any

/-! ### Looking for functions of types -/

/-- Functions belong to built-in types. -/
theorem origin_eq {last : Nat} {f : TypeFunction} (hf : f ∈ typeFunctions last) :
    f.origin = .builtin f.origin.name := by
  simp only [typeFunctions, List.mem_cons, List.not_mem_nil, or_false] at hf
  rcases hf with rfl | rfl | rfl | rfl | rfl <;> rfl

/-- A function is found by its own name and the name of its type. -/
theorem findTypeFunction?_eq_some_iff {last : Nat} {t : Ty} {name : String} {f : TypeFunction} :
    findTypeFunction? (typeFunctions last) t name = some f ↔
      f ∈ typeFunctions last ∧ f.origin.name = t.name ∧ f.name = name := by
  constructor
  · intro h
    have hnames := List.find?_some h
    rw [Bool.and_eq_true, beq_iff_eq, beq_iff_eq] at hnames
    exact ⟨List.mem_of_find?_eq_some h, hnames⟩
  · rintro ⟨hf, htype, rfl⟩
    have hnodup : ((typeFunctions last).map fun f => (f.origin.name, f.name)).Nodup := by
      have hnames : (typeFunctions last).map (fun f => (f.origin.name, f.name)) =
          [("array", "push"), ("array", "pop"), ("array", "length"), ("string", "length"),
            ("string", "substring")] := rfl
      rw [hnames]
      decide
    cases hfind : findTypeFunction? (typeFunctions last) t f.name with
    | none =>
      have hnone := List.find?_eq_none.1 hfind f hf
      simp [htype] at hnone
    | some g =>
      have hnames := List.find?_some hfind
      rw [Bool.and_eq_true, beq_iff_eq, beq_iff_eq] at hnames
      have hsame := List.inj_on_of_nodup_map hnodup (List.mem_of_find?_eq_some hfind) hf
        (Prod.ext (hnames.1.trans htype.symm) hnames.2)
      rw [hsame]

/-- A type of the name of an unknown one has no functions. -/
theorem findTypeFunction?_of_any (last : Nat) {t : Ty} (ht : t.name = "any") (name : String) :
    findTypeFunction? (typeFunctions last) t name = none := by
  rw [← findTypeFunction?_any last name, findTypeFunction?, findTypeFunction?, ht]
  rfl

/-! ### What is found of a call -/

theorem Expression.call?_of_typeCall? {e : Expression} {callee : Ident}
    (h : e.typeCall? = some callee) : ∃ count, e.call? = some (callee, count) := by
  cases e with
  | typeCall receiver n arguments closing =>
    obtain rfl := Option.some.inj h
    exact ⟨_, rfl⟩
  | main keyword inner => exact call?_of_typeCall? (e := inner) h
  | _ => cases h

namespace Scope

variable {functions : List TypeFunction}

/-- What is called is the function that is found for the type of the receiver. -/
theorem callee?_of_typeCall? {s : Scope} {e : Expression} {callee : Ident}
    (h : e.typeCall? = some callee) :
    s.callee? functions e =
      ((s.receiverOf? e).bind (findTypeFunction? functions · callee.name)).map .typeFunction := by
  cases e with
  | typeCall receiver n arguments closing =>
    obtain rfl := Option.some.inj h
    rfl
  | main keyword inner => exact callee?_of_typeCall? (s := s.program) (e := inner) h
  | _ => cases h

theorem foundAt_useTypeFunction (t : Ty) (callee : Ident) (count : Nat) :
    foundAt callee.span (useTypeFunction functions t callee count) =
      useTypeFunction functions t callee count := by
  unfold useTypeFunction
  cases findTypeFunction? functions t callee.name with
  | some f => exact (Callee.typeFunction f).foundAt_findings callee count
  | none =>
    dsimp only
    split <;> simp [foundAt, Finding.place?, Finding.unresolved, Finding.fault,
      SemanticFault.isOfUse]

/-- If it is known what a function is called on, what is found at its name is what is found of it
for this type. -/
theorem foundAt_of_receiver {s : Scope} {e : Expression} {r : Reference} {callee : Ident} {t : Ty}
    (h : e.typeCall? = some callee) (hr : e.reference? = some r)
    (hnames : (r.names.map Ident.span).Nodup) (ht : s.receiverOf? e = some t) :
    ∃ count, foundAt callee.span (r.findings functions s) =
      useTypeFunction functions t callee count := by
  cases e with
  | typeCall receiver n arguments closing =>
    obtain rfl := Option.some.inj h
    obtain rfl := Option.some.inj hr
    have hne : receiver.span ≠ n.span := by
      simpa [Reference.names, Reference.head, Reference.follower?] using hnames
    obtain ⟨symbol, hsymbol, htype⟩ := Option.bind_eq_some_iff.1 ht
    refine ⟨arguments.length, ?_⟩
    rw [Reference.findings, useTypeCall, hsymbol]
    dsimp only
    rw [htype, Finding.foundAt_resolved_ne hne]
    exact foundAt_useTypeFunction t n arguments.length
  | main keyword inner =>
    obtain ⟨use, huse, rfl⟩ := Option.map_eq_some_iff.1 hr
    exact foundAt_of_receiver (s := s.program) (e := inner) h huse hnames ht
  | _ => cases h

/-- If it is not known what a function is called on, nothing is found at its name, or it is a fault
to call it. -/
theorem foundAt_of_no_receiver {s : Scope} {e : Expression} {r : Reference} {callee : Ident}
    (h : e.typeCall? = some callee) (hr : e.reference? = some r)
    (hnames : (r.names.map Ident.span).Nodup) (ht : s.receiverOf? e = none) :
    foundAt callee.span (r.findings functions s) = [] ∨
      ∃ text, foundAt callee.span (r.findings functions s) =
        [.fault (.notCallable text) callee.span, .unresolved callee] := by
  cases e with
  | typeCall receiver n arguments closing =>
    obtain rfl := Option.some.inj h
    obtain rfl := Option.some.inj hr
    have hne : receiver.span ≠ n.span := by
      simpa [Reference.names, Reference.head, Reference.follower?] using hnames
    rw [Reference.findings, useTypeCall]
    cases hsymbol : s.lookup? receiver.name with
    | none =>
      left
      simp [foundAt, Finding.place?, Finding.unresolved, Finding.fault, SemanticFault.isOfUse, hne]
    | some symbol =>
      have htype : receiverType? symbol = none := by
        simpa [receiverOf?, hsymbol] using ht
      right
      refine ⟨receiver.name ++ "." ++ n.name, ?_⟩
      dsimp only
      rw [htype, Finding.foundAt_resolved_ne hne]
      simp [foundAt, Finding.place?, Finding.unresolved, Finding.fault, SemanticFault.isOfUse]
  | main keyword inner =>
    obtain ⟨use, huse, rfl⟩ := Option.map_eq_some_iff.1 hr
    exact foundAt_of_no_receiver (s := s.program) (e := inner) h huse hnames ht
  | _ => cases h

/-- What a function is called on has a type that comes from the program. -/
theorem arises_receiverOf {known : List PackageSymbol} {last : Nat} {members : List Member}
    {s : Scope} (h : s.Among (Tells known last members)) {e : Expression} {t : Ty}
    (ht : s.receiverOf? e = some t) : t.Arises known last members := by
  cases e with
  | typeCall receiver callee arguments closing =>
    obtain ⟨symbol, hsymbol, htype⟩ := Option.bind_eq_some_iff.1 ht
    have htells := h.lookup? hsymbol
    cases symbol with
    | type type =>
      obtain ⟨name, hname, rfl⟩ := htells
      obtain rfl := Option.some.inj htype
      exact Ty.arises_builtin hname
    | globalVariable v | localVariable v | parameter v =>
      obtain rfl := Option.some.inj htype
      exact htells
    | _ => cases htype
  | main keyword inner => exact arises_receiverOf (e := inner) h.program ht
  | _ => cases ht

end Scope

/-! ### What a program says of a call -/

theorem Reference.ComesTo.among {A : Symbol → Prop} {r r' : Reference} {s s' : Scope}
    (h : r.ComesTo s r' s') (hs : s.Among A) : s'.Among A := by
  induction h with
  | self => exact hs
  | own _ ih => exact ih hs.program

section

variable {file : Nat} {hashComments : Bool} {source : String} {tokens : List Token}
  {members : List Member} {known : List PackageSymbol} {last : Nat} {e : Expression}
  {callee : Ident} {s : Scope}

namespace BoundIn

theorem among (h : BoundIn known last members e s) : s.Among (Tells known last members) := by
  obtain ⟨r, -, site, hsite, hcomes⟩ := h
  exact hcomes.among (Walk.tells_bodySites known last members site hsite)

variable (h : BoundIn known last members e s) (he : e.typeCall? = some callee)
  (htokens : tokenize file hashComments source = .ok tokens)
  (hparse : parseProgram tokens = .ok members)

include h he htokens hparse

/-- The name of a function that is called stands for the function of this name whose type has the
name of the receiver's type. -/
theorem resolved_iff (fingerprint : String) :
    ⟨callee, some fingerprint⟩ ∈ (bindProgram known last members).resolutions ↔
      ∃ t, s.receiverOf? e = some t ∧ ∃ f ∈ typeFunctions last,
        f.origin.name = t.name ∧ f.name = callee.name ∧ f.fingerprint = fingerprint := by
  obtain ⟨count, hcall⟩ := Expression.call?_of_typeCall? he
  rw [h.mem_resolutions_iff hcall htokens hparse, Scope.callee?_of_typeCall? he]
  simp only [Option.map_map, Option.map_eq_some_iff, Option.bind_eq_some_iff,
    findTypeFunction?_eq_some_iff]
  constructor
  · rintro ⟨f, ⟨t, ht, hf, htype, hname⟩, rfl⟩
    exact ⟨t, ht, f, hf, htype, hname, rfl⟩
  · rintro ⟨t, ht, f, hf, htype, hname, rfl⟩
    exact ⟨f, ⟨t, ht, hf, htype, hname⟩, rfl⟩

/-- It is left open what the name stands for exactly if the receiver's type has the name of the type
of which nothing is known. -/
theorem unchecked_iff :
    (bindProgram known last members).Unchecked callee ↔
      ∃ t, s.receiverOf? e = some t ∧ t.name = "any" := by
  obtain ⟨count, hcall⟩ := Expression.call?_of_typeCall? he
  obtain ⟨r, hr, hn⟩ := Expression.exists_reference hcall
  have hnames := h.spans_nodup hr htokens hparse
  have hfound := h.foundAt_eq hr htokens hparse hn
  rw [BoundProgram.Unchecked, BoundProgram.resolutionsAt_eq, BoundProgram.errorsAt_eq, hfound]
  cases ht : s.receiverOf? e with
  | none =>
    refine iff_of_false ?_ nofun
    rintro ⟨hresolutions, herrors⟩
    rcases Scope.foundAt_of_no_receiver he hr hnames ht with hnone | ⟨text, hfault⟩
    · rw [hnone] at hresolutions
      cases hresolutions
    · rw [hfault] at herrors
      cases herrors
  | some t =>
    obtain ⟨arguments, hat⟩ := Scope.foundAt_of_receiver he hr hnames ht
    rw [hat, Scope.useTypeFunction]
    cases hf : findTypeFunction? (typeFunctions last) t callee.name with
    | some f =>
      refine iff_of_false ?_ ?_
      · rintro ⟨hresolutions, -⟩
        have hresolved := (Callee.typeFunction f).resolutions_findings callee arguments
        have hsame := hresolved.symm.trans hresolutions
        cases hsame
      · rintro ⟨t', ht', hany⟩
        obtain rfl := Option.some.inj ht'
        rw [findTypeFunction?_of_any last hany] at hf
        cases hf
    | none =>
      dsimp only
      by_cases hany : t.name = "any"
      · rw [if_pos hany]
        exact iff_of_true ⟨rfl, rfl⟩ ⟨t, rfl, hany⟩
      · rw [if_neg hany]
        refine iff_of_false ?_ ?_
        · rintro ⟨-, herrors⟩
          cases herrors
        · rintro ⟨t', ht', hany'⟩
          obtain rfl := Option.some.inj ht'
          exact hany hany'

/-- A program keeps to the type of a receiver if this is built in, or if it has no name for which
functions are called. -/
theorem keepsTo_iff :
    (bindProgram known last members).KeepsTo (typeFunctions last) callee (s.receiverOf? e) ↔
      ∀ t, s.receiverOf? e = some t → Offers (typeFunctions last) t.name callee.name →
        t.IsA (.builtin t.name) := by
  have hresolved := h.resolved_iff he htokens hparse
  have hunchecked := h.unchecked_iff he htokens hparse
  constructor
  · intro hkeeps t ht hoffers
    rcases hoffers with hany | ⟨f, hf, htype, hname⟩
    · obtain ⟨u, hu, hisa⟩ := hkeeps.unchecked (hunchecked.2 ⟨t, ht, hany⟩)
      obtain rfl := Option.some.inj (ht.symm.trans hu)
      rw [hany]
      exact hisa
    · obtain ⟨g, hg, -, u, hu, hisa⟩ :=
        hkeeps.resolved f.fingerprint ((hresolved _).2 ⟨t, ht, f, hf, htype, hname, rfl⟩)
      obtain rfl := Option.some.inj (ht.symm.trans hu)
      rw [hisa.name_eq, ← origin_eq hg]
      exact hisa
  · intro hbuiltin
    constructor
    · intro fingerprint hmem
      obtain ⟨t, ht, f, hf, htype, hname, hfingerprint⟩ := (hresolved fingerprint).1 hmem
      have hisa := hbuiltin t ht (.inr ⟨f, hf, htype, hname⟩)
      rw [← htype, ← origin_eq hf] at hisa
      exact ⟨f, hf, hfingerprint, t, ht, hisa⟩
    · intro hopen
      obtain ⟨t, ht, hany⟩ := hunchecked.1 hopen
      have hisa := hbuiltin t ht (.inl hany)
      rw [hany] at hisa
      exact ⟨t, ht, hisa⟩

end BoundIn

/-- The functions of built-in types are found by the names of types.

Every call of a function on a value or a type is bound in some scope. Wherever it is bound, the name
of the function stands for the one that has this name and whose type has the name of the receiver's
type, and it is left open what it stands for exactly if the receiver's type has the name of the type
of which nothing is known. So the program keeps to the type of the receiver exactly if this is built
in, or has no such name. Where the type comes from is known: if it is not built in, a structure of
the program has it, it is one of a package that the program refers to, it stands in for a written
type that has no meaning, or a function of a known package has it. -/
theorem bindProgram_typeFunctions (htokens : tokenize file hashComments source = .ok tokens)
    (hparse : parseProgram tokens = .ok members) (known : List PackageSymbol) (last : Nat) :
    let functions := typeFunctions last
    let p := bindProgram known last members
    (∀ m ∈ members, ∀ e, Within (.expression e) (.member m) → e.typeCall?.isSome = true →
      ∃ s, BoundIn known last members e s) ∧
    ∀ e callee s, e.typeCall? = some callee → BoundIn known last members e s →
      (∀ fingerprint, ⟨callee, some fingerprint⟩ ∈ p.resolutions ↔
        ∃ t, s.receiverOf? e = some t ∧ ∃ f ∈ functions,
          f.origin.name = t.name ∧ f.name = callee.name ∧ f.fingerprint = fingerprint) ∧
      (p.Unchecked callee ↔ ∃ t, s.receiverOf? e = some t ∧ t.name = "any") ∧
      (p.KeepsTo functions callee (s.receiverOf? e) ↔
        ∀ t, s.receiverOf? e = some t → Offers functions t.name callee.name →
          t.IsA (.builtin t.name)) ∧
      ∀ t, s.receiverOf? e = some t → t.Arises known last members := by
  intro functions p
  refine ⟨?_, ?_⟩
  · intro m hm e hwithin he
    obtain ⟨callee, hcallee⟩ := Option.isSome_iff_exists.1 he
    obtain ⟨count, hcall⟩ := Expression.call?_of_typeCall? hcallee
    exact exists_boundIn_call hm hwithin (Option.isSome_of_eq_some hcall)
  · intro e callee s he h
    exact ⟨h.resolved_iff he htokens hparse, h.unchecked_iff he htokens hparse,
      h.keepsTo_iff he htokens hparse, fun t ht => Scope.arises_receiverOf h.among ht⟩

end

/-- A function of arrays is called on a parameter that is an array. -/
theorem bindProgram_typeFunctions_array :
    ∃ tokens members e callee s t,
      tokenize 0 true "fn f(a array) \x7b a.length() \x7d" = .ok tokens ∧
      parseProgram tokens = .ok members ∧ e.typeCall? = some callee ∧ BoundIn [] 0 members e s ∧
      s.receiverOf? e = some t ∧
      ⟨callee, some "TF_TO_array_[]_length_->T_int_[]"⟩ ∈ (bindProgram [] 0 members).resolutions ∧
      (bindProgram [] 0 members).KeepsTo (typeFunctions 0) callee (some t) := by
  let tokens : List Token :=
    [⟨.keyword .fnWord, "fn", none, ⟨0, 0, 2, 1, 1, 1, 3⟩, true⟩,
      ⟨.identifier, "f", none, ⟨0, 3, 4, 1, 4, 1, 5⟩, false⟩,
      ⟨.sign .lparen, "(", none, ⟨0, 4, 5, 1, 5, 1, 6⟩, false⟩,
      ⟨.identifier, "a", none, ⟨0, 5, 6, 1, 6, 1, 7⟩, true⟩,
      ⟨.identifier, "array", none, ⟨0, 7, 12, 1, 8, 1, 13⟩, false⟩,
      ⟨.sign .rparen, ")", none, ⟨0, 12, 13, 1, 13, 1, 14⟩, true⟩,
      ⟨.sign .lbrace, "\x7b", none, ⟨0, 14, 15, 1, 15, 1, 16⟩, true⟩,
      ⟨.identifier, "a", none, ⟨0, 16, 17, 1, 17, 1, 18⟩, false⟩,
      ⟨.sign .period, ".", none, ⟨0, 17, 18, 1, 18, 1, 19⟩, false⟩,
      ⟨.identifier, "length", none, ⟨0, 18, 24, 1, 19, 1, 25⟩, false⟩,
      ⟨.sign .lparen, "(", none, ⟨0, 24, 25, 1, 25, 1, 26⟩, false⟩,
      ⟨.sign .rparen, ")", none, ⟨0, 25, 26, 1, 26, 1, 27⟩, true⟩,
      ⟨.sign .rbrace, "\x7d", none, ⟨0, 27, 28, 1, 28, 1, 29⟩, true⟩,
      Token.ending ⟨0, 28, 28, 1, 29, 1, 29⟩]
  let receiver : Ident := ⟨"a", ⟨0, 16, 17, 1, 17, 1, 18⟩⟩
  let callee : Ident := ⟨"length", ⟨0, 18, 24, 1, 19, 1, 25⟩⟩
  let e : Expression := .typeCall receiver callee [] ⟨0, 25, 26, 1, 26, 1, 27⟩
  let array : TypeClause := ⟨none, ⟨"array", ⟨0, 7, 12, 1, 8, 1, 13⟩⟩, [], none⟩
  let f : FunctionDeclaration :=
    { visibility := none
      keyword := ⟨0, 0, 2, 1, 1, 1, 3⟩
      name := ⟨"f", ⟨0, 3, 4, 1, 4, 1, 5⟩⟩
      parameters := [⟨⟨"a", ⟨0, 5, 6, 1, 6, 1, 7⟩⟩, array⟩]
      returnType := none
      body := ⟨⟨0, 14, 15, 1, 15, 1, 16⟩, [.expression e], ⟨0, 27, 28, 1, 28, 1, 29⟩⟩ }
  let a : Variable := ⟨"a", false, .builtin "array", 6, some ⟨0, 5, 6, 1, 6, 1, 7⟩⟩
  have htokens : tokenize 0 true "fn f(a array) \x7b a.length() \x7d" = .ok tokens := by
    decide +kernel
  have hmembers : parseProgram tokens = .ok [.function f] := by
    dsimp only [tokens, receiver, callee, e, array, f]
    cbv
  let s : Scope := ((Walk.declaring [] 0 [.function f]).enter.declareParameters f.body.opening
    [a]).scope
  have hs : BoundIn [] 0 [.function f] e s :=
    ⟨_, rfl, ⟨s, .typeCall receiver callee 0⟩, List.mem_cons_self, .self _ _⟩
  have ht : s.receiverOf? e = some (.builtin "array") := rfl
  have hresolved : ⟨callee, some "TF_TO_array_[]_length_->T_int_[]"⟩ ∈
      (bindProgram [] 0 [.function f]).resolutions := by
    decide +kernel
  obtain ⟨-, hcalls⟩ := bindProgram_typeFunctions htokens hmembers [] 0
  obtain ⟨-, -, hkeeps, -⟩ := hcalls e callee s rfl hs
  refine ⟨tokens, _, e, callee, s, _, htokens, hmembers, rfl, hs, ht, hresolved, ?_⟩
  rw [ht] at hkeeps
  refine hkeeps.2 fun t ht _ => ?_
  obtain rfl := Option.some.inj ht
  rfl

/-- A structure has the name of the type of arrays. Its values are taken for arrays, and the program
has no faults. -/
theorem typeFunction_on_struct :
    ∃ tokens members e callee s t,
      tokenize 0 true "struct array \x7b\x7d fn f(a array) \x7b a.push(1) \x7d" = .ok tokens ∧
      parseProgram tokens = .ok members ∧ e.typeCall? = some callee ∧ BoundIn [] 0 members e s ∧
      s.receiverOf? e = some t ∧ t.isUserDefined = true ∧
      ⟨callee, some "TF_TO_array_[]_push_[TO_any_[]]->T_void_[]"⟩ ∈
        (bindProgram [] 0 members).resolutions ∧
      (bindProgram [] 0 members).errors = [] ∧
      ¬ (bindProgram [] 0 members).KeepsTo (typeFunctions 0) callee (some t) := by
  let one : Token := ⟨.integer, "1", some (.integer 1), ⟨0, 39, 40, 1, 40, 1, 41⟩, false⟩
  let tokens : List Token :=
    [⟨.keyword .structWord, "struct", none, ⟨0, 0, 6, 1, 1, 1, 7⟩, true⟩,
      ⟨.identifier, "array", none, ⟨0, 7, 12, 1, 8, 1, 13⟩, true⟩,
      ⟨.sign .lbrace, "\x7b", none, ⟨0, 13, 14, 1, 14, 1, 15⟩, false⟩,
      ⟨.sign .rbrace, "\x7d", none, ⟨0, 14, 15, 1, 15, 1, 16⟩, true⟩,
      ⟨.keyword .fnWord, "fn", none, ⟨0, 16, 18, 1, 17, 1, 19⟩, true⟩,
      ⟨.identifier, "f", none, ⟨0, 19, 20, 1, 20, 1, 21⟩, false⟩,
      ⟨.sign .lparen, "(", none, ⟨0, 20, 21, 1, 21, 1, 22⟩, false⟩,
      ⟨.identifier, "a", none, ⟨0, 21, 22, 1, 22, 1, 23⟩, true⟩,
      ⟨.identifier, "array", none, ⟨0, 23, 28, 1, 24, 1, 29⟩, false⟩,
      ⟨.sign .rparen, ")", none, ⟨0, 28, 29, 1, 29, 1, 30⟩, true⟩,
      ⟨.sign .lbrace, "\x7b", none, ⟨0, 30, 31, 1, 31, 1, 32⟩, true⟩,
      ⟨.identifier, "a", none, ⟨0, 32, 33, 1, 33, 1, 34⟩, false⟩,
      ⟨.sign .period, ".", none, ⟨0, 33, 34, 1, 34, 1, 35⟩, false⟩,
      ⟨.identifier, "push", none, ⟨0, 34, 38, 1, 35, 1, 39⟩, false⟩,
      ⟨.sign .lparen, "(", none, ⟨0, 38, 39, 1, 39, 1, 40⟩, false⟩, one,
      ⟨.sign .rparen, ")", none, ⟨0, 40, 41, 1, 41, 1, 42⟩, true⟩,
      ⟨.sign .rbrace, "\x7d", none, ⟨0, 42, 43, 1, 43, 1, 44⟩, true⟩,
      Token.ending ⟨0, 43, 43, 1, 44, 1, 44⟩]
  let receiver : Ident := ⟨"a", ⟨0, 32, 33, 1, 33, 1, 34⟩⟩
  let callee : Ident := ⟨"push", ⟨0, 34, 38, 1, 35, 1, 39⟩⟩
  let e : Expression := .typeCall receiver callee [.literal one] ⟨0, 40, 41, 1, 41, 1, 42⟩
  let struct : StructDeclaration :=
    { keyword := ⟨0, 0, 6, 1, 1, 1, 7⟩
      name := ⟨"array", ⟨0, 7, 12, 1, 8, 1, 13⟩⟩
      fields := []
      closing := ⟨0, 14, 15, 1, 15, 1, 16⟩ }
  let array : TypeClause := ⟨none, ⟨"array", ⟨0, 23, 28, 1, 24, 1, 29⟩⟩, [], none⟩
  let f : FunctionDeclaration :=
    { visibility := none
      keyword := ⟨0, 16, 18, 1, 17, 1, 19⟩
      name := ⟨"f", ⟨0, 19, 20, 1, 20, 1, 21⟩⟩
      parameters := [⟨⟨"a", ⟨0, 21, 22, 1, 22, 1, 23⟩⟩, array⟩]
      returnType := none
      body := ⟨⟨0, 30, 31, 1, 31, 1, 32⟩, [.expression e], ⟨0, 42, 43, 1, 43, 1, 44⟩⟩ }
  let members : List Member := [.struct struct, .function f]
  let t : Ty := StructSymbol.type ⟨"array", [], none⟩
  let a : Variable := ⟨"a", false, t, 6, some ⟨0, 21, 22, 1, 22, 1, 23⟩⟩
  have htokens : tokenize 0 true "struct array \x7b\x7d fn f(a array) \x7b a.push(1) \x7d" =
      .ok tokens := by
    decide +kernel
  have hmembers : parseProgram tokens = .ok members := by
    dsimp only [one, tokens, receiver, callee, e, struct, array, f, members]
    cbv
  let s : Scope := ((Walk.declaring [] 0 members).enter.declareParameters f.body.opening [a]).scope
  have hs : BoundIn [] 0 members e s :=
    ⟨_, rfl, ⟨s, .typeCall receiver callee 1⟩, List.mem_cons_self, .self _ _⟩
  have hresolved : ⟨callee, some "TF_TO_array_[]_push_[TO_any_[]]->T_void_[]"⟩ ∈
      (bindProgram [] 0 members).resolutions := by
    decide +kernel
  have haccepted : (bindProgram [] 0 members).errors = [] := by
    decide +kernel
  have hbuiltin : ∀ f ∈ typeFunctions 0, f.origin.isUserDefined = false := by
    decide
  refine ⟨tokens, members, e, callee, s, t, htokens, hmembers, rfl, hs, rfl, rfl, hresolved,
    haccepted, fun h => ?_⟩
  obtain ⟨g, hg, -, u, hu, hisa⟩ := h.resolved _ hresolved
  obtain rfl := Option.some.inj hu
  have huser : g.origin.isUserDefined = true := (congrArg Ty.isUserDefined hisa).symm
  rw [hbuiltin g hg] at huser
  cases huser

end TodLang
