import TodLang.Proofs.Binding.Occurrences
/-!
Calls. A call that is understood calls a function of the program or of a package, a function of a
type, or converts to a type. Which of them it is decides what the program records for the name that
is called and what it reports there (`BoundIn.callee`): the arguments are counted, except for those
of a type in brackets (`bindProgram_argumentCounts`).
-/

namespace TodLang

open Node (Within)
open Finding (foundAt)

/-- What is called. -/
inductive Callee where
  /-- A function of the program or of a package. -/
  | function (f : FunctionSymbol)
  | typeFunction (f : TypeFunction)
  /-- A type that the argument is converted to. -/
  | conversion (type : Ty)

namespace Callee

def fingerprint : Callee → String
  | function f => f.fingerprint
  | typeFunction f => f.fingerprint
  | conversion type => type.fingerprint

/-- How many arguments are taken. -/
def arity : Callee → Nat
  | function f => f.parameters.length
  | typeFunction f => f.parameters.length
  | conversion _ => 1

/-- The type of what is given back. -/
def type : Callee → Ty
  | function f => f.returnType
  | typeFunction f => f.returnType
  | conversion type => type

/-- The fault of a call with a number of arguments, if it is not the number that is taken. -/
def countFaults (f : Callee) (n : Ident) (count : Nat) : List SemanticError :=
  if f.arity = count then [] else [⟨.argumentCount n.name f.arity count, n.span⟩]

/-- What is found of the name that is called if the arguments are counted. -/
def findings (f : Callee) (n : Ident) (count : Nat) : List Finding :=
  Scope.checkCount n.name f.arity count n.span ++ [.resolved n f.fingerprint]

end Callee

namespace Expression

/-- The name that is called, with the number of arguments. -/
def call? : Expression → Option (Ident × Nat)
  | call callee arguments _ | packageCall _ callee arguments _ | typeCall _ callee arguments _ =>
    some (callee, arguments.length)
  | cast clause arguments _ => some (clause.name, arguments.length)
  | main _ inner => inner.call?
  | _ => none

/-- Whether a type in brackets is called, perhaps behind `main`. -/
def callsCast : Expression → Bool
  | cast _ _ _ => true
  | main _ inner => inner.callsCast
  | _ => false

end Expression

namespace Scope

/-- What is called in a scope. -/
def callee? (functions : List TypeFunction) (s : Scope) : Expression → Option Callee
  | .call callee _ _ =>
    match s.lookup? callee.name with
    | some (.function f) => some (.function f)
    | some (.type type) => some (.conversion type)
    | _ => none
  | .cast clause _ _ => (s.lookupType clause).toOption.map .conversion
  | .packageCall package callee _ _ =>
    ((s.lookupPackage? package.name).bind (·.function? callee.name)).map .function
  | .typeCall receiver callee _ _ =>
    (((s.lookup? receiver.name).bind receiverType?).bind
      (findTypeFunction? functions · callee.name)).map .typeFunction
  | .main _ inner => s.program.callee? functions inner
  | _ => none

end Scope

namespace Finding

theorem foundAt_checkCount (name : String) (expected found : Nat) (span : Span) :
    foundAt span (Scope.checkCount name expected found span) =
      Scope.checkCount name expected found span := by
  unfold Scope.checkCount
  split <;> simp [foundAt, place?, fault, SemanticFault.isOfUse]

end Finding

namespace Callee

theorem foundAt_findings (f : Callee) (n : Ident) (count : Nat) :
    foundAt n.span (f.findings n count) = f.findings n count := by
  rw [findings, Finding.foundAt_append, Finding.foundAt_checkCount, Finding.foundAt_resolved]
  rfl

theorem resolutions_findings (f : Callee) (n : Ident) (count : Nat) :
    (f.findings n count).filterMap Finding.resolution? = [⟨n, some f.fingerprint⟩] := by
  unfold findings Scope.checkCount
  split <;> rfl

theorem errors_findings (f : Callee) (n : Ident) (count : Nat) :
    (f.findings n count).filterMap Finding.error? = f.countFaults n count := by
  unfold findings Scope.checkCount countFaults
  split <;> rfl

end Callee

namespace Scope

variable {functions : List TypeFunction} {s : Scope} {f : Callee}

/-! ### Where it is known what is called -/

theorem useCallee_of_callee {callee : Ident} {arguments : List Expression} {closing : Span}
    (h : s.callee? functions (.call callee arguments closing) = some f) (count : Nat) :
    s.useCallee callee count = f.findings callee count := by
  dsimp only [callee?] at h
  unfold useCallee
  cases hlookup : s.lookup? callee.name with
  | none => simp [hlookup] at h
  | some symbol =>
    cases symbol with
    | function g | type g =>
      simp only [hlookup, Option.some.injEq] at h
      subst h
      rfl
    | _ => simp [hlookup] at h

theorem useType_of_callee {clause : TypeClause} {arguments : List Expression} {closing : Span}
    (h : s.callee? functions (.cast clause arguments closing) = some f) :
    s.useType clause = [.resolved clause.name f.fingerprint] := by
  dsimp only [callee?] at h
  unfold useType resolveType
  cases hlookup : s.lookupType clause with
  | error e => simp [hlookup, Except.toOption] at h
  | ok type =>
    simp only [hlookup, Except.toOption, Option.map_some, Option.some.injEq] at h
    subst h
    rfl

theorem usePackageCall_of_callee {package callee : Ident} {arguments : List Expression}
    {closing : Span}
    (h : s.callee? functions (.packageCall package callee arguments closing) = some f)
    (count : Nat) :
    ∃ fingerprint, s.usePackageCall package callee count =
      .resolved package fingerprint :: f.findings callee count := by
  dsimp only [callee?] at h
  obtain ⟨g, hg, rfl⟩ := Option.map_eq_some_iff.1 h
  obtain ⟨p, hp, hfunction⟩ := Option.bind_eq_some_iff.1 hg
  refine ⟨p.fingerprint, ?_⟩
  unfold usePackageCall usePackageFunction
  simp only [hp, hfunction]
  rfl

theorem useTypeCall_of_callee {receiver callee : Ident} {arguments : List Expression}
    {closing : Span}
    (h : s.callee? functions (.typeCall receiver callee arguments closing) = some f)
    (count : Nat) :
    ∃ fingerprint, useTypeCall functions s receiver callee count =
      .resolved receiver fingerprint :: f.findings callee count := by
  dsimp only [callee?] at h
  obtain ⟨g, hg, rfl⟩ := Option.map_eq_some_iff.1 h
  obtain ⟨type, htype, hfunction⟩ := Option.bind_eq_some_iff.1 hg
  obtain ⟨symbol, hsymbol, hreceiver⟩ := Option.bind_eq_some_iff.1 htype
  refine ⟨symbol.fingerprint, ?_⟩
  unfold useTypeCall useTypeFunction
  simp only [hsymbol, hreceiver, hfunction]
  rfl

/-- What is found at the name that is called, if it is known what is called. -/
theorem foundAt_callee {s : Scope} {e : Expression} {r : Reference} {n : Ident} {count : Nat}
    (hcall : e.call? = some (n, count)) (hr : e.reference? = some r)
    (hnames : (r.names.map Ident.span).Nodup) (hf : s.callee? functions e = some f) :
    foundAt n.span (r.findings functions s) =
      if e.callsCast then [.resolved n f.fingerprint] else f.findings n count := by
  cases e with
  | main keyword inner =>
    obtain ⟨use, huse, rfl⟩ := Option.map_eq_some_iff.1 hr
    have hinner : s.program.callee? functions inner = some f := hf
    have hfound := foundAt_callee (e := inner) hcall huse hnames hinner
    exact hfound
  | call callee arguments closing =>
    obtain ⟨rfl, rfl⟩ := Prod.mk.inj (Option.some.inj hcall)
    obtain rfl := Option.some.inj hr
    have hfound : Reference.findings functions s (.call callee arguments.length) =
        f.findings callee arguments.length := useCallee_of_callee hf _
    rw [hfound]
    exact f.foundAt_findings callee _
  | cast clause arguments closing =>
    obtain ⟨rfl, rfl⟩ := Prod.mk.inj (Option.some.inj hcall)
    obtain rfl := Option.some.inj hr
    have hfound : Reference.findings functions s (.type clause) =
        [.resolved clause.name f.fingerprint] := useType_of_callee hf
    rw [hfound]
    exact Finding.foundAt_resolved _ _ _
  | packageCall package callee arguments closing =>
    obtain ⟨rfl, rfl⟩ := Prod.mk.inj (Option.some.inj hcall)
    obtain rfl := Option.some.inj hr
    have hne : package.span ≠ callee.span := by
      simpa [Reference.names, Reference.head, Reference.follower?] using hnames
    obtain ⟨fingerprint, hfound⟩ := usePackageCall_of_callee hf arguments.length
    rw [Reference.findings, hfound, Finding.foundAt_resolved_ne hne]
    exact f.foundAt_findings callee _
  | typeCall receiver callee arguments closing =>
    obtain ⟨rfl, rfl⟩ := Prod.mk.inj (Option.some.inj hcall)
    obtain rfl := Option.some.inj hr
    have hne : receiver.span ≠ callee.span := by
      simpa [Reference.names, Reference.head, Reference.follower?] using hnames
    obtain ⟨fingerprint, hfound⟩ := useTypeCall_of_callee hf arguments.length
    rw [Reference.findings, hfound, Finding.foundAt_resolved_ne hne]
    exact f.foundAt_findings callee _
  | _ => cases hcall

/-- A type in brackets takes one argument. -/
theorem arity_of_callsCast {s : Scope} {e : Expression} (hcast : e.callsCast = true)
    (hf : s.callee? functions e = some f) : f.arity = 1 := by
  cases e with
  | main keyword inner => exact arity_of_callsCast (e := inner) (s := s.program) hcast hf
  | cast clause arguments closing =>
    obtain ⟨type, -, rfl⟩ := Option.map_eq_some_iff.1 hf
    rfl
  | _ => cases hcast

/-! ### Where it is not known what is called -/

section

variable {callee : Ident} {arguments : List Expression} {closing : Span}

theorem not_mem_useCallee (h : s.callee? functions (.call callee arguments closing) = none)
    (count : Nat) (fingerprint : String) :
    .resolved callee fingerprint ∉ s.useCallee callee count := by
  dsimp only [callee?] at h
  unfold useCallee
  cases hlookup : s.lookup? callee.name with
  | none => simp [Finding.resolved, Finding.fault, Finding.unresolved]
  | some symbol =>
    cases symbol with
    | function g | type g => simp [hlookup] at h
    | _ => simp [Finding.resolved, Finding.fault, Finding.unresolved]

theorem not_mem_useType {clause : TypeClause}
    (h : s.callee? functions (.cast clause arguments closing) = none) (fingerprint : String) :
    .resolved clause.name fingerprint ∉ s.useType clause := by
  dsimp only [callee?] at h
  unfold useType resolveType
  cases hlookup : s.lookupType clause with
  | error fault => simp [Finding.resolved, Finding.unresolved]
  | ok type => simp [hlookup, Except.toOption] at h

theorem not_mem_usePackageCall {package : Ident} (hne : callee ≠ package)
    (h : s.callee? functions (.packageCall package callee arguments closing) = none)
    (count : Nat) (fingerprint : String) :
    .resolved callee fingerprint ∉ s.usePackageCall package callee count := by
  dsimp only [callee?] at h
  unfold usePackageCall usePackageFunction
  cases hpackage : s.lookupPackage? package.name with
  | none => simp [Finding.resolved, Finding.fault, Finding.unresolved]
  | some p =>
    have hfunction : p.function? callee.name = none := by simpa [hpackage] using h
    dsimp only
    rw [hfunction]
    dsimp only
    split <;> simp [Finding.resolved, Finding.fault, Finding.unresolved, hne]

theorem not_mem_useTypeCall {receiver : Ident} (hne : callee ≠ receiver)
    (h : s.callee? functions (.typeCall receiver callee arguments closing) = none)
    (count : Nat) (fingerprint : String) :
    .resolved callee fingerprint ∉ useTypeCall functions s receiver callee count := by
  dsimp only [callee?] at h
  unfold useTypeCall useTypeFunction
  cases hreceiver : s.lookup? receiver.name with
  | none => simp [Finding.resolved, Finding.fault, Finding.unresolved]
  | some symbol =>
    cases htype : receiverType? symbol with
    | none => simp [htype, Finding.resolved, Finding.fault, Finding.unresolved, hne]
    | some type =>
      have hfunction : findTypeFunction? functions type callee.name = none := by
        simpa [hreceiver, htype] using h
      dsimp only
      rw [htype]
      dsimp only
      rw [hfunction]
      dsimp only
      split <;> simp [Finding.resolved, Finding.fault, Finding.unresolved, hne]

end

/-- If it is not known what is called, the name that is called stands for nothing. -/
theorem not_resolved_of_callee {s : Scope} {e : Expression} {r : Reference} {n : Ident}
    {count : Nat} (hcall : e.call? = some (n, count)) (hr : e.reference? = some r)
    (hnames : (r.names.map Ident.span).Nodup) (hf : s.callee? functions e = none)
    (fingerprint : String) : .resolved n fingerprint ∉ r.findings functions s := by
  cases e with
  | main keyword inner =>
    obtain ⟨use, huse, rfl⟩ := Option.map_eq_some_iff.1 hr
    have hinner : s.program.callee? functions inner = none := hf
    have hnot := not_resolved_of_callee (e := inner) hcall huse hnames hinner fingerprint
    exact hnot
  | call callee arguments closing =>
    obtain ⟨rfl, rfl⟩ := Prod.mk.inj (Option.some.inj hcall)
    obtain rfl := Option.some.inj hr
    exact not_mem_useCallee hf _ fingerprint
  | cast clause arguments closing =>
    obtain ⟨rfl, rfl⟩ := Prod.mk.inj (Option.some.inj hcall)
    obtain rfl := Option.some.inj hr
    exact not_mem_useType hf fingerprint
  | packageCall package callee arguments closing =>
    obtain ⟨rfl, rfl⟩ := Prod.mk.inj (Option.some.inj hcall)
    obtain rfl := Option.some.inj hr
    have hne : callee ≠ package := by
      rintro rfl
      simp [Reference.names, Reference.head, Reference.follower?] at hnames
    exact not_mem_usePackageCall hne hf _ fingerprint
  | typeCall receiver callee arguments closing =>
    obtain ⟨rfl, rfl⟩ := Prod.mk.inj (Option.some.inj hcall)
    obtain rfl := Option.some.inj hr
    have hne : callee ≠ receiver := by
      rintro rfl
      simp [Reference.names, Reference.head, Reference.follower?] at hnames
    exact not_mem_useTypeCall hne hf _ fingerprint
  | _ => cases hcall

end Scope

/-! ### The calls of a program -/

section

variable {file : Nat} {hashComments : Bool} {source : String} {tokens : List Token}
  {members : List Member} {known : List PackageSymbol} {last : Nat} {e : Expression} {n : Ident}
  {count : Nat} {s : Scope}

/-- An expression that calls something uses a name itself. -/
theorem Expression.exists_reference {e : Expression} (h : e.call? = some (n, count)) :
    ∃ r, e.reference? = some r ∧ n ∈ r.names := by
  cases e with
  | main keyword inner =>
    obtain ⟨r, hr, hn⟩ := exists_reference (e := inner) h
    exact ⟨.own r, congrArg (Option.map Reference.own) hr, hn⟩
  | call callee arguments closing | cast callee arguments closing =>
    obtain ⟨rfl, rfl⟩ := Prod.mk.inj (Option.some.inj h)
    exact ⟨_, rfl, List.mem_cons_self⟩
  | packageCall first callee arguments closing | typeCall first callee arguments closing =>
    obtain ⟨rfl, rfl⟩ := Prod.mk.inj (Option.some.inj h)
    exact ⟨_, rfl, List.mem_cons_of_mem _ List.mem_cons_self⟩
  | _ => cases h

namespace BoundIn

/-- What a program says of a name that is called, if it is known what is called. -/
theorem callee (h : BoundIn known last members e s) (hcall : e.call? = some (n, count))
    (htokens : tokenize file hashComments source = .ok tokens)
    (hparse : parseProgram tokens = .ok members) {f : Callee}
    (hf : s.callee? (typeFunctions last) e = some f) :
    (bindProgram known last members).resolutionsAt n.span = [⟨n, some f.fingerprint⟩] ∧
      (bindProgram known last members).errorsAt n.span =
        if e.callsCast then [] else f.countFaults n count := by
  obtain ⟨r, hr, hn⟩ := Expression.exists_reference hcall
  have hfound := h.foundAt_eq hr htokens hparse hn
  rw [Scope.foundAt_callee hcall hr (h.spans_nodup hr htokens hparse) hf] at hfound
  rw [BoundProgram.resolutionsAt_eq, BoundProgram.errorsAt_eq, hfound]
  split
  · exact ⟨rfl, rfl⟩
  · exact ⟨f.resolutions_findings n count, f.errors_findings n count⟩

/-- A name that is called stands for what is called, and for nothing if that is not known. -/
theorem mem_resolutions_iff (h : BoundIn known last members e s)
    (hcall : e.call? = some (n, count))
    (htokens : tokenize file hashComments source = .ok tokens)
    (hparse : parseProgram tokens = .ok members) (fingerprint : String) :
    ⟨n, some fingerprint⟩ ∈ (bindProgram known last members).resolutions ↔
      (s.callee? (typeFunctions last) e).map Callee.fingerprint = some fingerprint := by
  cases hf : s.callee? (typeFunctions last) e with
  | none =>
    obtain ⟨r, hr, hn⟩ := Expression.exists_reference hcall
    have hnot := Scope.not_resolved_of_callee hcall hr (h.spans_nodup hr htokens hparse) hf
      fingerprint
    have hfound := h.foundAt_eq hr htokens hparse hn
    refine iff_of_false ?_ nofun
    intro hmem
    have hin : .resolved n fingerprint ∈
        foundAt n.span (bindProgram known last members).findings :=
      Finding.mem_foundAt.2 ⟨BoundProgram.mem_resolutions.1 hmem, rfl⟩
    rw [hfound] at hin
    exact hnot (Finding.mem_foundAt.1 hin).1
  | some f =>
    obtain ⟨hresolutions, -⟩ := h.callee hcall htokens hparse hf
    have hat : ⟨n, some fingerprint⟩ ∈ (bindProgram known last members).resolutions ↔
        ⟨n, some fingerprint⟩ ∈ (bindProgram known last members).resolutionsAt n.span := by
      simp [BoundProgram.resolutionsAt]
    rw [hat, hresolutions]
    simp [eq_comm]

end BoundIn

/-- A call in a program is bound in some scope. -/
theorem exists_boundIn_call {m : Member} (hm : m ∈ members)
    (hwithin : Within (.expression e) (.member m)) (hcall : e.call?.isSome = true) :
    ∃ s, BoundIn known last members e s := by
  obtain ⟨⟨n, count⟩, hcall⟩ := Option.isSome_iff_exists.1 hcall
  obtain ⟨r, hr, -⟩ := Expression.exists_reference hcall
  exact exists_boundIn hm hwithin hr

/-- The arguments of a call are counted.

Every call in a program is bound in some scope. Wherever it is bound, the name that is called stands
for what is called there, if that is known. Then the name has no fault but that of a wrong number of
arguments, and it has this one exactly if the number is wrong, unless a type in brackets is called
with other than one argument: the arguments of these are not counted. -/
theorem bindProgram_argumentCounts (htokens : tokenize file hashComments source = .ok tokens)
    (hparse : parseProgram tokens = .ok members) (known : List PackageSymbol) (last : Nat) :
    let functions := typeFunctions last
    let p := bindProgram known last members
    (∀ m ∈ members, ∀ e, Within (.expression e) (.member m) → e.call?.isSome = true →
      ∃ s, BoundIn known last members e s) ∧
    ∀ e n count s, e.call? = some (n, count) → BoundIn known last members e s →
      (∀ fingerprint, ⟨n, some fingerprint⟩ ∈ p.resolutions ↔
        (s.callee? functions e).map Callee.fingerprint = some fingerprint) ∧
      ∀ f, s.callee? functions e = some f →
        (p.errorsAt n.span = f.countFaults n count ↔ (e.callsCast = true → count = 1)) := by
  intro functions p
  refine ⟨?_, ?_⟩
  · intro m hm e hwithin hcall
    exact exists_boundIn_call hm hwithin hcall
  · intro e n count s hcall h
    refine ⟨h.mem_resolutions_iff hcall htokens hparse, ?_⟩
    intro f hf
    obtain ⟨-, herrors⟩ := h.callee hcall htokens hparse hf
    rw [herrors]
    cases hcast : e.callsCast with
    | false => simp
    | true =>
      have hone := Scope.arity_of_callsCast hcast hf
      simp [Callee.countFaults, hone, eq_comm]

end

/-- A function that takes one argument is called with none. -/
theorem bindProgram_argumentCounts_none :
    ∃ tokens members e n s f,
      tokenize 0 true "fn f() \x7b print() \x7d" = .ok tokens ∧
      parseProgram tokens = .ok members ∧ e.call? = some (n, 0) ∧ BoundIn [] 0 members e s ∧
      s.callee? (typeFunctions 0) e = some f ∧
      f.fingerprint = "F_print_TO_string_[]->T_void_[]" ∧
      f.countFaults n 0 = [⟨.argumentCount "print" 1 0, n.span⟩] := by
  let tokens : List Token :=
    [⟨.keyword .fnWord, "fn", none, ⟨0, 0, 2, 1, 1, 1, 3⟩, true⟩,
      ⟨.identifier, "f", none, ⟨0, 3, 4, 1, 4, 1, 5⟩, false⟩,
      ⟨.sign .lparen, "(", none, ⟨0, 4, 5, 1, 5, 1, 6⟩, false⟩,
      ⟨.sign .rparen, ")", none, ⟨0, 5, 6, 1, 6, 1, 7⟩, true⟩,
      ⟨.sign .lbrace, "\x7b", none, ⟨0, 7, 8, 1, 8, 1, 9⟩, true⟩,
      ⟨.identifier, "print", none, ⟨0, 9, 14, 1, 10, 1, 15⟩, false⟩,
      ⟨.sign .lparen, "(", none, ⟨0, 14, 15, 1, 15, 1, 16⟩, false⟩,
      ⟨.sign .rparen, ")", none, ⟨0, 15, 16, 1, 16, 1, 17⟩, true⟩,
      ⟨.sign .rbrace, "\x7d", none, ⟨0, 17, 18, 1, 18, 1, 19⟩, true⟩,
      Token.ending ⟨0, 18, 18, 1, 19, 1, 19⟩]
  let n : Ident := ⟨"print", ⟨0, 9, 14, 1, 10, 1, 15⟩⟩
  let e : Expression := .call n [] ⟨0, 15, 16, 1, 16, 1, 17⟩
  let f : FunctionDeclaration :=
    { visibility := none
      keyword := ⟨0, 0, 2, 1, 1, 1, 3⟩
      name := ⟨"f", ⟨0, 3, 4, 1, 4, 1, 5⟩⟩
      parameters := []
      returnType := none
      body := ⟨⟨0, 7, 8, 1, 8, 1, 9⟩, [.expression e], ⟨0, 17, 18, 1, 18, 1, 19⟩⟩ }
  have htokens : tokenize 0 true "fn f() \x7b print() \x7d" = .ok tokens := by
    decide +kernel
  have hmembers : parseProgram tokens = .ok [.function f] := by
    dsimp only [tokens, n, e, f]
    cbv
  obtain ⟨hbound, hcalls⟩ := bindProgram_argumentCounts htokens hmembers [] 0
  have hwithin : Within (.expression e) (.member (.function f)) :=
    .of_body List.mem_cons_self (.under List.mem_cons_self .self)
  obtain ⟨s, hs⟩ := hbound (.function f) (List.mem_singleton_self _) e hwithin rfl
  obtain ⟨hresolved, hcounted⟩ := hcalls e n 0 s rfl hs
  have hresolution : ⟨n, some "F_print_TO_string_[]->T_void_[]"⟩ ∈
      (bindProgram [] 0 [.function f]).resolutions := by
    decide +kernel
  have herrors : (bindProgram [] 0 [.function f]).errorsAt n.span =
      [⟨.argumentCount "print" 1 0, n.span⟩] := by
    decide +kernel
  obtain ⟨callee, hcallee, hfingerprint⟩ :=
    Option.map_eq_some_iff.1 ((hresolved _).1 hresolution)
  have hcount := (hcounted callee hcallee).2 fun h => absurd h Bool.false_ne_true
  exact ⟨tokens, _, e, n, s, callee, htokens, hmembers, rfl, hs, hcallee, hfingerprint,
    hcount.symm.trans herrors⟩

/-- A type in brackets is called without an argument, and the program has no faults. -/
theorem cast_without_argument :
    ∃ tokens f clause closing s,
      tokenize 0 true "fn f() \x7b array[int]() \x7d" = .ok tokens ∧
      parseProgram tokens = .ok [.function f] ∧
      f.body.statements = [.expression (.cast clause [] closing)] ∧
      BoundIn [] 0 [.function f] (.cast clause [] closing) s ∧
      (s.callee? (typeFunctions 0) (.cast clause [] closing)).map
        (fun type => type.countFaults clause.name 0) =
          some [⟨.argumentCount "array" 1 0, clause.name.span⟩] ∧
      (bindProgram [] 0 [.function f]).errors = [] := by
  let tokens : List Token :=
    [⟨.keyword .fnWord, "fn", none, ⟨0, 0, 2, 1, 1, 1, 3⟩, true⟩,
      ⟨.identifier, "f", none, ⟨0, 3, 4, 1, 4, 1, 5⟩, false⟩,
      ⟨.sign .lparen, "(", none, ⟨0, 4, 5, 1, 5, 1, 6⟩, false⟩,
      ⟨.sign .rparen, ")", none, ⟨0, 5, 6, 1, 6, 1, 7⟩, true⟩,
      ⟨.sign .lbrace, "\x7b", none, ⟨0, 7, 8, 1, 8, 1, 9⟩, true⟩,
      ⟨.identifier, "array", none, ⟨0, 9, 14, 1, 10, 1, 15⟩, false⟩,
      ⟨.sign .lbrack, "[", none, ⟨0, 14, 15, 1, 15, 1, 16⟩, false⟩,
      ⟨.identifier, "int", none, ⟨0, 15, 18, 1, 16, 1, 19⟩, false⟩,
      ⟨.sign .rbrack, "]", none, ⟨0, 18, 19, 1, 19, 1, 20⟩, false⟩,
      ⟨.sign .lparen, "(", none, ⟨0, 19, 20, 1, 20, 1, 21⟩, false⟩,
      ⟨.sign .rparen, ")", none, ⟨0, 20, 21, 1, 21, 1, 22⟩, true⟩,
      ⟨.sign .rbrace, "\x7d", none, ⟨0, 22, 23, 1, 23, 1, 24⟩, true⟩,
      Token.ending ⟨0, 23, 23, 1, 24, 1, 24⟩]
  let element : TypeClause := ⟨none, ⟨"int", ⟨0, 15, 18, 1, 16, 1, 19⟩⟩, [], none⟩
  let clause : TypeClause :=
    ⟨none, ⟨"array", ⟨0, 9, 14, 1, 10, 1, 15⟩⟩, [element], some ⟨0, 18, 19, 1, 19, 1, 20⟩⟩
  let f : FunctionDeclaration :=
    { visibility := none
      keyword := ⟨0, 0, 2, 1, 1, 1, 3⟩
      name := ⟨"f", ⟨0, 3, 4, 1, 4, 1, 5⟩⟩
      parameters := []
      returnType := none
      body :=
        ⟨⟨0, 7, 8, 1, 8, 1, 9⟩, [.expression (.cast clause [] ⟨0, 20, 21, 1, 21, 1, 22⟩)],
          ⟨0, 22, 23, 1, 23, 1, 24⟩⟩ }
  have htokens : tokenize 0 true "fn f() \x7b array[int]() \x7d" = .ok tokens := by
    decide +kernel
  have hmembers : parseProgram tokens = .ok [.function f] := by
    dsimp only [tokens, element, clause, f]
    cbv
  let s : Scope := (Walk.declaring [] 0 [.function f]).enter.scope
  refine ⟨tokens, f, clause, _, s, htokens, hmembers, rfl, ?_, ?_, ?_⟩
  · exact ⟨_, rfl, ⟨s, .type clause⟩, List.mem_cons_self, .self _ _⟩
  · decide +kernel
  · decide +kernel

end TodLang
