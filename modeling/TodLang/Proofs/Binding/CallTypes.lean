import TodLang.Proofs.Binding.Calls
/-!
The types of calls. What a call gives back, as far as its type is told, is what the function gives
back that is called, or the type that is converted to. Only where a function of a type is called on
the type's own name nothing is told, although it is known which function is called
(`bindProgram_callTypes`).
-/

namespace TodLang

open Node (Within)

namespace Symbol

def isType : Symbol → Bool
  | type _ => true
  | _ => false

end Symbol

/-- No function of a type is one of a value of which nothing is known. -/
theorem findTypeFunction?_any (last : Nat) (name : String) :
    findTypeFunction? (typeFunctions last) .any name = none := by
  rw [findTypeFunction?, List.find?_eq_none]
  intro f hf
  simp only [typeFunctions, List.mem_cons, List.not_mem_nil, or_false] at hf
  rcases hf with rfl | rfl | rfl | rfl | rfl <;> simp [Ty.any, Ty.builtin]

namespace Scope

/-- Whether a function of a type is called on the name of a type. -/
def callsOnType (s : Scope) : Expression → Bool
  | .typeCall receiver _ _ _ => (s.lookup? receiver.name).any Symbol.isType
  | .main _ inner => s.program.callsOnType inner
  | _ => false

variable {functions : List TypeFunction} {last : Nat}

/-- What stands behind `main` has the type that it has in the program's scope, unless it is
assigned. -/
theorem inferType_main {s : Scope} {inner : Expression}
    (hinner : ∀ target value, inner ≠ .assignment target value) (keyword : Span) :
    s.inferType functions (.main keyword inner) = s.program.inferType functions inner := by
  cases inner with
  | assignment target value => exact absurd rfl (hinner target value)
  | _ => rfl

theorem callType_of_callee {s : Scope} {callee : Ident} {arguments : List Expression}
    {closing : Span} {f : Callee}
    (hf : s.callee? functions (.call callee arguments closing) = some f) :
    s.callType callee = f.type := by
  dsimp only [callee?] at hf
  unfold callType
  cases hlookup : s.lookup? callee.name with
  | none => simp [hlookup] at hf
  | some symbol =>
    cases symbol with
    | function g | type g =>
      simp only [hlookup, Option.some.injEq] at hf
      subst hf
      rfl
    | _ => simp [hlookup] at hf

/-- A variable that is called on has the type whose functions are looked at. A type that is called
on is no variable. -/
theorem variableType_of_receiver {s : Scope} {receiver : Ident} {symbol : Symbol} {type : Ty}
    (hsymbol : s.lookup? receiver.name = some symbol)
    (htype : receiverType? symbol = some type) :
    s.variableType receiver = if symbol.isType then .any else type := by
  unfold variableType lookupVariable?
  rw [hsymbol]
  cases symbol with
  | globalVariable v | localVariable v | parameter v => exact Option.some.inj htype
  | type t => rfl
  | _ => cases htype

/-- The type of a call of which it is known what is called. -/
theorem inferType_of_callee {s : Scope} {e : Expression} {f : Callee}
    (hf : s.callee? (typeFunctions last) e = some f) :
    s.inferType (typeFunctions last) e = if s.callsOnType e then .any else f.type := by
  cases e with
  | main keyword inner =>
    have hinner : ∀ target value, inner ≠ .assignment target value := by
      rintro target value rfl
      cases hf
    rw [inferType_main hinner]
    exact inferType_of_callee (e := inner) hf
  | call callee arguments closing => exact callType_of_callee hf
  | cast clause arguments closing =>
    obtain ⟨type, htype, rfl⟩ := Option.map_eq_some_iff.1 hf
    exact congrArg (·.getD .any) htype
  | packageCall package callee arguments closing =>
    obtain ⟨g, hg, rfl⟩ := Option.map_eq_some_iff.1 hf
    exact congrArg (fun found => (found.map FunctionSymbol.returnType).getD .any) hg
  | typeCall receiver callee arguments closing =>
    obtain ⟨g, hg, rfl⟩ := Option.map_eq_some_iff.1 hf
    obtain ⟨type, htype, hfunction⟩ := Option.bind_eq_some_iff.1 hg
    obtain ⟨symbol, hsymbol, hreceiver⟩ := Option.bind_eq_some_iff.1 htype
    have hvariable := variableType_of_receiver hsymbol hreceiver
    have hcalls : s.callsOnType (.typeCall receiver callee arguments closing) = symbol.isType := by
      simp [callsOnType, hsymbol]
    dsimp only [inferType]
    rw [hvariable, hcalls]
    cases symbol.isType with
    | true =>
      rw [if_pos rfl, findTypeFunction?_any]
      rfl
    | false =>
      rw [if_neg Bool.false_ne_true, hfunction]
      rfl
  | _ => cases hf

end Scope

/-- The types of calls are those of what is called.

Every call in a program is bound in some scope. Wherever it is bound, the name that is called stands
for what is called there, if that is known. Then the call has the type that what is called gives
back, unless a function of a type is called on the name of a type and gives back a value of which
something is known: such a call has the type of a value of which nothing is known. -/
theorem bindProgram_callTypes {file : Nat} {hashComments : Bool} {source : String}
    {tokens : List Token} {members : List Member}
    (htokens : tokenize file hashComments source = .ok tokens)
    (hparse : parseProgram tokens = .ok members) (known : List PackageSymbol) (last : Nat) :
    let functions := typeFunctions last
    let p := bindProgram known last members
    (∀ m ∈ members, ∀ e, Within (.expression e) (.member m) → e.call?.isSome = true →
      ∃ s, BoundIn known last members e s) ∧
    ∀ e n count s, e.call? = some (n, count) → BoundIn known last members e s →
      (∀ fingerprint, ⟨n, some fingerprint⟩ ∈ p.resolutions ↔
        (s.callee? functions e).map Callee.fingerprint = some fingerprint) ∧
      ∀ f, s.callee? functions e = some f →
        (s.inferType functions e = f.type ↔ (s.callsOnType e = true → f.type = .any)) := by
  intro functions p
  refine ⟨?_, ?_⟩
  · intro m hm e hwithin hcall
    exact exists_boundIn_call hm hwithin hcall
  · intro e n count s hcall h
    refine ⟨h.mem_resolutions_iff hcall htokens hparse, ?_⟩
    intro f hf
    rw [Scope.inferType_of_callee hf]
    cases s.callsOnType e with
    | true => simp [eq_comm]
    | false => simp

/-- A function that every program has is called behind `main`. -/
theorem bindProgram_callTypes_main :
    ∃ tokens members e s f,
      tokenize 0 true "fn f() \x7b main input() \x7d" = .ok tokens ∧
      parseProgram tokens = .ok members ∧ BoundIn [] 0 members e s ∧
      s.callee? (typeFunctions 0) e = some f ∧ f.fingerprint = "F_input_->TO_string_[]" ∧
      s.inferType (typeFunctions 0) e = f.type := by
  let tokens : List Token :=
    [⟨.keyword .fnWord, "fn", none, ⟨0, 0, 2, 1, 1, 1, 3⟩, true⟩,
      ⟨.identifier, "f", none, ⟨0, 3, 4, 1, 4, 1, 5⟩, false⟩,
      ⟨.sign .lparen, "(", none, ⟨0, 4, 5, 1, 5, 1, 6⟩, false⟩,
      ⟨.sign .rparen, ")", none, ⟨0, 5, 6, 1, 6, 1, 7⟩, true⟩,
      ⟨.sign .lbrace, "\x7b", none, ⟨0, 7, 8, 1, 8, 1, 9⟩, true⟩,
      ⟨.identifier, "main", none, ⟨0, 9, 13, 1, 10, 1, 14⟩, true⟩,
      ⟨.identifier, "input", none, ⟨0, 14, 19, 1, 15, 1, 20⟩, false⟩,
      ⟨.sign .lparen, "(", none, ⟨0, 19, 20, 1, 20, 1, 21⟩, false⟩,
      ⟨.sign .rparen, ")", none, ⟨0, 20, 21, 1, 21, 1, 22⟩, true⟩,
      ⟨.sign .rbrace, "\x7d", none, ⟨0, 22, 23, 1, 23, 1, 24⟩, true⟩,
      Token.ending ⟨0, 23, 23, 1, 24, 1, 24⟩]
  let callee : Ident := ⟨"input", ⟨0, 14, 19, 1, 15, 1, 20⟩⟩
  let e : Expression :=
    .main ⟨0, 9, 13, 1, 10, 1, 14⟩ (.call callee [] ⟨0, 20, 21, 1, 21, 1, 22⟩)
  let f : FunctionDeclaration :=
    { visibility := none
      keyword := ⟨0, 0, 2, 1, 1, 1, 3⟩
      name := ⟨"f", ⟨0, 3, 4, 1, 4, 1, 5⟩⟩
      parameters := []
      returnType := none
      body := ⟨⟨0, 7, 8, 1, 8, 1, 9⟩, [.expression e], ⟨0, 22, 23, 1, 23, 1, 24⟩⟩ }
  have htokens : tokenize 0 true "fn f() \x7b main input() \x7d" = .ok tokens := by
    decide +kernel
  have hmembers : parseProgram tokens = .ok [.function f] := by
    dsimp only [tokens, callee, e, f]
    cbv
  obtain ⟨hbound, hcalls⟩ := bindProgram_callTypes htokens hmembers [] 0
  have hwithin : Within (.expression e) (.member (.function f)) :=
    .of_body List.mem_cons_self (.under List.mem_cons_self .self)
  obtain ⟨s, hs⟩ := hbound (.function f) (List.mem_singleton_self _) e hwithin rfl
  obtain ⟨hresolved, htypes⟩ := hcalls e callee 0 s rfl hs
  have hresolution : ⟨callee, some "F_input_->TO_string_[]"⟩ ∈
      (bindProgram [] 0 [.function f]).resolutions := by
    decide +kernel
  obtain ⟨called, hcalled, hfingerprint⟩ :=
    Option.map_eq_some_iff.1 ((hresolved _).1 hresolution)
  have htype := (htypes called hcalled).2 fun h => absurd h Bool.false_ne_true
  exact ⟨tokens, _, e, s, called, htokens, hmembers, hs, hcalled, hfingerprint, htype⟩

/-- A function of a type is called on the type's name. It is known which one is called, and that it
gives back a whole number, but nothing is known of the variable that gets its value. -/
theorem callType_on_type :
    ∃ tokens f e s n v,
      tokenize 0 true "fn f() \x7b var n = string.length() \x7d" = .ok tokens ∧
      parseProgram tokens = .ok [.function f] ∧
      BoundIn [] 0 [.function f] e s ∧ e.call? = some (n, 0) ∧
      ⟨n, some "TF_TO_string_[]_length_->T_int_[]"⟩ ∈
        (bindProgram [] 0 [.function f]).resolutions ∧
      (s.callee? (typeFunctions 0) e).map (fun f => (f.fingerprint, f.type.name)) =
        some ("TF_TO_string_[]_length_->T_int_[]", "int") ∧
      s.inferType (typeFunctions 0) e = .any ∧
      (bindProgram [] 0 [.function f]).functions.flatMap BoundFunction.locals =
        [.localVariable v] ∧ v.type = .any := by
  let tokens : List Token :=
    [⟨.keyword .fnWord, "fn", none, ⟨0, 0, 2, 1, 1, 1, 3⟩, true⟩,
      ⟨.identifier, "f", none, ⟨0, 3, 4, 1, 4, 1, 5⟩, false⟩,
      ⟨.sign .lparen, "(", none, ⟨0, 4, 5, 1, 5, 1, 6⟩, false⟩,
      ⟨.sign .rparen, ")", none, ⟨0, 5, 6, 1, 6, 1, 7⟩, true⟩,
      ⟨.sign .lbrace, "\x7b", none, ⟨0, 7, 8, 1, 8, 1, 9⟩, true⟩,
      ⟨.keyword .varWord, "var", none, ⟨0, 9, 12, 1, 10, 1, 13⟩, true⟩,
      ⟨.identifier, "n", none, ⟨0, 13, 14, 1, 14, 1, 15⟩, true⟩,
      ⟨.sign .assign, "=", none, ⟨0, 15, 16, 1, 16, 1, 17⟩, true⟩,
      ⟨.identifier, "string", none, ⟨0, 17, 23, 1, 18, 1, 24⟩, false⟩,
      ⟨.sign .period, ".", none, ⟨0, 23, 24, 1, 24, 1, 25⟩, false⟩,
      ⟨.identifier, "length", none, ⟨0, 24, 30, 1, 25, 1, 31⟩, false⟩,
      ⟨.sign .lparen, "(", none, ⟨0, 30, 31, 1, 31, 1, 32⟩, false⟩,
      ⟨.sign .rparen, ")", none, ⟨0, 31, 32, 1, 32, 1, 33⟩, true⟩,
      ⟨.sign .rbrace, "\x7d", none, ⟨0, 33, 34, 1, 34, 1, 35⟩, true⟩,
      Token.ending ⟨0, 34, 34, 1, 35, 1, 35⟩]
  let receiver : Ident := ⟨"string", ⟨0, 17, 23, 1, 18, 1, 24⟩⟩
  let callee : Ident := ⟨"length", ⟨0, 24, 30, 1, 25, 1, 31⟩⟩
  let e : Expression := .typeCall receiver callee [] ⟨0, 31, 32, 1, 32, 1, 33⟩
  let n : VariableDeclaration :=
    ⟨⟨0, 9, 12, 1, 10, 1, 13⟩, false, none, ⟨"n", ⟨0, 13, 14, 1, 14, 1, 15⟩⟩, some e⟩
  let f : FunctionDeclaration :=
    { visibility := none
      keyword := ⟨0, 0, 2, 1, 1, 1, 3⟩
      name := ⟨"f", ⟨0, 3, 4, 1, 4, 1, 5⟩⟩
      parameters := []
      returnType := none
      body := ⟨⟨0, 7, 8, 1, 8, 1, 9⟩, [.declaration n], ⟨0, 33, 34, 1, 34, 1, 35⟩⟩ }
  have htokens : tokenize 0 true "fn f() \x7b var n = string.length() \x7d" = .ok tokens := by
    decide +kernel
  have hmembers : parseProgram tokens = .ok [.function f] := by
    dsimp only [tokens, receiver, callee, e, n, f]
    cbv
  let s : Scope := (Walk.declaring [] 0 [.function f]).enter.scope
  have hcallee : (s.callee? (typeFunctions 0) e).map (fun f => (f.fingerprint, f.type.name)) =
      some ("TF_TO_string_[]_length_->T_int_[]", "int") := by
    decide +kernel
  refine ⟨tokens, f, e, s, callee, _, htokens, hmembers, ?_, rfl, ?_, hcallee, ?_, rfl, rfl⟩
  · exact ⟨_, rfl, ⟨s, .typeCall receiver callee 0⟩, List.mem_cons_self, .self _ _⟩
  · decide +kernel
  · obtain ⟨called, hcalled, -⟩ := Option.map_eq_some_iff.1 hcallee
    have htype : s.callsOnType e = true := by
      decide +kernel
    rw [Scope.inferType_of_callee hcalled, if_pos htype]

end TodLang
