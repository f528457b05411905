import TodLang.Proofs.Binding.Bodies
import TodLang.Proofs.Binding.Origin
import TodLang.Proofs.Binding.Outside
import TodLang.Proofs.Grammar.Qualified
import TodLang.Proofs.Token.Tiling
/-!
Names behind `main`. Wherever `main` stands, its name is looked up in the scope of the program, and
what is written with it, the arguments of a call or an assigned value, in the scope around it
(`bindProgram_mainNames`). So what is declared in functions changes nothing for such a name, except
that a call is counted against the parameters of the function that it calls.
-/

namespace TodLang

open Node

/-! ### Expressions with `main` in other expressions -/

namespace Scope

variable (functions : List TypeFunction) (s : Scope)

/-- What is written with the name is bound first, and in the scope around it. -/
theorem bindExpression_main {inner : Expression} {use : Reference}
    (h : inner.ownUse? = some use) (keyword : Span) :
    bindExpression functions s (.main keyword inner) =
      bindExpressions functions s inner.parts ++ use.findings functions s.program := by
  cases inner with
  | name n | call callee arguments closing =>
    obtain rfl := Option.some.inj h
    rfl
  | assignment target value =>
    obtain rfl := Option.some.inj h
    simp only [Expression.parts, bindExpressions, List.append_nil]
    rfl
  | _ => cases h

theorem bindExpressions_of_mem {e : Expression} {es : List Expression} (h : e ∈ es) :
    bindExpression functions s e <:+: bindExpressions functions s es := by
  induction es with
  | nil => cases h
  | cons first others ih =>
    rcases List.mem_cons.1 h with rfl | h
    · exact (List.prefix_append ..).isInfix
    · exact (ih h).trans (List.suffix_append ..).isInfix

/-- The parts of an expression without `main` are bound in the scope that it is bound in. -/
theorem bindExpression_part {e part : Expression} (he : ∀ keyword inner, e ≠ .main keyword inner)
    (hpart : part ∈ e.parts) :
    bindExpression functions s part <:+: bindExpression functions s e := by
  cases e with
  | literal _ | name _ | step _ _ | fieldAccess _ _ | reference _ _ | this _ => cases hpart
  | main keyword inner => exact absurd rfl (he keyword inner)
  | parenthesized _ _ _ | unary _ _ | dereference _ _ =>
    obtain rfl := List.mem_singleton.1 hpart
    exact List.infix_rfl
  | assignment _ _ | edit _ _ _ | fieldAssignment _ _ _ =>
    obtain rfl := List.mem_singleton.1 hpart
    exact (List.prefix_append ..).isInfix
  | makeSized _ _ _ _ =>
    obtain rfl := List.mem_singleton.1 hpart
    exact (List.suffix_append ..).isInfix
  | binary left _ right | arrayAccess left right _ =>
    simp only [Expression.parts, List.mem_cons, List.not_mem_nil, or_false] at hpart
    rcases hpart with rfl | rfl
    · exact (List.prefix_append ..).isInfix
    · exact (List.suffix_append ..).isInfix
  | arrayAssignment array index value =>
    simp only [Expression.parts, List.mem_cons, List.not_mem_nil, or_false] at hpart
    rcases hpart with rfl | rfl | rfl
    · exact ((List.prefix_append ..).trans (List.prefix_append ..)).isInfix
    · exact (List.suffix_append ..).isInfix.trans (List.prefix_append ..).isInfix
    · exact (List.suffix_append ..).isInfix
  | call _ _ _ | cast _ _ _ | packageCall _ _ _ _ | typeCall _ _ _ _ =>
    exact (bindExpressions_of_mem functions s hpart).trans (List.prefix_append ..).isInfix
  | make _ _ _ _ | makeArray _ _ _ _ =>
    exact (bindExpressions_of_mem functions s hpart).trans (List.suffix_append ..).isInfix
  | makeStruct _ _ _ _ =>
    exact ((bindExpressions_of_mem functions s hpart).trans (List.suffix_append ..).isInfix).trans
      (List.prefix_append ..).isInfix

/-- An expression with `main` is bound in the scope that the whole expression is bound in. -/
theorem bindExpression_within {keyword : Span} {inner e : Expression}
    (hqualifies : QualifiesThroughout e)
    (h : Within (.expression (.main keyword inner)) (.expression e)) :
    bindExpression functions s (.main keyword inner) <:+: bindExpression functions s e := by
  rcases within_expression_iff.1 h with rfl | ⟨part, hpart, hwithin⟩
  · exact List.infix_rfl
  obtain ⟨hown, hparts⟩ := everyExpression_iff_parts.1 hqualifies
  have hsize := Expression.sizeOf_lt_of_mem_parts hpart
  by_cases hmain : ∃ word other, e = .main word other
  · -- What stands behind `main` there has no `main` in front of it but in its parts.
    obtain ⟨word, other, rfl⟩ := hmain
    obtain rfl := List.mem_singleton.1 hpart
    obtain ⟨use, huse⟩ := Option.isSome_iff_exists.1 (hown word part rfl)
    rcases within_expression_iff.1 hwithin with rfl | ⟨inside, hinside, hdeep⟩
    · cases huse
    · have hsmaller := Expression.sizeOf_lt_of_mem_parts hinside
      have hqualified := (everyExpression_iff_parts.1 (hparts part hpart)).2 inside hinside
      rw [bindExpression_main functions s huse word]
      exact ((bindExpression_within hqualified hdeep).trans
        (bindExpressions_of_mem functions s hinside)).trans (List.prefix_append ..).isInfix
  · have hplain : ∀ word other, e ≠ .main word other := fun word other heq =>
      hmain ⟨word, other, heq⟩
    exact (bindExpression_within (hparts part hpart) hwithin).trans
      (bindExpression_part functions s hplain hpart)
termination_by sizeOf e

end Scope

/-! ### What names stand for in the scope of a program -/

/-- Whether a symbol is one of a body: a parameter or a local variable. -/
def Symbol.isLocal : Symbol → Bool
  | .localVariable _ | .parameter _ => true
  | _ => false

/-- No parameter and no local variable is declared with the members of a program. -/
theorem Symbol.admitsDeclared_not_isLocal {known : List PackageSymbol} {members : List Member}
    {signed : List FunctionSymbol} : AdmitsDeclared known members signed (·.isLocal = false) where
  builtin _ symbol hsymbol := by
    rcases mem_prelude hsymbol with ⟨_, -, rfl⟩ | ⟨_, -, rfl⟩ <;> rfl
  package _ _ := rfl
  imported _ _ _ _ := rfl
  struct _ := rfl
  signed _ _ := rfl
  external _ _ := rfl
  globalVariable _ := rfl

theorem isLocal_of_programScope {known : List PackageSymbol} {last : Nat} {members : List Member}
    {name : String} {symbol : Symbol}
    (h : (programScope known last members).lookup? name = some symbol) :
    symbol.isLocal = false := by
  rw [programScope_eq] at h
  exact (Walk.orderly_of_admitsDeclared Symbol.admitsDeclared_not_isLocal).among.lookup? h

/-! ### Names in scopes that are the same from outside -/

namespace Symbol

variable {typed : Bool}

@[simp] theorem name_outside (s : Symbol) : (s.outside typed).name = s.name := by
  simp [outside]

@[simp] theorem fingerprint_outside (s : Symbol) :
    (s.outside true).fingerprint = s.fingerprint := by
  simp [outside, fingerprint_withoutParameters]

/-- Whether a symbol is a variable that is not assigned to. -/
def isReadOnly (s : Symbol) : Bool :=
  s.asVariable?.any Variable.readOnly

theorem isReadOnly_eq {s s' : Symbol} (h : s'.outside typed = s.outside typed) :
    s'.isReadOnly = s.isReadOnly := by
  have houtside (s : Symbol) : (s.outside typed).isReadOnly = s.isReadOnly := by
    cases s <;> rfl
  rw [← houtside s', h, houtside s]

/-- How many arguments a call takes, if it is one of what can be called. -/
def arity? : Symbol → Option Nat
  | function f => some f.parameters.length
  | type _ => some 1
  | _ => none

theorem arity?_outside (s : Symbol) : (s.outside true).arity? = s.arity? := by
  cases s <;> simp [outside, relocate, withoutParameters, arity?, FunctionSymbol.withoutParameters]

/-- Symbols that are the same from outside take as many arguments, if they are no functions of
different numbers of parameters. -/
theorem arity?_eq {s s' : Symbol} (h : s'.outside typed = s.outside typed)
    (hcounts : ∀ f f', s = .function f → s' = .function f' →
      f'.parameters.length = f.parameters.length) : s'.arity? = s.arity? := by
  cases s with
  | function f =>
    cases s' with
    | function f' => exact congrArg some (hcounts f f' rfl rfl)
    | _ => cases h
  | _ => cases s' <;> first | rfl | cases h

end Symbol

namespace Scope

/-- What a call finds depends on the number of arguments and the fingerprint of what is called. -/
theorem useCallee_eq (s : Scope) (callee : Ident) (count : Nat) :
    s.useCallee callee count =
      match s.lookup? callee.name with
      | some symbol =>
        symbol.arity?.elim
          [.fault (.notCallable callee.name) callee.span, .unresolved callee]
          fun expected =>
            checkCount callee.name expected count callee.span ++
              [.resolved callee symbol.fingerprint]
      | none => [.fault (.undefinedFunction callee.name) callee.span, .unresolved callee] := by
  unfold useCallee
  cases s.lookup? callee.name with
  | none => rfl
  | some symbol => cases symbol <;> rfl

variable {typed : Bool} {s s' : Scope}

/-- Names stand for symbols that are the same from outside. -/
theorem lookup?_outside (h : s'.map (Symbol.outside typed) = s.map (Symbol.outside typed))
    (name : String) :
    (s'.lookup? name).map (Symbol.outside typed) = (s.lookup? name).map (Symbol.outside typed) := by
  rw [← lookup?_map Symbol.name_outside, h, lookup?_map Symbol.name_outside]

theorem rel_lookup?_outside (h : s'.map (Symbol.outside typed) = s.map (Symbol.outside typed))
    (name : String) :
    Option.Rel (fun symbol symbol' => symbol'.outside typed = symbol.outside typed)
      (s.lookup? name) (s'.lookup? name) := by
  have hlookup := lookup?_outside h name
  cases hs : s.lookup? name with
  | none =>
    rw [hs] at hlookup
    rw [Option.map_eq_none_iff.1 hlookup]
    exact .none
  | some symbol =>
    rw [hs] at hlookup
    obtain ⟨symbol', hs', hsame⟩ := Option.map_eq_some_iff.1 hlookup
    rw [hs']
    exact .some hsame

theorem useTarget_eq (s : Scope) (target : Ident) :
    s.useTarget target =
      match s.lookup? target.name with
      | some symbol =>
        .resolved target symbol.fingerprint ::
          if symbol.isReadOnly then [.fault (.readOnlyAssignment target.name) target.span] else []
      | none => [.fault (.undefinedName target.name) target.span, .unresolved target] := rfl

theorem inferType_outside (h : s'.map (Symbol.outside typed) = s.map (Symbol.outside typed))
    (functions : List TypeFunction) (e : Expression) :
    s'.inferType functions e = s.inferType functions e := by
  have hseen (s : Scope) :
      (s.map (Symbol.outside typed)).inferType functions (e.relocate .nowhere) =
        s.inferType functions e := by
    rw [← s.inferType_relocate .nowhere, ← (s.relocate _).inferType_withoutParameters typed]
    congr 1
    exact (Scope.map_map ..).symm
  rw [← hseen s', h, hseen s]

end Scope

namespace Reference

/-- The reference where a relocation puts it. -/
def relocate (g : Relocation) : Reference → Reference
  | value n => value (n.relocate g)
  | target n => target (n.relocate g)
  | call callee count => call (callee.relocate g) count
  | packageCall package callee count => packageCall (package.relocate g) (callee.relocate g) count
  | typeCall receiver callee count => typeCall (receiver.relocate g) (callee.relocate g) count
  | fieldOf object field => fieldOf (object.relocate g) (field.relocate g)
  | type clause => type (clause.relocate g)
  | packageUse n => packageUse (n.relocate g)
  | own r => own (r.relocate g)

/-- The faults that are found where a reference is looked up. -/
def errors (functions : List TypeFunction) (s : Scope) (r : Reference) : List SemanticError :=
  (r.findings functions s).filterMap Finding.error?

/-- Whether a call is counted against as many parameters in two scopes, if it is one of a function
in both. -/
def CountsAlike (s s' : Scope) : Reference → Prop
  | call callee _ => ∀ f f', s.lookup? callee.name = some (.function f) →
      s'.lookup? callee.name = some (.function f') → f'.parameters.length = f.parameters.length
  | _ => True

section

variable {functions : List TypeFunction} {typed : Bool} {s s' : Scope} {inner : Expression}
  {use : Reference}

/-- If the types of parameters count, so does their number. -/
theorem countsAlike (h : s'.map (Symbol.outside true) = s.map (Symbol.outside true))
    (use : Reference) : use.CountsAlike s s' := by
  cases use with
  | call callee count =>
    intro f f' hf hf'
    have hlookup := Scope.lookup?_outside h callee.name
    rw [hf, hf'] at hlookup
    have harity : (Symbol.function f').arity? = (Symbol.function f).arity? := by
      rw [← (Symbol.function f').arity?_outside, Option.some.inj hlookup, Symbol.arity?_outside]
    exact Option.some.inj harity
  | _ => trivial

/-- What can be seen of the findings of a name behind `main` is the same in scopes that are the same
from outside, if calls are counted against as many parameters, and symbols that are the same from
outside are not told apart. -/
theorem filterMap_findings (functions : List TypeFunction) {β : Type} {view : Finding → Option β}
    (hview : ∀ (n : Ident) {symbol symbol' : Symbol},
      symbol'.outside typed = symbol.outside typed →
      view (.resolved n symbol'.fingerprint) = view (.resolved n symbol.fingerprint))
    (h : s'.map (Symbol.outside typed) = s.map (Symbol.outside typed))
    (huse : inner.ownUse? = some use) (hcounts : use.CountsAlike s s') (g : Relocation) :
    ((use.relocate g).findings functions s').filterMap view =
      ((use.findings functions s).map (Finding.relocate g)).filterMap view := by
  cases inner with
  | name n =>
    obtain rfl := Option.some.inj huse
    have hlookup := Scope.rel_lookup?_outside h n.name
    simp only [relocate, findings, Scope.useName, Ident.relocate_name]
    generalize s.lookup? n.name = found, s'.lookup? n.name = found' at hlookup ⊢
    cases hlookup with
    | none => rfl
    | some hsame => simp [List.filterMap_cons, hview _ hsame]
  | assignment target value =>
    obtain rfl := Option.some.inj huse
    have hlookup := Scope.rel_lookup?_outside h target.name
    simp only [relocate, findings, Scope.useTarget_eq, Ident.relocate_name]
    generalize s.lookup? target.name = found, s'.lookup? target.name = found' at hlookup ⊢
    cases hlookup with
    | none => rfl
    | @some symbol symbol' hsame =>
      dsimp only
      rw [Symbol.isReadOnly_eq hsame]
      cases symbol.isReadOnly <;> simp [List.filterMap_cons, hview _ hsame]
  | call callee arguments closing =>
    obtain rfl := Option.some.inj huse
    have hlookup := Scope.rel_lookup?_outside h callee.name
    simp only [relocate, findings, Scope.useCallee_eq, Ident.relocate_name]
    simp only [CountsAlike] at hcounts
    generalize s.lookup? callee.name = found, s'.lookup? callee.name = found' at hlookup hcounts ⊢
    cases hlookup with
    | none => rfl
    | @some symbol symbol' hsame =>
      have harity : symbol'.arity? = symbol.arity? :=
        Symbol.arity?_eq hsame fun f f' hf hf' =>
          hcounts f f' (congrArg some hf) (congrArg some hf')
      dsimp only
      rw [harity]
      cases symbol.arity? with
      | none => rfl
      | some expected => simp [Scope.checkCount_relocate, List.filterMap_cons, hview _ hsame]
  | _ => cases huse

/-- With the types of parameters, everything that is found of the name is the same. -/
theorem findings_outside (h : s'.map (Symbol.outside true) = s.map (Symbol.outside true))
    (huse : inner.ownUse? = some use) (g : Relocation) :
    (use.relocate g).findings functions s' =
      (use.findings functions s).map (Finding.relocate g) := by
  have hview (n : Ident) {symbol symbol' : Symbol}
      (hsame : symbol'.outside true = symbol.outside true) :
      some (Finding.resolved n symbol'.fingerprint) = some (.resolved n symbol.fingerprint) := by
    rw [← symbol'.fingerprint_outside, hsame, symbol.fingerprint_outside]
  have hfindings := filterMap_findings functions hview h huse (countsAlike h use) g
  rwa [List.filterMap_some, List.filterMap_some] at hfindings

/-- The faults of the name are the same in any case. -/
theorem errors_outside (h : s'.map (Symbol.outside typed) = s.map (Symbol.outside typed))
    (huse : inner.ownUse? = some use) (hcounts : use.CountsAlike s s') (g : Relocation) :
    (use.relocate g).errors functions s' =
      (use.errors functions s).map (SemanticError.relocate g) := by
  have herror (f : Finding) : (f.relocate g).error? = f.error?.map (SemanticError.relocate g) := by
    cases f <;> rfl
  rw [errors, filterMap_findings functions (fun _ _ _ _ => rfl) h huse hcounts, errors,
    List.filterMap_map, List.map_filterMap]
  exact List.filterMap_congr fun f _ => herror f

end

end Reference

/-- Whether names behind `main` mean the same in two scopes: they stand for what is the same from
outside, and give expressions the same types; they have the same faults, if they call functions of
as many parameters; and if parameters have the same types, everything that is found of them is the
same. -/
structure Scope.MainAlike (functions : List TypeFunction) (typed : Bool) (s s' : Scope) : Prop where
  lookup? : ∀ name, (s'.lookup? name).map (Symbol.outside typed) =
    (s.lookup? name).map (Symbol.outside typed)
  inferType : ∀ e : Expression, s'.inferType functions e = s.inferType functions e
  errors : ∀ (inner : Expression) (use : Reference), inner.ownUse? = some use →
    use.CountsAlike s s' → ∀ g, (use.relocate g).errors functions s' =
      (use.errors functions s).map (SemanticError.relocate g)
  findings : typed = true → ∀ (inner : Expression) (use : Reference), inner.ownUse? = some use →
    ∀ g, (use.relocate g).findings functions s' =
      (use.findings functions s).map (Finding.relocate g)

theorem Scope.mainAlike_outside {typed : Bool} {s s' : Scope}
    (h : s'.map (Symbol.outside typed) = s.map (Symbol.outside typed))
    (functions : List TypeFunction) : s.MainAlike functions typed s' where
  lookup? := lookup?_outside h
  inferType := inferType_outside h functions
  errors _ _ huse hcounts := Reference.errors_outside h huse hcounts
  findings htyped _ _ huse := by
    subst htyped
    exact Reference.findings_outside h huse

/-! ### Programs -/

/-- Behind `main`, names stand for what the program or the prelude declares.

Every expression with `main` that a program has is in one that is listed with the regions around it.
`main` speaks of one name, which is looked up in the scope of the whole program; the arguments of a
call or an assigned value are bound in a scope that sees the regions around them. No name stands for
a parameter or a local variable in the scope of the program. The type of a name or of a call behind
`main` is the one that it has in the region of the program and the one around it, whatever regions
are inside of these. In another program that is the same from outside, names behind `main` mean the
same. -/
theorem bindProgram_mainNames {tokens : List Token} {members : List Member}
    (hparse : parseProgram tokens = .ok members) (known : List PackageSymbol) (last : Nat) :
    let functions := typeFunctions last
    let scope := programScope known last members
    let root := prelude (last + typeFunctionIds)
    (∀ m ∈ members, ∀ keyword inner, Within (.expression (.main keyword inner)) (.member m) →
      Mentioned (.main keyword inner) (writtenIn known last members)) ∧
    (∀ entry ∈ writtenIn known last members, ∀ keyword inner,
      Within (.expression (.main keyword inner)) (.expression entry.expression) →
        ∃ use s, inner.ownUse? = some use ∧ s.Sees scope.inner root entry.regions ∧
          Scope.bindExpression functions s (.main keyword inner) =
            Scope.bindExpressions functions s inner.parts ++ use.findings functions scope ∧
          Scope.bindExpression functions s (.main keyword inner) <:+:
            (bindProgram known last members).findings ∧
          Answers scope.inner root (Expression.usesAll entry.regions inner.parts)
            (Finding.recorded (Scope.bindExpressions functions s inner.parts))) ∧
    (∀ name symbol, scope.lookup? name = some symbol → symbol.isLocal = false) ∧
    (∀ (s : Scope) (locals : List Region) (program around : Region),
      s.regions = locals ++ [program, around] →
        ∀ keyword inner, (∀ target value, inner ≠ .assignment target value) →
          s.inferType functions (.main keyword inner) =
            Scope.inferType functions ⟨program, [around]⟩ inner) ∧
    ∀ typed members', outside typed members' = outside typed members →
      scope.MainAlike functions typed (programScope known last members') := by
  intro functions scope root
  have hprogram {s : Scope} {regions : List (List Declared)}
      (h : s.Sees scope.inner root regions) : s.program = scope := by
    obtain ⟨locals, hregions, -⟩ := h
    exact Scope.programIn_eq hregions
  refine ⟨?_, ?_, ?_, ?_, ?_⟩
  · intro m hm keyword inner hwithin
    exact (mentioned_writtenIn known last members).2 ⟨m, hm, hwithin⟩
  · intro entry hentry keyword inner hwithin
    obtain ⟨s, hsees, hfound⟩ := bindProgram_written known last members hentry
    have hqualifies : QualifiesThroughout entry.expression := by
      intro e he
      obtain ⟨m, hm, hin⟩ := (mentioned_writtenIn known last members).1 ⟨entry, hentry, he⟩
      exact parseProgram_qualified hparse m hm e hin
    obtain ⟨use, huse⟩ := Option.isSome_iff_exists.1 (hqualifies _ hwithin keyword inner rfl)
    have hmain := Scope.bindExpression_main functions s huse keyword
    rw [hprogram hsees] at hmain
    exact ⟨use, s, huse, hsees, hmain,
      (Scope.bindExpression_within functions s hqualifies hwithin).trans hfound,
      hsees.expressions functions inner.parts⟩
  · intro name symbol h
    exact isLocal_of_programScope h
  · intro s locals program around hregions keyword inner hinner
    have hprogram : s.program = ⟨program, [around]⟩ := Scope.programIn_eq hregions
    rw [← hprogram]
    cases inner with
    | assignment target value => exact absurd rfl (hinner target value)
    | _ => rfl
  · intro typed members' h
    exact Scope.mainAlike_outside (programScope_outside h known last) functions

/-- Behind `main`, the global variable is assigned to and not the parameter of its name. This stays
so if the parameter is renamed and the function gets another body. -/
theorem bindProgram_mainNames_assignment :
    ∃ tokens members f keyword target value,
      tokenize 0 true "var x = 1 fn f(x int) \x7b main x = x \x7d" = .ok tokens ∧
      parseProgram tokens = .ok members ∧ .function f ∈ members ∧
      f.body.statements = [.expression (.main keyword (.assignment target (.name value)))] ∧
      (∃ found, found ++ [.resolved target "GV_x_7"] <:+: (bindProgram [] 0 members).findings) ∧
      ∀ parameters body, parameters.map Parameter.type = f.parameters.map Parameter.type →
        (programScope [] 0 members).MainAlike (typeFunctions 0) true
          (programScope [] 0 (members.dropLast ++ [.function { f with parameters, body }])) := by
  let tokens : List Token :=
    [⟨.keyword .varWord, "var", none, ⟨0, 0, 3, 1, 1, 1, 4⟩, true⟩,
      ⟨.identifier, "x", none, ⟨0, 4, 5, 1, 5, 1, 6⟩, true⟩,
      ⟨.sign .assign, "=", none, ⟨0, 6, 7, 1, 7, 1, 8⟩, true⟩,
      ⟨.integer, "1", some (.integer 1), ⟨0, 8, 9, 1, 9, 1, 10⟩, true⟩,
      ⟨.keyword .fnWord, "fn", none, ⟨0, 10, 12, 1, 11, 1, 13⟩, true⟩,
      ⟨.identifier, "f", none, ⟨0, 13, 14, 1, 14, 1, 15⟩, false⟩,
      ⟨.sign .lparen, "(", none, ⟨0, 14, 15, 1, 15, 1, 16⟩, false⟩,
      ⟨.identifier, "x", none, ⟨0, 15, 16, 1, 16, 1, 17⟩, true⟩,
      ⟨.identifier, "int", none, ⟨0, 17, 20, 1, 18, 1, 21⟩, false⟩,
      ⟨.sign .rparen, ")", none, ⟨0, 20, 21, 1, 21, 1, 22⟩, true⟩,
      ⟨.sign .lbrace, "\x7b", none, ⟨0, 22, 23, 1, 23, 1, 24⟩, true⟩,
      ⟨.identifier, "main", none, ⟨0, 24, 28, 1, 25, 1, 29⟩, true⟩,
      ⟨.identifier, "x", none, ⟨0, 29, 30, 1, 30, 1, 31⟩, true⟩,
      ⟨.sign .assign, "=", none, ⟨0, 31, 32, 1, 32, 1, 33⟩, true⟩,
      ⟨.identifier, "x", none, ⟨0, 33, 34, 1, 34, 1, 35⟩, true⟩,
      ⟨.sign .rbrace, "\x7d", none, ⟨0, 35, 36, 1, 36, 1, 37⟩, true⟩,
      Token.ending ⟨0, 36, 36, 1, 37, 1, 37⟩]
  let one : Token := ⟨.integer, "1", some (.integer 1), ⟨0, 8, 9, 1, 9, 1, 10⟩, true⟩
  let global : VariableDeclaration :=
    ⟨⟨0, 0, 3, 1, 1, 1, 4⟩, false, none, ⟨"x", ⟨0, 4, 5, 1, 5, 1, 6⟩⟩, some (.literal one)⟩
  let keyword : Span := ⟨0, 24, 28, 1, 25, 1, 29⟩
  let target : Ident := ⟨"x", ⟨0, 29, 30, 1, 30, 1, 31⟩⟩
  let value : Ident := ⟨"x", ⟨0, 33, 34, 1, 34, 1, 35⟩⟩
  let main : Expression := .main keyword (.assignment target (.name value))
  let f : FunctionDeclaration :=
    { visibility := none
      keyword := ⟨0, 10, 12, 1, 11, 1, 13⟩
      name := ⟨"f", ⟨0, 13, 14, 1, 14, 1, 15⟩⟩
      parameters :=
        [⟨⟨"x", ⟨0, 15, 16, 1, 16, 1, 17⟩⟩,
          ⟨none, ⟨"int", ⟨0, 17, 20, 1, 18, 1, 21⟩⟩, [], none⟩⟩]
      returnType := none
      body := ⟨⟨0, 22, 23, 1, 23, 1, 24⟩, [.expression main], ⟨0, 35, 36, 1, 36, 1, 37⟩⟩ }
  have htokens :
      tokenize 0 true "var x = 1 fn f(x int) \x7b main x = x \x7d" = .ok tokens := by
    decide +kernel
  have hmembers :
      parseProgram tokens = .ok [.statement (.declaration global), .function f] := by
    dsimp only [tokens, one, global, main, keyword, target, value, f]
    cbv
  obtain ⟨hmentioned, hbound, -, -, houtside⟩ := bindProgram_mainNames hmembers [] 0
  refine ⟨tokens, _, f, keyword, target, value, htokens, hmembers, by simp, rfl, ?_, ?_⟩
  · have hstatement : Within (.expression main) (.statement (.expression main)) :=
      .under List.mem_cons_self .self
    have hbody : Within (.expression main) (.statement f.body.toStatement) :=
      .under List.mem_cons_self hstatement
    have hwithin : Within (.expression main) (.member (.function f)) :=
      .under (List.mem_append_right _ (List.mem_singleton_self _)) hbody
    obtain ⟨entry, hentry, hin⟩ := hmentioned _ (by simp) keyword _ hwithin
    obtain ⟨use, s, huse, -, hmain, hfound, -⟩ := hbound entry hentry keyword _ hin
    obtain rfl := Option.some.inj huse
    have hglobal : (Reference.target target).findings (typeFunctions 0)
        (programScope [] 0 [.statement (.declaration global), .function f]) =
          [.resolved target "GV_x_7"] := by
      decide +kernel
    rw [hmain, hglobal] at hfound
    exact ⟨_, hfound⟩
  · intro parameters body htypes
    exact houtside true _ (outside_function f body (fun _ => htypes) [_] [])

/-- A call behind `main` is counted against the parameters of what it calls, so another parameter of
the function that it stands in may make it a fault. -/
theorem mainCall_countsParameters :
    ∃ tokens tokens' f f' keyword keyword' callee callee' closing closing',
      tokenize 0 true "fn f() \x7b main f() \x7d" = .ok tokens ∧
      parseProgram tokens = .ok [.function f] ∧
      f.body.statements = [.expression (.main keyword (.call callee [] closing))] ∧
      tokenize 0 true "fn f(x int) \x7b main f() \x7d" = .ok tokens' ∧
      parseProgram tokens' = .ok [.function f'] ∧
      f'.body.statements = [.expression (.main keyword' (.call callee' [] closing'))] ∧
      outside false [.function f'] = outside false [.function f] ∧
      (bindProgram [] 0 [.function f]).errors = [] ∧
      (bindProgram [] 0 [.function f']).errors = [⟨.argumentCount "f" 1 0, callee'.span⟩] := by
  let tokens : List Token :=
    [⟨.keyword .fnWord, "fn", none, ⟨0, 0, 2, 1, 1, 1, 3⟩, true⟩,
      ⟨.identifier, "f", none, ⟨0, 3, 4, 1, 4, 1, 5⟩, false⟩,
      ⟨.sign .lparen, "(", none, ⟨0, 4, 5, 1, 5, 1, 6⟩, false⟩,
      ⟨.sign .rparen, ")", none, ⟨0, 5, 6, 1, 6, 1, 7⟩, true⟩,
      ⟨.sign .lbrace, "\x7b", none, ⟨0, 7, 8, 1, 8, 1, 9⟩, true⟩,
      ⟨.identifier, "main", none, ⟨0, 9, 13, 1, 10, 1, 14⟩, true⟩,
      ⟨.identifier, "f", none, ⟨0, 14, 15, 1, 15, 1, 16⟩, false⟩,
      ⟨.sign .lparen, "(", none, ⟨0, 15, 16, 1, 16, 1, 17⟩, false⟩,
      ⟨.sign .rparen, ")", none, ⟨0, 16, 17, 1, 17, 1, 18⟩, true⟩,
      ⟨.sign .rbrace, "\x7d", none, ⟨0, 18, 19, 1, 19, 1, 20⟩, true⟩,
      Token.ending ⟨0, 19, 19, 1, 20, 1, 20⟩]
  let tokens' : List Token :=
    [⟨.keyword .fnWord, "fn", none, ⟨0, 0, 2, 1, 1, 1, 3⟩, true⟩,
      ⟨.identifier, "f", none, ⟨0, 3, 4, 1, 4, 1, 5⟩, false⟩,
      ⟨.sign .lparen, "(", none, ⟨0, 4, 5, 1, 5, 1, 6⟩, false⟩,
      ⟨.identifier, "x", none, ⟨0, 5, 6, 1, 6, 1, 7⟩, true⟩,
      ⟨.identifier, "int", none, ⟨0, 7, 10, 1, 8, 1, 11⟩, false⟩,
      ⟨.sign .rparen, ")", none, ⟨0, 10, 11, 1, 11, 1, 12⟩, true⟩,
      ⟨.sign .lbrace, "\x7b", none, ⟨0, 12, 13, 1, 13, 1, 14⟩, true⟩,
      ⟨.identifier, "main", none, ⟨0, 14, 18, 1, 15, 1, 19⟩, true⟩,
      ⟨.identifier, "f", none, ⟨0, 19, 20, 1, 20, 1, 21⟩, false⟩,
      ⟨.sign .lparen, "(", none, ⟨0, 20, 21, 1, 21, 1, 22⟩, false⟩,
      ⟨.sign .rparen, ")", none, ⟨0, 21, 22, 1, 22, 1, 23⟩, true⟩,
      ⟨.sign .rbrace, "\x7d", none, ⟨0, 23, 24, 1, 24, 1, 25⟩, true⟩,
      Token.ending ⟨0, 24, 24, 1, 25, 1, 25⟩]
  let callee : Ident := ⟨"f", ⟨0, 14, 15, 1, 15, 1, 16⟩⟩
  let callee' : Ident := ⟨"f", ⟨0, 19, 20, 1, 20, 1, 21⟩⟩
  let f : FunctionDeclaration :=
    { visibility := none
      keyword := ⟨0, 0, 2, 1, 1, 1, 3⟩
      name := ⟨"f", ⟨0, 3, 4, 1, 4, 1, 5⟩⟩
      parameters := []
      returnType := none
      body :=
        ⟨⟨0, 7, 8, 1, 8, 1, 9⟩,
          [.expression
            (.main ⟨0, 9, 13, 1, 10, 1, 14⟩ (.call callee [] ⟨0, 16, 17, 1, 17, 1, 18⟩))],
          ⟨0, 18, 19, 1, 19, 1, 20⟩⟩ }
  let f' : FunctionDeclaration :=
    { visibility := none
      keyword := ⟨0, 0, 2, 1, 1, 1, 3⟩
      name := ⟨"f", ⟨0, 3, 4, 1, 4, 1, 5⟩⟩
      parameters :=
        [⟨⟨"x", ⟨0, 5, 6, 1, 6, 1, 7⟩⟩, ⟨none, ⟨"int", ⟨0, 7, 10, 1, 8, 1, 11⟩⟩, [], none⟩⟩]
      returnType := none
      body :=
        ⟨⟨0, 12, 13, 1, 13, 1, 14⟩,
          [.expression
            (.main ⟨0, 14, 18, 1, 15, 1, 19⟩ (.call callee' [] ⟨0, 21, 22, 1, 22, 1, 23⟩))],
          ⟨0, 23, 24, 1, 24, 1, 25⟩⟩ }
  have htokens : tokenize 0 true "fn f() \x7b main f() \x7d" = .ok tokens := by
    decide +kernel
  have hmembers : parseProgram tokens = .ok [.function f] := by
    dsimp only [tokens, callee, f]
    cbv
  have htokens' : tokenize 0 true "fn f(x int) \x7b main f() \x7d" = .ok tokens' := by
    decide +kernel
  have hmembers' : parseProgram tokens' = .ok [.function f'] := by
    dsimp only [tokens', callee', f']
    cbv
  refine ⟨tokens, tokens', f, f', _, _, callee, callee', _, _, htokens, hmembers, rfl, htokens',
    hmembers', rfl, rfl, ?_, ?_⟩
  · decide +kernel
  · decide +kernel

end TodLang
