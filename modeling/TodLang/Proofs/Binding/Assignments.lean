import TodLang.Proofs.Binding.MainNames
import TodLang.Proofs.Binding.Occurrences
/-!
Assignments to names. Wherever a name is assigned to, what is found of it is that it is unknown or
that it stands for a variable that is not assigned to (`bindProgram_targets`). Whether it stands for
a variable at all is not asked: what is assigned to may be a function, a type, a structure or a
package.
-/

namespace TodLang

open Node

/-- The name that an expression assigns to. An assignment behind `main` is an expression of its own,
which is bound in the program's scope. -/
def Expression.target? : Expression → Option Ident
  | .assignment target _ | .edit target _ _ | .step target _ => some target
  | _ => none

theorem Expression.reference?_of_target? {e : Expression} {n : Ident} (h : e.target? = some n) :
    e.reference? = some (.target n) := by
  cases e with
  | assignment target _ | edit target _ _ | step target _ =>
    obtain rfl := Option.some.inj h
    rfl
  | _ => cases h

namespace Scope

/-- The faults of a name that is assigned to. -/
def targetFaults (s : Scope) (target : Ident) : List SemanticError :=
  match s.lookup? target.name with
  | some symbol =>
    if symbol.isReadOnly then [⟨.readOnlyAssignment target.name, target.span⟩] else []
  | none => [⟨.undefinedName target.name, target.span⟩]

theorem targetFaults_eq_nil_iff {s : Scope} {target : Ident} :
    s.targetFaults target = [] ↔
      ∃ symbol, s.lookup? target.name = some symbol ∧ symbol.isReadOnly = false := by
  unfold targetFaults
  cases s.lookup? target.name with
  | none => simp
  | some symbol => simp

variable (s : Scope) (target : Ident)

/-- Everything that is found of a name that is assigned to stands at the name. -/
theorem foundAt_useTarget :
    Finding.foundAt target.span (s.useTarget target) = s.useTarget target := by
  unfold useTarget
  cases s.lookup? target.name with
  | none => simp [Finding.foundAt, Finding.place?, Finding.fault, Finding.unresolved,
      SemanticFault.isOfUse]
  | some symbol =>
    dsimp only
    split <;> simp [Finding.foundAt, Finding.place?, Finding.fault, Finding.resolved,
      SemanticFault.isOfUse]

theorem resolutions_useTarget :
    (s.useTarget target).filterMap Finding.resolution? =
      [⟨target, (s.lookup? target.name).map Symbol.fingerprint⟩] := by
  unfold useTarget
  cases s.lookup? target.name with
  | none => rfl
  | some symbol =>
    dsimp only
    split <;> rfl

theorem errors_useTarget :
    (s.useTarget target).filterMap Finding.error? = s.targetFaults target := by
  unfold useTarget targetFaults
  cases s.lookup? target.name with
  | none => rfl
  | some symbol =>
    have hread : symbol.asVariable?.any Variable.readOnly = symbol.isReadOnly := rfl
    dsimp only
    rw [hread]
    cases symbol.isReadOnly <;> rfl

end Scope

section

variable {file : Nat} {hashComments : Bool} {source : String} {tokens : List Token}
  {members : List Member} {known : List PackageSymbol} {last : Nat} {e : Expression} {n : Ident}
  {s : Scope}

/-- What a program says of a name that is assigned to. -/
theorem BoundIn.target (h : BoundIn known last members e s) (hn : e.target? = some n)
    (htokens : tokenize file hashComments source = .ok tokens)
    (hparse : parseProgram tokens = .ok members) :
    (bindProgram known last members).resolutionsAt n.span =
        [⟨n, (s.lookup? n.name).map Symbol.fingerprint⟩] ∧
      (bindProgram known last members).errorsAt n.span = s.targetFaults n := by
  have hfound := h.foundAt_eq (Expression.reference?_of_target? hn) htokens hparse
    List.mem_cons_self
  have htarget : Finding.foundAt n.span (bindProgram known last members).findings =
      s.useTarget n := hfound.trans (s.foundAt_useTarget n)
  rw [BoundProgram.resolutionsAt_eq, BoundProgram.errorsAt_eq, htarget, s.resolutions_useTarget,
    s.errors_useTarget]
  exact ⟨rfl, rfl⟩

/-- A program that has no faults assigns to no name that is unknown or stands for a variable that is
not assigned to.

Every assignment to a name in a program is bound in some scope. Wherever it is bound, its target is
recorded once, with what it stands for there, and it has no fault exactly if it stands for something
that is no read-only variable. -/
theorem bindProgram_targets (htokens : tokenize file hashComments source = .ok tokens)
    (hparse : parseProgram tokens = .ok members) (known : List PackageSymbol) (last : Nat) :
    let p := bindProgram known last members
    (∀ m ∈ members, ∀ e n, Within (.expression e) (.member m) → e.target? = some n →
      ∃ s, BoundIn known last members e s) ∧
    (∀ e n s, e.target? = some n → BoundIn known last members e s →
      p.resolutionsAt n.span = [⟨n, (s.lookup? n.name).map Symbol.fingerprint⟩] ∧
        (p.errorsAt n.span = [] ↔
          ∃ symbol, s.lookup? n.name = some symbol ∧ symbol.isReadOnly = false)) ∧
    (p.errors = [] → ∀ e n s, e.target? = some n → BoundIn known last members e s →
      ∃ symbol, s.lookup? n.name = some symbol ∧ symbol.isReadOnly = false) := by
  intro p
  refine ⟨?_, ?_, ?_⟩
  · intro m hm e n hwithin hn
    exact exists_boundIn hm hwithin (Expression.reference?_of_target? hn)
  · intro e n s hn h
    obtain ⟨hresolutions, herrors⟩ := h.target hn htokens hparse
    rw [herrors]
    exact ⟨hresolutions, Scope.targetFaults_eq_nil_iff⟩
  · intro hp e n s hn h
    obtain ⟨-, herrors⟩ := h.target hn htokens hparse
    rw [← Scope.targetFaults_eq_nil_iff, ← herrors, BoundProgram.errorsAt, hp, List.filter_nil]

end

/-- A global variable that is not assigned to is assigned to in a function. -/
theorem bindProgram_targets_readOnly :
    ∃ tokens members e n s,
      tokenize 0 true "set x = 1 fn f() \x7b x = 2 \x7d" = .ok tokens ∧
      parseProgram tokens = .ok members ∧ e.target? = some n ∧ BoundIn [] 0 members e s ∧
      (bindProgram [] 0 members).errorsAt n.span = [⟨.readOnlyAssignment "x", n.span⟩] ∧
      ¬ ∃ symbol, s.lookup? n.name = some symbol ∧ symbol.isReadOnly = false := by
  let one : Token := ⟨.integer, "1", some (.integer 1), ⟨0, 8, 9, 1, 9, 1, 10⟩, true⟩
  let two : Token := ⟨.integer, "2", some (.integer 2), ⟨0, 23, 24, 1, 24, 1, 25⟩, true⟩
  let tokens : List Token :=
    [⟨.keyword .setWord, "set", none, ⟨0, 0, 3, 1, 1, 1, 4⟩, true⟩,
      ⟨.identifier, "x", none, ⟨0, 4, 5, 1, 5, 1, 6⟩, true⟩,
      ⟨.sign .assign, "=", none, ⟨0, 6, 7, 1, 7, 1, 8⟩, true⟩, one,
      ⟨.keyword .fnWord, "fn", none, ⟨0, 10, 12, 1, 11, 1, 13⟩, true⟩,
      ⟨.identifier, "f", none, ⟨0, 13, 14, 1, 14, 1, 15⟩, false⟩,
      ⟨.sign .lparen, "(", none, ⟨0, 14, 15, 1, 15, 1, 16⟩, false⟩,
      ⟨.sign .rparen, ")", none, ⟨0, 15, 16, 1, 16, 1, 17⟩, true⟩,
      ⟨.sign .lbrace, "\x7b", none, ⟨0, 17, 18, 1, 18, 1, 19⟩, true⟩,
      ⟨.identifier, "x", none, ⟨0, 19, 20, 1, 20, 1, 21⟩, true⟩,
      ⟨.sign .assign, "=", none, ⟨0, 21, 22, 1, 22, 1, 23⟩, true⟩, two,
      ⟨.sign .rbrace, "\x7d", none, ⟨0, 25, 26, 1, 26, 1, 27⟩, true⟩,
      Token.ending ⟨0, 26, 26, 1, 27, 1, 27⟩]
  let global : VariableDeclaration :=
    ⟨⟨0, 0, 3, 1, 1, 1, 4⟩, true, none, ⟨"x", ⟨0, 4, 5, 1, 5, 1, 6⟩⟩, some (.literal one)⟩
  let target : Ident := ⟨"x", ⟨0, 19, 20, 1, 20, 1, 21⟩⟩
  let e : Expression := .assignment target (.literal two)
  let f : FunctionDeclaration :=
    { visibility := none
      keyword := ⟨0, 10, 12, 1, 11, 1, 13⟩
      name := ⟨"f", ⟨0, 13, 14, 1, 14, 1, 15⟩⟩
      parameters := []
      returnType := none
      body := ⟨⟨0, 17, 18, 1, 18, 1, 19⟩, [.expression e], ⟨0, 25, 26, 1, 26, 1, 27⟩⟩ }
  have htokens : tokenize 0 true "set x = 1 fn f() \x7b x = 2 \x7d" = .ok tokens := by
    decide +kernel
  have hmembers : parseProgram tokens = .ok [.statement (.declaration global), .function f] := by
    dsimp only [tokens, one, two, global, target, e, f]
    cbv
  obtain ⟨hbound, htargets, -⟩ := bindProgram_targets htokens hmembers [] 0
  have hwithin : Within (.expression e) (.member (.function f)) :=
    .of_body List.mem_cons_self (.under List.mem_cons_self .self)
  obtain ⟨s, hs⟩ := hbound (.function f) (by simp) e target hwithin rfl
  obtain ⟨-, hiff⟩ := htargets e target s rfl hs
  have herrors : (bindProgram [] 0 [.statement (.declaration global), .function f]).errorsAt
      target.span = [⟨.readOnlyAssignment "x", target.span⟩] := by
    decide +kernel
  refine ⟨tokens, _, e, target, s, htokens, hmembers, rfl, hs, herrors, ?_⟩
  rw [← hiff, herrors]
  exact List.cons_ne_nil _ _

/-- A function that every program has is assigned to, and the program has no faults. -/
theorem assignment_to_function :
    ∃ tokens f target value s,
      tokenize 0 true "fn f() \x7b print = 1 \x7d" = .ok tokens ∧
      parseProgram tokens = .ok [.function f] ∧
      f.body.statements = [.expression (.assignment target value)] ∧
      BoundIn [] 0 [.function f] (.assignment target value) s ∧
      (s.lookup? target.name).map Symbol.kind = some .function ∧
      (bindProgram [] 0 [.function f]).errors = [] := by
  let one : Token := ⟨.integer, "1", some (.integer 1), ⟨0, 17, 18, 1, 18, 1, 19⟩, true⟩
  let tokens : List Token :=
    [⟨.keyword .fnWord, "fn", none, ⟨0, 0, 2, 1, 1, 1, 3⟩, true⟩,
      ⟨.identifier, "f", none, ⟨0, 3, 4, 1, 4, 1, 5⟩, false⟩,
      ⟨.sign .lparen, "(", none, ⟨0, 4, 5, 1, 5, 1, 6⟩, false⟩,
      ⟨.sign .rparen, ")", none, ⟨0, 5, 6, 1, 6, 1, 7⟩, true⟩,
      ⟨.sign .lbrace, "\x7b", none, ⟨0, 7, 8, 1, 8, 1, 9⟩, true⟩,
      ⟨.identifier, "print", none, ⟨0, 9, 14, 1, 10, 1, 15⟩, true⟩,
      ⟨.sign .assign, "=", none, ⟨0, 15, 16, 1, 16, 1, 17⟩, true⟩, one,
      ⟨.sign .rbrace, "\x7d", none, ⟨0, 19, 20, 1, 20, 1, 21⟩, true⟩,
      Token.ending ⟨0, 20, 20, 1, 21, 1, 21⟩]
  let target : Ident := ⟨"print", ⟨0, 9, 14, 1, 10, 1, 15⟩⟩
  let f : FunctionDeclaration :=
    { visibility := none
      keyword := ⟨0, 0, 2, 1, 1, 1, 3⟩
      name := ⟨"f", ⟨0, 3, 4, 1, 4, 1, 5⟩⟩
      parameters := []
      returnType := none
      body :=
        ⟨⟨0, 7, 8, 1, 8, 1, 9⟩, [.expression (.assignment target (.literal one))],
          ⟨0, 19, 20, 1, 20, 1, 21⟩⟩ }
  have htokens : tokenize 0 true "fn f() \x7b print = 1 \x7d" = .ok tokens := by
    decide +kernel
  have hmembers : parseProgram tokens = .ok [.function f] := by
    dsimp only [tokens, one, target, f]
    cbv
  let s : Scope := (Walk.declaring [] 0 [.function f]).enter.scope
  refine ⟨tokens, f, target, _, s, htokens, hmembers, rfl, ?_, ?_, ?_⟩
  · exact ⟨_, rfl, ⟨s, .target target⟩, List.mem_cons_self, .self _ _⟩
  · decide +kernel
  · decide +kernel

end TodLang
