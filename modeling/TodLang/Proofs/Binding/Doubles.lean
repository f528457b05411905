import TodLang.Proofs.Binding.Firsts
import TodLang.Proofs.Binding.Permutation
import TodLang.Proofs.Binding.Variables
/-!
Names that are declared twice. A name is found to be declared already where something is declared,
and nowhere else: no expression and no written type says so (`Scope.doubles_bindExpression`,
`Scope.doubles_resolveType`). Where symbols are declared one after another in a region, the names
that are found to be declared already are those that are not the first of their name
(`Walk.declare_ofDeclared`).
-/

namespace TodLang

/-- The name that an error says to be declared already, at its place. -/
def SemanticError.double? : SemanticError → Option Ident
  | ⟨.alreadyDeclared name, span⟩ => some ⟨name, span⟩
  | _ => none

theorem SemanticError.double?_eq_some_iff {e : SemanticError} {n : Ident} :
    e.double? = some n ↔ e = ⟨.alreadyDeclared n.name, n.span⟩ := by
  constructor
  · intro h
    obtain ⟨fault, span⟩ := e
    cases fault with
    | alreadyDeclared name =>
      obtain rfl := Option.some.inj h
      rfl
    | _ => cases h
  · rintro rfl
    rfl

/-- The names that are found to be declared already. -/
def doubles (findings : List Finding) : List Ident :=
  (findings.filterMap Finding.error?).filterMap SemanticError.double?

@[simp] theorem doubles_nil : doubles [] = [] := rfl

@[simp] theorem doubles_append (front back : List Finding) :
    doubles (front ++ back) = doubles front ++ doubles back := by
  rw [doubles, List.filterMap_append, List.filterMap_append]
  rfl

theorem doubles_both {front back : List Finding} (hfront : doubles front = [])
    (hback : doubles back = []) : doubles (front ++ back) = [] := by
  rw [doubles_append, hfront, hback]
  rfl

theorem doubles_checkCount (name : String) (expected found : Nat) (span : Span) :
    doubles (Scope.checkCount name expected found span) = [] := by
  unfold Scope.checkCount
  split <;> rfl

namespace Scope

/-! ### Uses of names -/

theorem doubles_resolveType (s : Scope) (clause : TypeClause) :
    doubles (s.resolveType clause).2 = [] := by
  unfold resolveType
  cases htype : s.lookupType clause with
  | ok type => rfl
  | error e =>
    obtain ⟨fault, span⟩ := e
    have hfault : fault.isOfType = true := (Reference.lookupType_error htype).1
    cases fault with
    | alreadyDeclared name => cases hfault
    | _ => rfl

theorem doubles_useName (s : Scope) (n : Ident) : doubles (s.useName n) = [] := by
  unfold useName
  split <;> rfl

theorem doubles_useTarget (s : Scope) (n : Ident) : doubles (s.useTarget n) = [] := by
  unfold useTarget
  split
  · split <;> rfl
  · rfl

theorem doubles_useCallee (s : Scope) (callee : Ident) (count : Nat) :
    doubles (s.useCallee callee count) = [] := by
  unfold useCallee
  split
  · exact doubles_both (doubles_checkCount ..) rfl
  · exact doubles_both (doubles_checkCount ..) rfl
  · rfl
  · rfl

theorem doubles_usePackageCall (s : Scope) (package callee : Ident) (count : Nat) :
    doubles (s.usePackageCall package callee count) = [] := by
  unfold usePackageCall
  split
  · next p _ =>
    change doubles (usePackageFunction p package callee count) = []
    unfold usePackageFunction
    split
    · exact doubles_both (doubles_checkCount ..) rfl
    · split <;> rfl
  · rfl

theorem doubles_useTypeCall (functions : List TypeFunction) (s : Scope) (receiver callee : Ident)
    (count : Nat) : doubles (useTypeCall functions s receiver callee count) = [] := by
  unfold useTypeCall
  split
  · rfl
  · next symbol _ =>
    cases htype : receiverType? symbol with
    | none => rfl
    | some type =>
      change doubles (useTypeFunction functions type callee count) = []
      unfold useTypeFunction
      split
      · exact doubles_both (doubles_checkCount ..) rfl
      · split <;> rfl

theorem doubles_useField (s : Scope) (object field : Ident) :
    doubles (s.useField object field) = [] := by
  unfold useField
  split
  · rfl
  · next symbol _ =>
    cases howner : (symbol.asVariable?.map Variable.type).bind s.structOf? with
    | none => rfl
    | some owner =>
      change doubles (useStructField owner field) = []
      unfold useStructField
      split <;> rfl

theorem doubles_checkFields (s : Scope) (clause : TypeClause) (count : Nat) (span : Span) :
    doubles (s.checkFields clause count span) = [] := by
  unfold checkFields
  split
  · split
    · rfl
    · exact doubles_checkCount ..
  · rfl

mutual

/-- No expression declares a name. -/
theorem doubles_bindExpression (functions : List TypeFunction) (s : Scope) (e : Expression) :
    doubles (bindExpression functions s e) = [] := by
  cases e with
  | literal token => rfl
  | this keyword => rfl
  | parenthesized opening inner closing => exact doubles_bindExpression functions s inner
  | name n => exact s.doubles_useName n
  | assignment target value =>
    exact doubles_both (doubles_bindExpression functions s value) (s.doubles_useTarget target)
  | call callee arguments closing =>
    exact doubles_both (doubles_bindExpressions functions s arguments) (s.doubles_useCallee ..)
  | cast type arguments closing =>
    exact doubles_both (doubles_bindExpressions functions s arguments) (s.doubles_resolveType type)
  | packageCall package callee arguments closing =>
    exact doubles_both (doubles_bindExpressions functions s arguments)
      (s.doubles_usePackageCall ..)
  | typeCall receiver callee arguments closing =>
    exact doubles_both (doubles_bindExpressions functions s arguments)
      (doubles_useTypeCall functions s ..)
  | unary operator operand => exact doubles_bindExpression functions s operand
  | binary left operator right =>
    exact doubles_both (doubles_bindExpression functions s left)
      (doubles_bindExpression functions s right)
  | edit target operator value =>
    exact doubles_both (doubles_bindExpression functions s value) (s.doubles_useTarget target)
  | step target operator => exact s.doubles_useTarget target
  | fieldAccess object field => exact s.doubles_useField object field
  | fieldAssignment object field value =>
    exact doubles_both (doubles_bindExpression functions s value) (s.doubles_useField object field)
  | arrayAccess array index closing =>
    exact doubles_both (doubles_bindExpression functions s array)
      (doubles_bindExpression functions s index)
  | arrayAssignment array index value =>
    exact doubles_both (doubles_both (doubles_bindExpression functions s array)
      (doubles_bindExpression functions s index)) (doubles_bindExpression functions s value)
  | reference ampersand n => exact s.doubles_useName n
  | dereference star operand => exact doubles_bindExpression functions s operand
  | make keyword type arguments closing =>
    exact doubles_both (s.doubles_resolveType type) (doubles_bindExpressions functions s arguments)
  | makeSized keyword type length closing =>
    exact doubles_both (s.doubles_resolveType type) (doubles_bindExpression functions s length)
  | makeArray keyword type elements closing =>
    exact doubles_both (s.doubles_resolveType type) (doubles_bindExpressions functions s elements)
  | makeStruct keyword type fields closing =>
    exact doubles_both (doubles_both (s.doubles_resolveType type)
      (doubles_bindExpressions functions s fields)) (s.doubles_checkFields ..)
  | main keyword inner =>
    cases inner with
    | call callee arguments closing =>
      exact doubles_both (doubles_bindExpressions functions s arguments)
        (s.program.doubles_useCallee ..)
    | assignment target value =>
      exact doubles_both (doubles_bindExpression functions s value)
        (s.program.doubles_useTarget target)
    | _ => exact doubles_bindExpression functions s.program _

theorem doubles_bindExpressions (functions : List TypeFunction) (s : Scope)
    (es : List Expression) : doubles (bindExpressions functions s es) = [] := by
  cases es with
  | nil => rfl
  | cons e others =>
    exact doubles_both (doubles_bindExpression functions s e)
      (doubles_bindExpressions functions s others)

end

end Scope

namespace Walk

/-! ### Walks that declare nothing -/

/-- Whether a walk has come to find no further name to be declared already, in the scope it was
in and without leaving a region. -/
structure Stays (w w' : Walk) : Prop where
  scope : w'.scope = w.scope
  closed : w'.closed = w.closed
  doubles : doubles w'.findings = doubles w.findings

theorem Stays.trans {w w' w'' : Walk} (h : w.Stays w') (h' : w'.Stays w'') : w.Stays w'' :=
  ⟨h'.scope.trans h.scope, h'.closed.trans h.closed, h'.doubles.trans h.doubles⟩

variable (w : Walk)

theorem stays_refl : w.Stays w :=
  ⟨rfl, rfl, rfl⟩

theorem stays_report {found : List Finding} (h : doubles found = []) :
    w.Stays (w.report found) := by
  refine ⟨rfl, rfl, ?_⟩
  change TodLang.doubles (w.findings ++ found) = _
  rw [doubles_append, h, List.append_nil]

theorem stays_countVariable : w.Stays w.countVariable :=
  ⟨rfl, rfl, rfl⟩

theorem stays_type (clause : TypeClause) : w.Stays (w.type clause).2 :=
  w.stays_report (w.scope.doubles_resolveType clause)

theorem stays_expression (e : Expression) : w.Stays (w.expression e) :=
  w.stays_report (Scope.doubles_bindExpression w.typeFunctions w.scope e)

theorem stays_optionalExpression (value : Option Expression) :
    w.Stays (w.optionalExpression value) := by
  cases value with
  | none => exact w.stays_refl
  | some e => exact w.stays_expression e

theorem stays_declaredType (d : VariableDeclaration) : w.Stays (w.declaredType d).2 := by
  unfold declaredType
  split
  · exact w.stays_type _
  · exact w.stays_refl
  · exact w.stays_refl

theorem stays_parameters (ps : List Parameter) : w.Stays (w.parameters ps).2 := by
  induction ps generalizing w with
  | nil => exact w.stays_refl
  | cons p others ih =>
    exact ((w.stays_type p.type).trans (stays_countVariable _)).trans (ih _)

theorem stays_signature (name : Ident) (ps : List Parameter) (returnType : Option TypeClause)
    (span : Span) : w.Stays (w.signature name ps returnType span).2 := by
  have hparameters := w.stays_parameters ps
  cases returnType with
  | none => exact hparameters
  | some clause => exact hparameters.trans (stays_type _ clause)

/-! ### Declarations one after another -/

/-- A symbol is declared behind others in the region it is in, and its name is found to be declared
already if it is one of theirs. -/
theorem declare_ofDeclared {w : Walk} {before : List Symbol}
    (h : w.scope.inner = .ofDeclared before) (s : Symbol) (span : Span) :
    (w.declare s span).scope.inner = .ofDeclared (before ++ [s]) ∧
      doubles (w.declare s span).findings =
        doubles w.findings ++ repeats Ident.name (before.map Symbol.name) [⟨s.name, span⟩] := by
  let n : Ident := ⟨s.name, span⟩
  by_cases hmem : n.name ∈ before.map Symbol.name
  · obtain ⟨hnone, hsame⟩ := Region.declare?_ofDeclared_of_mem hmem
    have hdeclare : w.scope.declare? s = none := by
      rw [Scope.declare?, h, hnone]
      rfl
    rw [repeats_singleton_of_mem (a := n) hmem, hsame, declare, hdeclare]
    exact ⟨h, doubles_append ..⟩
  · have hsome := Region.declare?_ofDeclared_of_not_mem hmem
    have hdeclare :
        w.scope.declare? s = some ⟨.ofDeclared (before ++ [s]), w.scope.outer⟩ := by
      rw [Scope.declare?, h, hsome]
      rfl
    rw [repeats_singleton_of_not_mem (a := n) hmem, declare, hdeclare]
    exact ⟨rfl, (List.append_nil _).symm⟩

end Walk

end TodLang
