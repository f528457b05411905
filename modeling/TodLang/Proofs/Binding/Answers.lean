import TodLang.Proofs.Binding.Agreement
/-!
What is recorded for the names in an expression. Each name and each callee is recorded once, with
the symbol that lexical scoping gives, in the order in which the uses are listed
(`Scope.Sees.expression`).
-/

namespace TodLang

namespace Finding

/-- The uses of names among what was found. -/
def recorded (findings : List Finding) : List Resolution :=
  findings.filterMap resolution?

@[simp] theorem recorded_nil : recorded [] = [] := rfl

@[simp] theorem recorded_append (front back : List Finding) :
    recorded (front ++ back) = recorded front ++ recorded back :=
  List.filterMap_append

@[simp] theorem recorded_resolved (name : Ident) (fingerprint : String) (others : List Finding) :
    recorded (resolved name fingerprint :: others) =
      ⟨name, some fingerprint⟩ :: recorded others := rfl

@[simp] theorem recorded_unresolved (name : Ident) (others : List Finding) :
    recorded (unresolved name :: others) = ⟨name, none⟩ :: recorded others := rfl

@[simp] theorem recorded_fault (f : SemanticFault) (span : Span) (others : List Finding) :
    recorded (fault f span :: others) = recorded others := rfl

end Finding

open Finding (recorded)

namespace Answers

variable {program root : Region}

theorem single {u : Use} {rs : List Resolution} (h : u.Answered program root rs) :
    Answers program root [u] rs := by
  have hcons : Answers program root [u] (rs ++ []) := .cons h .nil
  rwa [List.append_nil] at hcons

theorem append {uses others : List Use} {rs rest : List Resolution}
    (h : Answers program root uses rs) (hothers : Answers program root others rest) :
    Answers program root (uses ++ others) (rs ++ rest) := by
  induction h with
  | nil => exact hothers
  | cons hfirst _ ih =>
    rw [List.append_assoc]
    exact .cons hfirst ih

/-- What is found in one part after another answers the uses in the parts. -/
theorem both {uses others : List Use} {front back : List Finding}
    (h : Answers program root uses (recorded front))
    (hothers : Answers program root others (recorded back)) :
    Answers program root (uses ++ others) (recorded (front ++ back)) := by
  rw [Finding.recorded_append]
  exact h.append hothers

end Answers

namespace Scope

variable {program root : Region} {regions : List (List Declared)} {s : Scope}

theorem Sees.value (h : s.Sees program root regions) (name : Ident) :
    Use.Answered program root ⟨regions, .value name⟩ (recorded (s.useName name)) := by
  change _ = [_]
  rw [h.fingerprint]
  unfold useName
  cases s.lookup? name.name <;> rfl

theorem Sees.target (h : s.Sees program root regions) (target : Ident) :
    Use.Answered program root ⟨regions, .value target⟩ (recorded (s.useTarget target)) := by
  change _ = [_]
  rw [h.fingerprint]
  unfold useTarget
  cases s.lookup? target.name with
  | none => rfl
  | some symbol =>
    dsimp only
    split <;> rfl

@[simp] theorem recorded_checkCount (name : String) (expected found : Nat) (span : Span) :
    recorded (checkCount name expected found span) = [] := by
  unfold checkCount
  split <;> rfl

theorem Sees.callee (h : s.Sees program root regions) (callee : Ident) (count : Nat) :
    Use.Answered program root ⟨regions, .callee callee⟩
      (recorded (s.useCallee callee count)) := by
  change _ = [_]
  rw [h.callable?]
  unfold useCallee
  cases s.lookup? callee.name with
  | none => rfl
  | some symbol => cases symbol <;> simp [Meaning.callable?]

/-- Uses that are no values and no plain callees record a front part of their names. -/
theorem answered_other {names : List Ident} {findings : List Finding}
    (h : (recorded findings).map Resolution.name <+: names) :
    Use.Answered program root ⟨regions, .other names⟩ (recorded findings) := h

theorem useType_names (s : Scope) (clause : TypeClause) :
    (recorded (s.useType clause)).map Resolution.name <+: [clause.name] := by
  unfold useType resolveType
  cases s.lookupType clause <;> exact ⟨[], rfl⟩

theorem usePackageCall_names (s : Scope) (package callee : Ident) (count : Nat) :
    (recorded (s.usePackageCall package callee count)).map Resolution.name <+:
      [package, callee] := by
  unfold usePackageCall
  cases s.lookupPackage? package.name with
  | none => exact ⟨[callee], rfl⟩
  | some p =>
    dsimp only
    unfold usePackageFunction
    cases p.function? callee.name with
    | some f => simp
    | none =>
      dsimp only
      split <;> exact ⟨[], rfl⟩

theorem useTypeCall_names (functions : List TypeFunction) (s : Scope) (receiver callee : Ident)
    (count : Nat) :
    (recorded (useTypeCall functions s receiver callee count)).map Resolution.name <+:
      [receiver, callee] := by
  unfold useTypeCall
  cases s.lookup? receiver.name with
  | none => exact ⟨[callee], rfl⟩
  | some symbol =>
    dsimp only
    cases receiverType? symbol with
    | none => exact ⟨[], rfl⟩
    | some type =>
      dsimp only
      unfold useTypeFunction
      cases findTypeFunction? functions type callee.name with
      | some f => simp
      | none =>
        dsimp only
        split <;> exact ⟨[], rfl⟩

theorem useField_names (s : Scope) (object field : Ident) :
    (recorded (s.useField object field)).map Resolution.name <+: [object, field] := by
  unfold useField
  cases s.lookup? object.name with
  | none => exact ⟨[field], rfl⟩
  | some symbol =>
    dsimp only
    cases (symbol.asVariable?.map Variable.type).bind s.structOf? with
    | none => exact ⟨[field], rfl⟩
    | some owner =>
      dsimp only
      unfold useStructField
      split <;> exact ⟨[], rfl⟩

@[simp] theorem recorded_checkFields (s : Scope) (clause : TypeClause) (count : Nat)
    (span : Span) : recorded (s.checkFields clause count span) = [] := by
  unfold checkFields
  cases s.structOf? (s.resolveType clause).1 with
  | none => rfl
  | some target =>
    dsimp only
    split
    · rfl
    · exact recorded_checkCount ..

/-- A written type records its own name. -/
theorem answers_type (s : Scope) (clause : TypeClause) :
    Answers program root [⟨regions, .other [clause.name]⟩] (recorded (s.useType clause)) :=
  .single (answered_other (useType_names s clause))

mutual

/-- What is recorded in an expression answers its uses of names. -/
theorem Sees.expression {regions : List (List Declared)} {s : Scope}
    (functions : List TypeFunction) (h : s.Sees program root regions) (e : Expression) :
    Answers program root (e.uses regions) (recorded (bindExpression functions s e)) := by
  cases e with
  | literal token => exact .nil
  | this keyword => exact .nil
  | parenthesized opening inner closing => exact h.expression functions inner
  | name n => exact .single (h.value n)
  | assignment target value =>
    have hvalue := h.expression functions value
    exact hvalue.both (.single (h.target target))
  | call callee arguments closing =>
    have harguments := h.expressions functions arguments
    exact harguments.both (.single (h.callee callee arguments.length))
  | cast type arguments closing =>
    have harguments := h.expressions functions arguments
    exact harguments.both (answers_type s type)
  | packageCall package callee arguments closing =>
    have harguments := h.expressions functions arguments
    exact harguments.both (.single (answered_other (usePackageCall_names s package callee _)))
  | typeCall receiver callee arguments closing =>
    have harguments := h.expressions functions arguments
    exact harguments.both
      (.single (answered_other (useTypeCall_names functions s receiver callee _)))
  | unary operator operand => exact h.expression functions operand
  | binary left operator right =>
    have hleft := h.expression functions left
    have hright := h.expression functions right
    exact hleft.both hright
  | edit target operator value =>
    have hvalue := h.expression functions value
    exact hvalue.both (.single (h.target target))
  | step target operator => exact .single (h.target target)
  | fieldAccess object field => exact .single (answered_other (useField_names s object field))
  | fieldAssignment object field value =>
    have hvalue := h.expression functions value
    exact hvalue.both (.single (answered_other (useField_names s object field)))
  | arrayAccess array index closing =>
    have harray := h.expression functions array
    have hindex := h.expression functions index
    exact harray.both hindex
  | arrayAssignment array index value =>
    have harray := h.expression functions array
    have hindex := h.expression functions index
    have hvalue := h.expression functions value
    exact (harray.both hindex).both hvalue
  | reference ampersand n => exact .single (h.value n)
  | dereference star operand => exact h.expression functions operand
  | make keyword type arguments closing =>
    have harguments := h.expressions functions arguments
    exact (answers_type s type).both harguments
  | makeSized keyword type length closing =>
    have hlength := h.expression functions length
    exact (answers_type s type).both hlength
  | makeArray keyword type elements closing =>
    have helements := h.expressions functions elements
    exact (answers_type s type).both helements
  | makeStruct keyword type fields closing =>
    have hfields := h.expressions functions fields
    simp only [bindExpression, Finding.recorded_append, recorded_checkFields, List.append_nil]
    exact (answers_type s type).append hfields
  | main keyword inner =>
    -- Arguments and values see the body, the name in front of them does not.
    have hprogram := h.toProgram
    cases inner with
    | call callee arguments closing =>
      have harguments := h.expressions functions arguments
      exact harguments.both (.single (hprogram.callee callee arguments.length))
    | assignment target value =>
      have hvalue := h.expression functions value
      exact hvalue.both (.single (hprogram.target target))
    | _ => exact hprogram.expression functions _

theorem Sees.expressions {regions : List (List Declared)} {s : Scope}
    (functions : List TypeFunction) (h : s.Sees program root regions) (es : List Expression) :
    Answers program root (Expression.usesAll regions es)
      (recorded (bindExpressions functions s es)) := by
  cases es with
  | nil => exact .nil
  | cons e others =>
    have hfirst := h.expression functions e
    have hothers := h.expressions functions others
    exact hfirst.both hothers

end

end Scope

end TodLang
