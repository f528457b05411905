import TodLang.Proofs.Symbol.Mapping
import TodLang.Tree.Relocation
import TodLang.Binding.Reference
/-!
Symbols that are declared at other places. Binding an expression takes notice of names and not of
places: in a scope whose symbols are relocated, a relocated expression has the same type, and the
same is found in it at the places where the expression has gone (`Scope.bindExpression_relocate`).
-/

namespace TodLang

/-! ### Symbols -/

section

variable (g : Relocation)

def Variable.relocate (v : Variable) : Variable :=
  { v with declaration := v.declaration.map g.span }

def FunctionSymbol.relocate (f : FunctionSymbol) : FunctionSymbol :=
  { f with parameters := f.parameters.map (Variable.relocate g),
           declaration := f.declaration.map g.span }

def StructSymbol.relocate (s : StructSymbol) : StructSymbol :=
  { s with fields := s.fields.map (Variable.relocate g),
           declaration := s.declaration.map g.span }

def PackageSymbol.relocate (p : PackageSymbol) : PackageSymbol :=
  { p with functions := p.functions.map (FunctionSymbol.relocate g),
           declaration := p.declaration.map g.span }

/-- A symbol with its declarations where a relocation puts them. -/
def Symbol.relocate : Symbol → Symbol
  | .function f => .function (f.relocate g)
  | .struct s => .struct (s.relocate g)
  | .type t => .type t
  | .package p => .package (p.relocate g)
  | .globalVariable v => .globalVariable (v.relocate g)
  | .localVariable v => .localVariable (v.relocate g)
  | .parameter v => .parameter (v.relocate g)

def Scope.relocate (s : Scope) : Scope :=
  s.map (Symbol.relocate g)

def SemanticError.relocate (e : SemanticError) : SemanticError :=
  { e with span := g.span e.span }

def Resolution.relocate (r : Resolution) : Resolution :=
  { r with name := r.name.relocate g }

/-- What is found where a relocation puts it. -/
def Finding.relocate : Finding → Finding
  | .use r => .use (r.relocate g)
  | .error e => .error (e.relocate g)

@[simp] theorem Variable.relocate_type (v : Variable) : (v.relocate g).type = v.type := rfl

@[simp] theorem Symbol.relocate_name (s : Symbol) : (s.relocate g).name = s.name := by
  cases s <;> rfl

@[simp] theorem Symbol.asVariable?_relocate (s : Symbol) :
    (s.relocate g).asVariable? = s.asVariable?.map (Variable.relocate g) := by
  cases s <;> rfl

@[simp] theorem Symbol.asFunction?_relocate (s : Symbol) :
    (s.relocate g).asFunction? = s.asFunction?.map (FunctionSymbol.relocate g) := by
  cases s <;> rfl

@[simp] theorem Symbol.asPackage?_relocate (s : Symbol) :
    (s.relocate g).asPackage? = s.asPackage?.map (PackageSymbol.relocate g) := by
  cases s <;> rfl

@[simp] theorem Symbol.asStruct?_relocate (s : Symbol) :
    (s.relocate g).asStruct? = s.asStruct?.map (StructSymbol.relocate g) := by
  cases s <;> rfl

@[simp] theorem Symbol.declaration?_relocate (s : Symbol) :
    (s.relocate g).declaration? = s.declaration?.map g.span := by
  cases s <;> rfl

@[simp] theorem FunctionSymbol.relocate_parameters_length (f : FunctionSymbol) :
    (f.relocate g).parameters.length = f.parameters.length :=
  List.length_map _

@[simp] theorem FunctionSymbol.fingerprint_relocate (f : FunctionSymbol) :
    (f.relocate g).fingerprint = f.fingerprint := by
  simp [fingerprint, relocate, Function.comp_def]

/-- A fingerprint names no place. -/
@[simp] theorem Symbol.fingerprint_relocate (s : Symbol) :
    (s.relocate g).fingerprint = s.fingerprint := by
  cases s with
  | function f => exact f.fingerprint_relocate g
  | _ => rfl

@[simp] theorem StructSymbol.field?_relocate (s : StructSymbol) (name : String) :
    (s.relocate g).field? name = (s.field? name).map (Variable.relocate g) := by
  rw [field?, relocate, List.find?_map]
  rfl

@[simp] theorem PackageSymbol.function?_relocate (p : PackageSymbol) (name : String) :
    (p.relocate g).function? name = (p.function? name).map (FunctionSymbol.relocate g) := by
  rw [function?, relocate, List.find?_map]
  rfl

@[simp] theorem Finding.relocate_fault (f : SemanticFault) (span : Span) :
    (fault f span).relocate g = fault f (g.span span) := rfl

@[simp] theorem Finding.relocate_unresolved (name : Ident) :
    (unresolved name).relocate g = unresolved (name.relocate g) := rfl

@[simp] theorem Finding.relocate_resolved (name : Ident) (fingerprint : String) :
    (resolved name fingerprint).relocate g = resolved (name.relocate g) fingerprint := rfl

end

namespace Scope

section

variable (g : Relocation)

/-! ### Looking up -/

@[simp] theorem lookup?_relocate (s : Scope) (name : String) :
    (s.relocate g).lookup? name = (s.lookup? name).map (Symbol.relocate g) :=
  lookup?_map (Symbol.relocate_name g) s name

theorem program_relocate (s : Scope) : (s.relocate g).program = s.program.relocate g :=
  s.program_map

@[simp] theorem lookupVariable?_relocate (s : Scope) (name : String) :
    (s.relocate g).lookupVariable? name =
      (s.lookupVariable? name).map (Variable.relocate g) := by
  rw [lookupVariable?, lookupVariable?, lookup?_relocate]
  cases s.lookup? name <;> simp

@[simp] theorem lookupPackage?_relocate (s : Scope) (name : String) :
    (s.relocate g).lookupPackage? name =
      (s.lookupPackage? name).map (PackageSymbol.relocate g) := by
  rw [lookupPackage?, lookupPackage?, lookup?_relocate]
  cases s.lookup? name <;> simp

@[simp] theorem lookupStruct?_relocate (s : Scope) (name : String) :
    (s.relocate g).lookupStruct? name = (s.lookupStruct? name).map (StructSymbol.relocate g) := by
  rw [lookupStruct?, lookupStruct?, lookup?_relocate]
  cases s.lookup? name <;> simp

@[simp] theorem structOf?_relocate (s : Scope) (type : Ty) :
    (s.relocate g).structOf? type = (s.structOf? type).map (StructSymbol.relocate g) := by
  rw [structOf?, structOf?]
  cases type.structName with
  | none => rfl
  | some name => exact s.lookupStruct?_relocate g name

/-! ### Types -/

theorem namedType_relocate (s : Scope) (package : Option Ident) (name : Ident)
    (arguments : List Ty) :
    (s.relocate g).namedType (package.map (Ident.relocate g)) (name.relocate g) arguments =
      (s.namedType package name arguments).mapError (SemanticError.relocate g) := by
  cases package with
  | some package =>
    simp only [namedType, Option.map_some, Ident.relocate_name, lookupPackage?_relocate]
    cases s.lookupPackage? package.name <;> rfl
  | none =>
    simp only [namedType, Option.map_none, Ident.relocate_name, lookup?_relocate]
    cases s.lookup? name.name with
    | none => rfl
    | some symbol => cases symbol <;> rfl

mutual

/-- A relocated type stands for the same, or has the same first fault. -/
theorem lookupType_relocate (s : Scope) (clause : TypeClause) :
    (s.relocate g).lookupType (clause.relocate g) =
      (s.lookupType clause).mapError (SemanticError.relocate g) := by
  cases clause with
  | mk package name arguments closing =>
    simp only [TypeClause.relocate, lookupType, lookupTypes_relocate s arguments]
    cases lookupTypes s arguments with
    | ok types => exact namedType_relocate g s package name types
    | error e => rfl

theorem lookupTypes_relocate (s : Scope) (clauses : List TypeClause) :
    lookupTypes (s.relocate g) (TypeClause.relocateAll g clauses) =
      (lookupTypes s clauses).mapError (SemanticError.relocate g) := by
  cases clauses with
  | nil => rfl
  | cons clause others =>
    simp only [TypeClause.relocateAll, lookupTypes, lookupType_relocate s clause,
      lookupTypes_relocate s others]
    cases s.lookupType clause with
    | error e => rfl
    | ok type => cases lookupTypes s others <;> rfl

end

theorem unknownType_relocate (clause : TypeClause) :
    unknownType (clause.relocate g) = unknownType clause := by
  obtain ⟨package, name, arguments, closing⟩ := clause
  cases package <;> rfl

theorem resolveType_relocate (s : Scope) (clause : TypeClause) :
    (s.relocate g).resolveType (clause.relocate g) =
      ((s.resolveType clause).1, (s.resolveType clause).2.map (Finding.relocate g)) := by
  have hname : (clause.relocate g).name = clause.name.relocate g := by
    cases clause
    rfl
  rw [resolveType, resolveType, lookupType_relocate, hname]
  cases s.lookupType clause with
  | ok type => rfl
  | error e =>
    show (unknownType (clause.relocate g), _) = _
    rw [unknownType_relocate]
    rfl

theorem variableType_relocate (s : Scope) (name : Ident) :
    (s.relocate g).variableType (name.relocate g) = s.variableType name := by
  rw [variableType, variableType, Ident.relocate_name, lookupVariable?_relocate]
  cases s.lookupVariable? name.name <;> rfl

theorem clauseType_relocate (s : Scope) (clause : TypeClause) :
    (s.relocate g).clauseType (clause.relocate g) = s.clauseType clause := by
  rw [clauseType, clauseType, lookupType_relocate]
  cases s.lookupType clause <;> rfl

theorem callType_relocate (s : Scope) (callee : Ident) :
    (s.relocate g).callType (callee.relocate g) = s.callType callee := by
  rw [callType, callType, Ident.relocate_name, lookup?_relocate]
  cases s.lookup? callee.name with
  | none => rfl
  | some symbol => cases symbol <;> rfl

theorem packageCallType_relocate (s : Scope) (package callee : Ident) :
    (s.relocate g).packageCallType (package.relocate g) (callee.relocate g) =
      s.packageCallType package callee := by
  rw [packageCallType, packageCallType, Ident.relocate_name, Ident.relocate_name,
    lookupPackage?_relocate]
  cases s.lookupPackage? package.name with
  | none => rfl
  | some p =>
    simp only [Option.map_some, Option.bind_some, PackageSymbol.function?_relocate]
    cases p.function? callee.name <;> rfl

theorem fieldType_relocate (s : Scope) (object field : Ident) :
    (s.relocate g).fieldType (object.relocate g) (field.relocate g) =
      s.fieldType object field := by
  rw [fieldType, fieldType, variableType_relocate, structOf?_relocate]
  cases s.structOf? (s.variableType object) with
  | none => rfl
  | some owner =>
    simp only [Option.map_some, Option.bind_some, Ident.relocate_name,
      StructSymbol.field?_relocate]
    cases owner.field? field.name <;> rfl

/-- What type an expression has does not depend on places. -/
theorem inferType_relocate (functions : List TypeFunction) (s : Scope) (e : Expression) :
    (s.relocate g).inferType functions (e.relocate g) = s.inferType functions e := by
  cases e with
  | literal token => rfl
  | this keyword => rfl
  | fieldAssignment object field value => rfl
  | arrayAssignment array index value => rfl
  | parenthesized opening inner closing => exact inferType_relocate functions s inner
  | name n => exact s.variableType_relocate g n
  | assignment target value => exact inferType_relocate functions s value
  | call callee arguments closing => exact s.callType_relocate g callee
  | cast type arguments closing => exact s.clauseType_relocate g type
  | packageCall package callee arguments closing =>
    exact s.packageCallType_relocate g package callee
  | typeCall receiver callee arguments closing =>
    simp only [Expression.relocate, inferType, variableType_relocate, Ident.relocate_name]
  | unary operator operand =>
    simp only [Expression.relocate, inferType, inferType_relocate functions s operand]
    rfl
  | binary left operator right =>
    simp only [Expression.relocate, inferType, inferType_relocate functions s left]
    rfl
  | edit target operator value => exact s.variableType_relocate g target
  | step target operator => exact s.variableType_relocate g target
  | fieldAccess object field => exact s.fieldType_relocate g object field
  | arrayAccess array index closing =>
    simp only [Expression.relocate, inferType, inferType_relocate functions s array]
  | reference ampersand n =>
    simp only [Expression.relocate, inferType, variableType_relocate]
  | dereference star operand =>
    simp only [Expression.relocate, inferType, inferType_relocate functions s operand]
  | make keyword type arguments closing => exact s.clauseType_relocate g type
  | makeSized keyword type length closing => exact s.clauseType_relocate g type
  | makeArray keyword type elements closing => exact s.clauseType_relocate g type
  | makeStruct keyword type fields closing => exact s.clauseType_relocate g type
  | main keyword inner =>
    have hprogram := inferType_relocate functions s.program inner
    rw [← program_relocate] at hprogram
    cases inner with
    | assignment target value => exact inferType_relocate functions s value
    | _ => exact hprogram

/-! ### What is found -/

theorem useName_relocate (s : Scope) (name : Ident) :
    (s.relocate g).useName (name.relocate g) = (s.useName name).map (Finding.relocate g) := by
  rw [useName, useName, Ident.relocate_name, lookup?_relocate]
  cases s.lookup? name.name <;> simp

theorem useTarget_relocate (s : Scope) (target : Ident) :
    (s.relocate g).useTarget (target.relocate g) =
      (s.useTarget target).map (Finding.relocate g) := by
  rw [useTarget, useTarget, Ident.relocate_name, lookup?_relocate]
  cases s.lookup? target.name with
  | none => rfl
  | some symbol =>
    have hreadOnly : ((symbol.relocate g).asVariable?.any Variable.readOnly) =
        symbol.asVariable?.any Variable.readOnly := by
      cases symbol <;> rfl
    simp only [Option.map_some, hreadOnly, Symbol.fingerprint_relocate, List.map_cons,
      Finding.relocate_resolved]
    split <;> rfl

theorem checkCount_relocate (name : String) (expected found : Nat) (span : Span) :
    checkCount name expected found (g.span span) =
      (checkCount name expected found span).map (Finding.relocate g) := by
  unfold checkCount
  split <;> rfl

theorem useCallee_relocate (s : Scope) (callee : Ident) (count : Nat) :
    (s.relocate g).useCallee (callee.relocate g) count =
      (s.useCallee callee count).map (Finding.relocate g) := by
  rw [useCallee, useCallee, Ident.relocate_name, lookup?_relocate]
  cases s.lookup? callee.name with
  | none => rfl
  | some symbol =>
    cases symbol with
    | function f => simp [Symbol.relocate, checkCount_relocate]
    | type t => simp [Symbol.relocate, checkCount_relocate]
    | _ => rfl

theorem usePackageFunction_relocate (p : PackageSymbol) (package callee : Ident) (count : Nat) :
    usePackageFunction (p.relocate g) (package.relocate g) (callee.relocate g) count =
      (usePackageFunction p package callee count).map (Finding.relocate g) := by
  simp only [usePackageFunction, Ident.relocate_name, PackageSymbol.function?_relocate]
  cases p.function? callee.name with
  | none =>
    change (if p.isResolved then _ else _) = _
    split <;> rfl
  | some f => simp [checkCount_relocate]

theorem usePackageCall_relocate (s : Scope) (package callee : Ident) (count : Nat) :
    (s.relocate g).usePackageCall (package.relocate g) (callee.relocate g) count =
      (s.usePackageCall package callee count).map (Finding.relocate g) := by
  rw [usePackageCall, usePackageCall, Ident.relocate_name, lookupPackage?_relocate]
  cases s.lookupPackage? package.name with
  | none => rfl
  | some p =>
    have hname : (p.relocate g).fingerprint = p.fingerprint := rfl
    simp [usePackageFunction_relocate, hname]

theorem useTypeFunction_relocate (functions : List TypeFunction) (type : Ty) (callee : Ident)
    (count : Nat) :
    useTypeFunction functions type (callee.relocate g) count =
      (useTypeFunction functions type callee count).map (Finding.relocate g) := by
  simp only [useTypeFunction, Ident.relocate_name]
  cases findTypeFunction? functions type callee.name with
  | some f => simp [checkCount_relocate]
  | none =>
    dsimp only
    split <;> rfl

theorem useTypeCall_relocate (functions : List TypeFunction) (s : Scope) (receiver callee : Ident)
    (count : Nat) :
    useTypeCall functions (s.relocate g) (receiver.relocate g) (callee.relocate g) count =
      (useTypeCall functions s receiver callee count).map (Finding.relocate g) := by
  rw [useTypeCall, useTypeCall, Ident.relocate_name, lookup?_relocate]
  cases s.lookup? receiver.name with
  | none => rfl
  | some symbol =>
    have htype : receiverType? (symbol.relocate g) = receiverType? symbol := by
      cases symbol <;> rfl
    simp only [Option.map_some, htype, List.map_cons, Finding.relocate_resolved,
      Symbol.fingerprint_relocate]
    cases receiverType? symbol with
    | none => rfl
    | some type => simp only [useTypeFunction_relocate]

theorem useStructField_relocate (owner : StructSymbol) (field : Ident) :
    useStructField (owner.relocate g) (field.relocate g) =
      (useStructField owner field).map (Finding.relocate g) := by
  simp only [useStructField, Ident.relocate_name, StructSymbol.field?_relocate,
    Option.isSome_map]
  split <;> rfl

theorem useField_relocate (s : Scope) (object field : Ident) :
    (s.relocate g).useField (object.relocate g) (field.relocate g) =
      (s.useField object field).map (Finding.relocate g) := by
  rw [useField, useField, Ident.relocate_name, lookup?_relocate]
  cases s.lookup? object.name with
  | none => rfl
  | some symbol =>
    have htype : ((symbol.relocate g).asVariable?.map Variable.type) =
        symbol.asVariable?.map Variable.type := by
      cases symbol <;> rfl
    simp only [Option.map_some, List.map_cons, Finding.relocate_resolved,
      Symbol.fingerprint_relocate, htype]
    cases symbol.asVariable?.map Variable.type with
    | none => rfl
    | some type =>
      simp only [Option.bind_some, structOf?_relocate]
      cases s.structOf? type with
      | none => rfl
      | some owner => simp only [Option.map_some, useStructField_relocate]

theorem useType_relocate (s : Scope) (clause : TypeClause) :
    (s.relocate g).useType (clause.relocate g) = (s.useType clause).map (Finding.relocate g) := by
  rw [useType, useType, resolveType_relocate]

theorem checkFields_relocate (s : Scope) (clause : TypeClause) (count : Nat) (span : Span) :
    (s.relocate g).checkFields (clause.relocate g) count (g.span span) =
      (s.checkFields clause count span).map (Finding.relocate g) := by
  rw [checkFields, checkFields, resolveType_relocate, structOf?_relocate]
  cases s.structOf? (s.resolveType clause).1 with
  | none => rfl
  | some target =>
    simp only [Option.map_some, StructSymbol.relocate, List.length_map, checkCount_relocate]
    split <;> rfl

theorem relocateAll_length (es : List Expression) :
    (Expression.relocateAll g es).length = es.length := by
  rw [Expression.relocateAll_eq_map, List.length_map]

mutual

/-- In a relocated expression the same is found, where the expression has gone. -/
theorem bindExpression_relocate (functions : List TypeFunction) (s : Scope) (e : Expression) :
    bindExpression functions (s.relocate g) (e.relocate g) =
      (bindExpression functions s e).map (Finding.relocate g) := by
  cases e with
  | literal token => rfl
  | this keyword => rfl
  | parenthesized opening inner closing => exact bindExpression_relocate functions s inner
  | name n => exact s.useName_relocate g n
  | assignment target value =>
    simp only [Expression.relocate, bindExpression, bindExpression_relocate functions s value,
      useTarget_relocate, List.map_append]
  | call callee arguments closing =>
    simp only [Expression.relocate, bindExpression, bindExpressions_relocate functions s arguments,
      relocateAll_length, useCallee_relocate, List.map_append]
  | cast type arguments closing =>
    simp only [Expression.relocate, bindExpression, bindExpressions_relocate functions s arguments,
      useType_relocate, List.map_append]
  | packageCall package callee arguments closing =>
    simp only [Expression.relocate, bindExpression, bindExpressions_relocate functions s arguments,
      relocateAll_length, usePackageCall_relocate, List.map_append]
  | typeCall receiver callee arguments closing =>
    simp only [Expression.relocate, bindExpression, bindExpressions_relocate functions s arguments,
      relocateAll_length, useTypeCall_relocate, List.map_append]
  | unary operator operand => exact bindExpression_relocate functions s operand
  | binary left operator right =>
    simp only [Expression.relocate, bindExpression, bindExpression_relocate functions s left,
      bindExpression_relocate functions s right, List.map_append]
  | edit target operator value =>
    simp only [Expression.relocate, bindExpression, bindExpression_relocate functions s value,
      useTarget_relocate, List.map_append]
  | step target operator => exact s.useTarget_relocate g target
  | fieldAccess object field => exact s.useField_relocate g object field
  | fieldAssignment object field value =>
    simp only [Expression.relocate, bindExpression, bindExpression_relocate functions s value,
      useField_relocate, List.map_append]
  | arrayAccess array index closing =>
    simp only [Expression.relocate, bindExpression, bindExpression_relocate functions s array,
      bindExpression_relocate functions s index, List.map_append]
  | arrayAssignment array index value =>
    simp only [Expression.relocate, bindExpression, bindExpression_relocate functions s array,
      bindExpression_relocate functions s index, bindExpression_relocate functions s value,
      List.map_append]
  | reference ampersand n => exact s.useName_relocate g n
  | dereference star operand => exact bindExpression_relocate functions s operand
  | make keyword type arguments closing =>
    simp only [Expression.relocate, bindExpression, bindExpressions_relocate functions s arguments,
      useType_relocate, List.map_append]
  | makeSized keyword type length closing =>
    simp only [Expression.relocate, bindExpression, bindExpression_relocate functions s length,
      useType_relocate, List.map_append]
  | makeArray keyword type elements closing =>
    simp only [Expression.relocate, bindExpression, bindExpressions_relocate functions s elements,
      useType_relocate, List.map_append]
  | makeStruct keyword type fields closing =>
    simp only [Expression.relocate, bindExpression, bindExpressions_relocate functions s fields,
      Expression.span, ← g.span_cover, relocateAll_length, useType_relocate,
      checkFields_relocate, List.map_append]
  | main keyword inner =>
    have hprogram := bindExpression_relocate functions s.program inner
    rw [← program_relocate] at hprogram
    cases inner with
    | call callee arguments closing =>
      simp only [Expression.relocate, bindExpression,
        bindExpressions_relocate functions s arguments, relocateAll_length, program_relocate,
        useCallee_relocate, List.map_append]
    | assignment target value =>
      simp only [Expression.relocate, bindExpression, bindExpression_relocate functions s value,
        program_relocate, useTarget_relocate, List.map_append]
    | _ => exact hprogram

theorem bindExpressions_relocate (functions : List TypeFunction) (s : Scope)
    (es : List Expression) :
    bindExpressions functions (s.relocate g) (Expression.relocateAll g es) =
      (bindExpressions functions s es).map (Finding.relocate g) := by
  cases es with
  | nil => rfl
  | cons e others =>
    simp only [Expression.relocateAll, bindExpressions, bindExpression_relocate functions s e,
      bindExpressions_relocate functions s others, List.map_append]

end

end

end Scope

end TodLang
