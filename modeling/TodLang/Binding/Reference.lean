import TodLang.Binding.Inference
/-!
What is found where names are used: in expressions. An expression is walked in the order in which
its parts are bound: the arguments of a call before the name that is called, an assigned value
before the name it is assigned to.
-/

namespace TodLang

namespace Scope

/-- A name that stands for a value, or for whatever it stands for. -/
def useName (s : Scope) (name : Ident) : List Finding :=
  match s.lookup? name.name with
  | some symbol => [.resolved name symbol.fingerprint]
  | none => [.fault (.undefinedName name.name) name.span, .unresolved name]

/-- A name that is assigned to. Only a variable can be read-only. -/
def useTarget (s : Scope) (target : Ident) : List Finding :=
  match s.lookup? target.name with
  | some symbol =>
    .resolved target symbol.fingerprint ::
      (if symbol.asVariable?.any Variable.readOnly then
        [.fault (.readOnlyAssignment target.name) target.span]
      else [])
  | none => [.fault (.undefinedName target.name) target.span, .unresolved target]

/-- A fault if a call does not have as many arguments as it should. -/
def checkCount (name : String) (expected found : Nat) (span : Span) : List Finding :=
  if expected = found then [] else [.fault (.argumentCount name expected found) span]

/-- A name that is called. A type that is called converts its one argument. -/
def useCallee (s : Scope) (callee : Ident) (count : Nat) : List Finding :=
  match s.lookup? callee.name with
  | some (.function f) =>
    checkCount callee.name f.parameters.length count callee.span ++
      [.resolved callee f.fingerprint]
  | some (.type type) =>
    checkCount callee.name 1 count callee.span ++ [.resolved callee type.fingerprint]
  | some _ => [.fault (.notCallable callee.name) callee.span, .unresolved callee]
  | none => [.fault (.undefinedFunction callee.name) callee.span, .unresolved callee]

/-- A function of a package that is called. What an unresolved package does not list may still be
in it. -/
def usePackageFunction (p : PackageSymbol) (package callee : Ident) (count : Nat) :
    List Finding :=
  match p.function? callee.name with
  | some f =>
    checkCount callee.name f.parameters.length count callee.span ++
      [.resolved callee f.fingerprint]
  | none =>
    if p.isResolved then
      [.fault (.undefinedFunction (package.name ++ "::" ++ callee.name)) callee.span,
        .unresolved callee]
    else [.unresolved callee]

/-- The package and the function of a call. -/
def usePackageCall (s : Scope) (package callee : Ident) (count : Nat) : List Finding :=
  match s.lookupPackage? package.name with
  | some p => .resolved package p.fingerprint :: usePackageFunction p package callee count
  | none => [.fault (.undefinedPackage package.name) package.span, .unresolved package]

/-- A function of a type that is called. A value of which nothing is known may have any
function. -/
def useTypeFunction (functions : List TypeFunction) (type : Ty) (callee : Ident) (count : Nat) :
    List Finding :=
  match findTypeFunction? functions type callee.name with
  | some f =>
    checkCount callee.name f.parameters.length count callee.span ++
      [.resolved callee f.fingerprint]
  | none =>
    if type.name = "any" then [.unresolved callee]
    else
      [.fault (.undefinedFunction (type.name ++ "." ++ callee.name)) callee.span,
        .unresolved callee]

/-- The type whose functions can be called on what a symbol stands for. -/
def receiverType? : Symbol → Option Ty
  | .type type => some type
  | other => other.asVariable?.map Variable.type

/-- The receiver and the function of a call. -/
def useTypeCall (functions : List TypeFunction) (s : Scope) (receiver callee : Ident)
    (count : Nat) : List Finding :=
  match s.lookup? receiver.name with
  | none => [.fault (.undefinedName receiver.name) receiver.span, .unresolved receiver]
  | some symbol =>
    .resolved receiver symbol.fingerprint ::
      match receiverType? symbol with
      | some type => useTypeFunction functions type callee count
      | none =>
        [.fault (.notCallable (receiver.name ++ "." ++ callee.name)) callee.span,
          .unresolved callee]

/-- A field of a structure. -/
def useStructField (owner : StructSymbol) (field : Ident) : List Finding :=
  if (owner.field? field.name).isSome then
    [.resolved field (owner.fingerprint ++ "." ++ field.name)]
  else [.fault (.undefinedField owner.name field.name) field.span, .unresolved field]

/-- An object and its field. The field of what is no structure is not looked at. -/
def useField (s : Scope) (object field : Ident) : List Finding :=
  match s.lookup? object.name with
  | none => [.fault (.undefinedName object.name) object.span, .unresolved object]
  | some symbol =>
    .resolved object symbol.fingerprint ::
      match (symbol.asVariable?.map Variable.type).bind s.structOf? with
      | some owner => useStructField owner field
      | none => []

/-- A written type in an expression. -/
def useType (s : Scope) (clause : TypeClause) : List Finding :=
  (s.resolveType clause).2

/-- The number of fields that are given to a new structure: none, or one for each. -/
def checkFields (s : Scope) (clause : TypeClause) (count : Nat) (span : Span) : List Finding :=
  match s.structOf? (s.resolveType clause).1 with
  | some target =>
    if count = 0 then [] else checkCount target.name target.fields.length count span
  | none => []

mutual

/-- What is found in an expression. Behind `main`, the name that it speaks of is looked up in the
program's scope, and arguments and values where they are written. -/
def bindExpression (functions : List TypeFunction) (s : Scope) (e : Expression) : List Finding :=
  match e with
  | .literal _ | .this _ => []
  | .parenthesized _ inner _ => bindExpression functions s inner
  | .name name => s.useName name
  | .assignment target value => bindExpression functions s value ++ s.useTarget target
  | .call callee arguments _ =>
    bindExpressions functions s arguments ++ s.useCallee callee arguments.length
  | .cast type arguments _ => bindExpressions functions s arguments ++ s.useType type
  | .packageCall package callee arguments _ =>
    bindExpressions functions s arguments ++ s.usePackageCall package callee arguments.length
  | .typeCall receiver callee arguments _ =>
    bindExpressions functions s arguments ++
      useTypeCall functions s receiver callee arguments.length
  | .unary _ operand => bindExpression functions s operand
  | .binary left _ right => bindExpression functions s left ++ bindExpression functions s right
  | .edit target _ value => bindExpression functions s value ++ s.useTarget target
  | .step target _ => s.useTarget target
  | .fieldAccess object field => s.useField object field
  | .fieldAssignment object field value =>
    bindExpression functions s value ++ s.useField object field
  | .arrayAccess array index _ =>
    bindExpression functions s array ++ bindExpression functions s index
  | .arrayAssignment array index value =>
    bindExpression functions s array ++ bindExpression functions s index ++
      bindExpression functions s value
  | .reference _ name => s.useName name
  | .dereference _ operand => bindExpression functions s operand
  | .make _ type arguments _ => s.useType type ++ bindExpressions functions s arguments
  | .makeSized _ type length _ => s.useType type ++ bindExpression functions s length
  | .makeArray _ type elements _ => s.useType type ++ bindExpressions functions s elements
  | .makeStruct _ type fields _ =>
    s.useType type ++ bindExpressions functions s fields ++
      s.checkFields type fields.length e.span
  | .main _ (.call callee arguments _) =>
    bindExpressions functions s arguments ++ s.program.useCallee callee arguments.length
  | .main _ (.assignment target value) =>
    bindExpression functions s value ++ s.program.useTarget target
  | .main _ inner => bindExpression functions s.program inner

/-- What is found in expressions one after another. -/
def bindExpressions (functions : List TypeFunction) (s : Scope) :
    List Expression → List Finding
  | [] => []
  | e :: others => bindExpression functions s e ++ bindExpressions functions s others

end

end Scope

end TodLang
