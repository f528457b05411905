import TodLang.Binding.TypeClause
import TodLang.Symbol.Prelude
/-!
The type of an expression as far as its form and the symbols in scope tell. The type is `any` where
they do not tell it.
-/

namespace TodLang

/-- The type of a literal. -/
def literalType (token : Token) : Ty :=
  match token.kind with
  | .integer => .builtin "int"
  | .decimal => .builtin "float"
  | .text => .builtin "string"
  | .keyword .trueWord | .keyword .falseWord => .builtin "bool"
  | _ => .any

/-- Whether a sign compares its operands. -/
def Sign.isComparison : Sign → Bool
  | eq | notEq | lt | gt | leq | geq => true
  | _ => false

namespace Ty

/-- The type of what an array holds or a pointer points to. -/
def element (t : Ty) : Ty :=
  t.arguments.head?.getD .any

end Ty

namespace Scope

/-- The type of the variable that a name stands for. -/
def variableType (s : Scope) (name : Ident) : Ty :=
  ((s.lookupVariable? name.name).map Variable.type).getD .any

/-- The type of what a written type makes. -/
def clauseType (s : Scope) (clause : TypeClause) : Ty :=
  (s.lookupType clause).toOption.getD .any

/-- The type of what a call gives back. -/
def callType (s : Scope) (callee : Ident) : Ty :=
  match s.lookup? callee.name with
  | some (.function f) => f.returnType
  | some (.type type) => type
  | _ => .any

/-- The type of what a call of a package's function gives back. -/
def packageCallType (s : Scope) (package callee : Ident) : Ty :=
  (((s.lookupPackage? package.name).bind (·.function? callee.name)).map
    FunctionSymbol.returnType).getD .any

/-- The type of a field of the structure that a name stands for. -/
def fieldType (s : Scope) (object field : Ident) : Ty :=
  (((s.structOf? (s.variableType object)).bind (·.field? field.name)).map Variable.type).getD .any

/-- The type of an expression. -/
def inferType (functions : List TypeFunction) (s : Scope) : Expression → Ty
  | .literal token => literalType token
  | .parenthesized _ inner _ => inferType functions s inner
  | .name name => s.variableType name
  | .assignment _ value => inferType functions s value
  | .call callee _ _ => s.callType callee
  | .cast type _ _ => s.clauseType type
  | .packageCall package callee _ _ => s.packageCallType package callee
  | .typeCall receiver callee _ _ =>
    ((findTypeFunction? functions (s.variableType receiver) callee.name).map
      TypeFunction.returnType).getD .any
  | .unary operator operand =>
    if operator.sign = .bang then .builtin "bool" else inferType functions s operand
  | .binary left operator _ =>
    if operator.sign.isComparison then .builtin "bool" else inferType functions s left
  | .edit target _ _ => s.variableType target
  | .step target _ => s.variableType target
  | .fieldAccess object field => s.fieldType object field
  | .fieldAssignment .. => .any
  | .arrayAccess array _ _ => (inferType functions s array).element
  | .arrayAssignment .. => .any
  | .reference _ name => { Ty.builtin "pointer" with arguments := [s.variableType name] }
  | .dereference _ operand => (inferType functions s operand).element
  | .make _ type _ _ => s.clauseType type
  | .makeSized _ type _ _ => s.clauseType type
  | .makeArray _ type _ _ => s.clauseType type
  | .makeStruct _ type _ _ => s.clauseType type
  | .this _ => .any
  | .main _ (.assignment _ value) => inferType functions s value
  | .main _ inner => inferType functions s.program inner

end Scope

end TodLang
