import TodLang.Source.Span
import TodLang.Text.Qualified
/-!
Symbols: what the names of a program stand for. Every symbol has a fingerprint, a text made of its
kind, its name and the types that belong to it. A variable is told apart by its number.
-/

namespace TodLang

/-- The kinds of symbols. -/
inductive SymbolKind where
  | function
  | typeFunction
  | struct
  | type
  | package
  | globalVariable
  | localVariable
  | parameter
  deriving DecidableEq, Repr

namespace SymbolKind

/-- All kinds of symbols. -/
def all : List SymbolKind :=
  [.function, .typeFunction, .struct, .type, .package, .globalVariable, .localVariable, .parameter]

/-- The name of a kind in dumps. -/
def label : SymbolKind → String
  | function => "FunctionSymbol"
  | typeFunction => "TypeFunctionSymbol"
  | struct => "StructSymbol"
  | type => "TypeSymbol"
  | package => "PackageSymbol"
  | globalVariable => "GlobalVariableSymbol"
  | localVariable => "LocalVariableSymbol"
  | parameter => "ParameterSymbol"

end SymbolKind

/-- A type: a name, perhaps of a package, with the types that it is made from. -/
structure Ty where
  name : String
  arguments : List Ty
  /-- Whether its values are objects and not plain values. -/
  isObject : Bool
  isUserDefined : Bool
  package : Option String
  /-- The structure that declares the type, if one does. -/
  structName : Option String
  deriving Repr, BEq, Inhabited

namespace Ty

/-- The names of the types that every program has. -/
def builtinNames : List String :=
  ["void", "bool", "byte", "int", "long", "float", "string", "any", "array", "pointer"]

/-- A type that every program has. -/
def builtin (name : String) : Ty :=
  { name
    arguments := []
    isObject := ["string", "array", "any"].contains name
    isUserDefined := false
    package := none
    structName := none }

def void : Ty := builtin "void"

/-- The type of a value of which nothing is known. -/
def any : Ty := builtin "any"

mutual

/-- The fingerprint of a type. Every type that it is made from ends with a semicolon. -/
def fingerprint (t : Ty) : String :=
  match t with
  | ⟨name, arguments, isObject, _, package, _⟩ =>
    (if isObject then "TO_" else "T_") ++ qualified package name ++ "_[" ++
      fingerprints arguments ++ "]"

def fingerprints : List Ty → String
  | [] => ""
  | t :: others => t.fingerprint ++ ";" ++ fingerprints others

end

mutual

/-- A type as it is written. -/
def text (t : Ty) : String :=
  match t with
  | ⟨name, [], _, _, package, _⟩ => qualified package name
  | ⟨name, first :: others, _, _, package, _⟩ =>
    qualified package name ++ "[" ++ first.text ++ textTail others ++ "]"

/-- Further types in brackets, each after a comma. -/
def textTail : List Ty → String
  | [] => ""
  | t :: others => ", " ++ t.text ++ textTail others

end

end Ty

/-- A variable of any kind, or a field of a structure. -/
structure Variable where
  name : String
  readOnly : Bool
  type : Ty
  /-- No two variables have the same number. -/
  id : Nat
  declaration : Option Span
  deriving Repr, BEq, Inhabited

/-- A function. -/
structure FunctionSymbol where
  name : String
  parameters : List Variable
  returnType : Ty
  declaration : Option Span := none
  /-- Whether every program has it. -/
  isBuiltin : Bool := false
  /-- Whether it is defined elsewhere. -/
  isExternal : Bool := false
  /-- Whether other sources see it. -/
  isPublic : Bool := false
  deriving Repr, BEq, Inhabited

namespace FunctionSymbol

/-- The function as one that every program has. Such a function is public. -/
def asBuiltin (f : FunctionSymbol) : FunctionSymbol :=
  { f with isBuiltin := true, isPublic := true }

/-- The function as one that is defined elsewhere. Such a function is public. -/
def asExternal (f : FunctionSymbol) : FunctionSymbol :=
  { f with isExternal := true, isPublic := true }

def fingerprint (f : FunctionSymbol) : String :=
  "F_" ++ f.name ++ "_" ++ String.join (f.parameters.map (·.type.fingerprint)) ++ "->" ++
    f.returnType.fingerprint

end FunctionSymbol

/-- A function of a type, called on a value of it. -/
structure TypeFunction where
  name : String
  parameters : List Variable
  returnType : Ty
  /-- The type that has the function. -/
  origin : Ty
  deriving Repr, BEq, Inhabited

namespace TypeFunction

def fingerprint (f : TypeFunction) : String :=
  "TF_" ++ f.origin.fingerprint ++ "_" ++ f.name ++ "_" ++
    String.join (f.parameters.map fun p => "[" ++ p.type.fingerprint ++ "]") ++ "->" ++
    f.returnType.fingerprint

end TypeFunction

/-- A structure. -/
structure StructSymbol where
  name : String
  fields : List Variable
  declaration : Option Span
  deriving Repr, BEq, Inhabited

namespace StructSymbol

/-- The type that a structure declares. -/
def type (s : StructSymbol) : Ty :=
  { name := s.name
    arguments := []
    isObject := false
    isUserDefined := true
    package := none
    structName := some s.name }

def field? (s : StructSymbol) (name : String) : Option Variable :=
  s.fields.find? (·.name == name)

def fingerprint (s : StructSymbol) : String :=
  "S_" ++ s.name ++ "_"

end StructSymbol

/-- A package. It is resolved once the module that implements it is known. -/
structure PackageSymbol where
  name : String
  functions : List FunctionSymbol := []
  /-- The path of the module, if it is known. -/
  module : Option String := none
  declaration : Option Span := none
  deriving Repr, BEq, Inhabited

namespace PackageSymbol

def isResolved (p : PackageSymbol) : Bool :=
  p.module.isSome

def function? (p : PackageSymbol) (name : String) : Option FunctionSymbol :=
  p.functions.find? (·.name == name)

def fingerprint (p : PackageSymbol) : String :=
  "P_" ++ p.name ++ "_"

end PackageSymbol

/-- What a name stands for. -/
inductive Symbol where
  | function (symbol : FunctionSymbol)
  | struct (symbol : StructSymbol)
  | type (symbol : Ty)
  | package (symbol : PackageSymbol)
  | globalVariable (symbol : Variable)
  | localVariable (symbol : Variable)
  | parameter (symbol : Variable)
  deriving Repr, BEq, Inhabited

namespace Symbol

def kind : Symbol → SymbolKind
  | function _ => .function
  | struct _ => .struct
  | type _ => .type
  | package _ => .package
  | globalVariable _ => .globalVariable
  | localVariable _ => .localVariable
  | parameter _ => .parameter

def name : Symbol → String
  | function f => f.name
  | struct s => s.name
  | type t => t.name
  | package p => p.name
  | globalVariable v | localVariable v | parameter v => v.name

def asVariable? : Symbol → Option Variable
  | globalVariable v | localVariable v | parameter v => some v
  | _ => none

def asFunction? : Symbol → Option FunctionSymbol
  | function f => some f
  | _ => none

def asStruct? : Symbol → Option StructSymbol
  | struct s => some s
  | _ => none

def asPackage? : Symbol → Option PackageSymbol
  | package p => some p
  | _ => none

/-- Where a symbol is declared, if a source declares it. -/
def declaration? : Symbol → Option Span
  | function f => f.declaration
  | struct s => s.declaration
  | type _ => none
  | package p => p.declaration
  | globalVariable v | localVariable v | parameter v => v.declaration

def fingerprint : Symbol → String
  | function f => f.fingerprint
  | struct s => s.fingerprint
  | type t => t.fingerprint
  | package p => p.fingerprint
  | globalVariable v => "GV_" ++ v.name ++ "_" ++ toString v.id
  | localVariable v => "LV_" ++ v.name ++ "_" ++ toString v.id
  | parameter v => "PR_" ++ v.name ++ "_" ++ toString v.id

/-- A symbol as messages name it. -/
def text (s : Symbol) : String :=
  s.kind.label ++ " [" ++ s.fingerprint ++ "]"

end Symbol

end TodLang
