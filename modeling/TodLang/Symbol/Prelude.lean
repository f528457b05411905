import TodLang.Symbol.Scope
/-!
What every program begins with: the built-in types, three functions, and the functions of arrays
and texts. Their parameters take numbers like all variables do.
-/

namespace TodLang

/-- A variable that no source declares, with its number. -/
def builtinParameter (id : Nat) (name type : String) : Variable :=
  { name, readOnly := false, type := .builtin type, id, declaration := none }

/-- The functions that can be called on values of built-in types. Their three parameters take the
numbers after a given one. -/
def typeFunctions (last : Nat) : List TypeFunction :=
  let array := Ty.builtin "array"
  let string := Ty.builtin "string"
  let int := Ty.builtin "int"
  [{ name := "push", parameters := [builtinParameter (last + 1) "value" "any"],
     returnType := .void, origin := array },
   { name := "pop", parameters := [], returnType := .any, origin := array },
   { name := "length", parameters := [], returnType := int, origin := array },
   { name := "length", parameters := [], returnType := int, origin := string },
   { name := "substring",
     parameters := [builtinParameter (last + 2) "start" "int",
       builtinParameter (last + 3) "end" "int"],
     returnType := string, origin := string }]

/-- How many numbers the functions of the built-in types take. -/
def typeFunctionIds : Nat := 3

/-- The functions that every program has. Their two parameters take the numbers after a given
one. -/
def preludeFunctions (last : Nat) : List FunctionSymbol :=
  [{ name := "print", parameters := [builtinParameter (last + 1) "text" "string"],
     returnType := .void },
   { name := "input", parameters := [], returnType := .builtin "string" },
   { name := "len", parameters := [builtinParameter (last + 2) "value" "any"],
     returnType := .builtin "int" }].map FunctionSymbol.asBuiltin

/-- How many numbers the functions that every program has take. -/
def preludeIds : Nat := 2

/-- The region around every program. -/
def prelude (last : Nat) : Region :=
  ⟨(Ty.builtinNames.map (Symbol.type ∘ Ty.builtin) ++
    (preludeFunctions last).map Symbol.function).foldr Region.insertSorted []⟩

/-- The function of a type that has a given name. Types are told apart by their names alone. -/
def findTypeFunction? (functions : List TypeFunction) (type : Ty) (name : String) :
    Option TypeFunction :=
  functions.find? fun f => f.origin.name == type.name && f.name == name

end TodLang
