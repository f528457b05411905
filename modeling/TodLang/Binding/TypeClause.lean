import TodLang.Symbol.Scope
import TodLang.Binding.Finding
/-!
The types that written types stand for. A written type has a meaning if every name in it does; the
first one that has none, from left to right and inside out, is the fault.
-/

namespace TodLang

namespace Scope

/-- The type that a name stands for, with the types that it is made from. A name of a package
stands for an object of which no more is known. -/
def namedType (s : Scope) (package : Option Ident) (name : Ident) (arguments : List Ty) :
    Except SemanticError Ty :=
  match package with
  | some package =>
    match s.lookupPackage? package.name with
    | some p =>
      .ok { name := name.name
            arguments
            isObject := true
            isUserDefined := true
            package := some p.name
            structName := none }
    | none => .error ⟨.undefinedPackage package.name, package.span⟩
  | none =>
    match s.lookup? name.name with
    | some (.type type) => .ok { type with arguments }
    | some (.struct struct) => .ok { struct.type with arguments }
    | _ => .error ⟨.undefinedType name.name, name.span⟩

mutual

/-- The type that a written type stands for, or its first fault. -/
def lookupType (s : Scope) (clause : TypeClause) : Except SemanticError Ty :=
  match clause with
  | ⟨package, name, arguments, _⟩ =>
    match lookupTypes s arguments with
    | .ok types => s.namedType package name types
    | .error e => .error e

/-- The types that written types stand for, or their first fault. -/
def lookupTypes (s : Scope) : List TypeClause → Except SemanticError (List Ty)
  | [] => .ok []
  | clause :: others =>
    match lookupType s clause with
    | .error e => .error e
    | .ok type =>
      match lookupTypes s others with
      | .ok types => .ok (type :: types)
      | .error e => .error e

end

/-- What stands in for a written type that has no meaning. -/
def unknownType (clause : TypeClause) : Ty :=
  { name := clause.name.name
    arguments := []
    isObject := false
    isUserDefined := true
    package := clause.package.map Ident.name
    structName := none }

/-- The type that a written type stands for, and what is found in it. Only the name of the whole
clause counts as used. -/
def resolveType (s : Scope) (clause : TypeClause) : Ty × List Finding :=
  match s.lookupType clause with
  | .ok type => (type, [.resolved clause.name type.fingerprint])
  | .error e => (unknownType clause, [.error e, .unresolved clause.name])

end Scope

end TodLang
