import TodLang.Tree.Basic
import TodLang.Symbol.Basic
/-!
What binding a program finds: for every name that is used, the symbol that it stands for or that
there is none, and the faults of the program. Faults never stop the binding.
-/

namespace TodLang

/-- A fault in the meaning of a program. -/
inductive SemanticFault where
  | alreadyDeclared (name : String)
  | undefinedName (name : String)
  | undefinedFunction (name : String)
  | undefinedType (name : String)
  | undefinedPackage (name : String)
  | notCallable (name : String)
  | argumentCount (name : String) (expected found : Nat)
  | readOnlyAssignment (name : String)
  | undefinedField (owner name : String)
  deriving DecidableEq, Repr

namespace SemanticFault

def message : SemanticFault → String
  | alreadyDeclared name => "'" ++ name ++ "' is already declared in this scope"
  | undefinedName name => "undefined name '" ++ name ++ "'"
  | undefinedFunction name => "undefined function '" ++ name ++ "'"
  | undefinedType name => "undefined type '" ++ name ++ "'"
  | undefinedPackage name => "undefined package '" ++ name ++ "'"
  | notCallable name => "'" ++ name ++ "' is not a function"
  | argumentCount name expected found =>
    "'" ++ name ++ "' takes " ++ toString expected ++ " argument(s) but " ++ toString found ++
      " were given"
  | readOnlyAssignment name => "cannot assign to read-only variable '" ++ name ++ "'"
  | undefinedField owner name => "'" ++ owner ++ "' has no field '" ++ name ++ "'"

end SemanticFault

/-- A fault and where it is. -/
structure SemanticError where
  fault : SemanticFault
  span : Span
  deriving DecidableEq, Repr

namespace SemanticError

def message (e : SemanticError) : String :=
  e.fault.message

end SemanticError

/-- A use of a name and the fingerprint of what it stands for, if it stands for anything. -/
structure Resolution where
  name : Ident
  fingerprint : Option String
  deriving DecidableEq, Repr

/-- One thing that binding finds. -/
inductive Finding where
  | use (resolution : Resolution)
  | error (error : SemanticError)
  deriving DecidableEq, Repr

namespace Finding

/-- A name that stands for something. -/
def resolved (name : Ident) (fingerprint : String) : Finding :=
  .use ⟨name, some fingerprint⟩

/-- A name that stands for nothing that is known. -/
def unresolved (name : Ident) : Finding :=
  .use ⟨name, none⟩

/-- A fault at a place. -/
def fault (fault : SemanticFault) (span : Span) : Finding :=
  .error ⟨fault, span⟩

def resolution? : Finding → Option Resolution
  | use resolution => some resolution
  | error _ => none

def error? : Finding → Option SemanticError
  | use _ => none
  | error e => some e

end Finding

end TodLang
