import TodLang.Symbol.Basic
/-!
Scopes. A region of a program holds one symbol for each name that is declared in it, and the first
declaration of a name is the one that counts. A scope is a region inside of others: a name stands
for what the nearest region that declares it says.
-/

namespace TodLang

/-- The symbols that are declared in one region, in the order of their names. -/
structure Region where
  symbols : List Symbol
  deriving Repr, BEq, Inhabited

namespace Region

/-- Every symbol stands behind those with a lesser name, and no two have the same. -/
def Valid (r : Region) : Prop :=
  r.symbols.Pairwise (·.name < ·.name)

def empty : Region := ⟨[]⟩

def lookup? (r : Region) (name : String) : Option Symbol :=
  r.symbols.find? (·.name == name)

def declares (r : Region) (name : String) : Bool :=
  (r.lookup? name).isSome

/-- Puts a symbol at the place of its name. -/
def insertSorted (s : Symbol) : List Symbol → List Symbol
  | [] => [s]
  | t :: others => if s.name < t.name then s :: t :: others else t :: insertSorted s others

/-- The region with one more symbol, unless it declares the name already. -/
def declare? (r : Region) (s : Symbol) : Option Region :=
  if r.declares s.name then none else some ⟨insertSorted s r.symbols⟩

/-- The region with other fields for the structure of a given name. -/
def setFields (r : Region) (name : String) (fields : List Variable) : Region :=
  ⟨r.symbols.map fun
    | .struct s => if s.name == name then .struct { s with fields } else .struct s
    | other => other⟩

def size (r : Region) : Nat :=
  r.symbols.length

theorem mem_insertSorted {s t : Symbol} {l : List Symbol} :
    t ∈ insertSorted s l ↔ t = s ∨ t ∈ l := by
  induction l with
  | nil => simp [insertSorted]
  | cons u others ih =>
    unfold insertSorted
    split
    · simp
    · simp only [List.mem_cons, ih]
      constructor
      · rintro (h | h | h) <;> simp [h]
      · rintro (h | h | h) <;> simp [h]

theorem length_insertSorted (s : Symbol) (l : List Symbol) :
    (insertSorted s l).length = l.length + 1 := by
  induction l with
  | nil => rfl
  | cons u others ih =>
    unfold insertSorted
    split <;> simp [ih]

theorem valid_empty : empty.Valid := List.Pairwise.nil

end Region

/-- A region and the regions around it, from the nearest one outwards. -/
structure Scope where
  inner : Region
  outer : List Region
  deriving Repr, BEq, Inhabited

namespace Scope

/-- A scope with nothing around it. -/
def root (region : Region) : Scope := ⟨region, []⟩

/-- A new region inside of a scope. -/
def enter (s : Scope) : Scope :=
  ⟨.empty, s.inner :: s.outer⟩

/-- How many regions there are around the innermost one. -/
def depth (s : Scope) : Nat :=
  s.outer.length

/-- The regions from the innermost one outwards. -/
def regions (s : Scope) : List Region :=
  s.inner :: s.outer

/-- What a name stands for. -/
def lookup? (s : Scope) (name : String) : Option Symbol :=
  s.regions.findSome? (·.lookup? name)

/-- The scope with one more symbol in its innermost region, unless that declares the name. -/
def declare? (s : Scope) (symbol : Symbol) : Option Scope :=
  (s.inner.declare? symbol).map fun inner => { s with inner }

/-- The scope of the program: the outermost region but one, or the scope itself if there is none
around it. -/
def programIn (inner : Region) : List Region → Scope
  | [] => ⟨inner, []⟩
  | [root] => ⟨inner, [root]⟩
  | next :: root :: others => programIn next (root :: others)

/-- The scope of the program that a scope is in. -/
def program (s : Scope) : Scope :=
  programIn s.inner s.outer

/-- The symbols that names stand for, in the order of the names. A symbol counts if no nearer
region declares its name. -/
def visibleIn : List Region → List Symbol
  | [] => []
  | nearest :: others =>
    nearest.symbols.foldr Region.insertSorted
      ((visibleIn others).filter fun symbol => !nearest.declares symbol.name)

/-- The symbols that are visible in a scope. -/
def visible (s : Scope) : List Symbol :=
  visibleIn s.regions

def visibleFunctions (s : Scope) : List FunctionSymbol :=
  s.visible.filterMap Symbol.asFunction?

def visibleVariables (s : Scope) : List Variable :=
  s.visible.filterMap Symbol.asVariable?

def visibleStructs (s : Scope) : List StructSymbol :=
  s.visible.filterMap Symbol.asStruct?

def visiblePackages (s : Scope) : List PackageSymbol :=
  s.visible.filterMap Symbol.asPackage?

/-- The variable that a name stands for. -/
def lookupVariable? (s : Scope) (name : String) : Option Variable :=
  (s.lookup? name).bind Symbol.asVariable?

/-- The package that a name stands for. -/
def lookupPackage? (s : Scope) (name : String) : Option PackageSymbol :=
  (s.lookup? name).bind Symbol.asPackage?

/-- The structure that a name stands for. -/
def lookupStruct? (s : Scope) (name : String) : Option StructSymbol :=
  (s.lookup? name).bind Symbol.asStruct?

/-- The structure that declares a type. -/
def structOf? (s : Scope) (type : Ty) : Option StructSymbol :=
  type.structName.bind s.lookupStruct?

theorem lookup?_enter (s : Scope) (name : String) : s.enter.lookup? name = s.lookup? name := rfl

theorem lookup?_of_inner {s : Scope} {name : String} {symbol : Symbol}
    (h : s.inner.lookup? name = some symbol) : s.lookup? name = some symbol := by
  simp [lookup?, regions, h]

theorem lookup?_of_not_inner {s : Scope} {name : String} (h : s.inner.lookup? name = none) :
    s.lookup? name = s.outer.findSome? (·.lookup? name) := by
  simp [lookup?, regions, h]

end Scope

end TodLang
