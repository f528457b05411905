import TodLang.Symbol.Scope
/-!
Scopes with other symbols in the places of their own. If every symbol keeps its name, names stand
for the symbols that take the places, and a declaration is accepted as before.
-/

namespace TodLang

/-- The region with other symbols in the places of its own. -/
def Region.map (f : Symbol → Symbol) (r : Region) : Region :=
  ⟨r.symbols.map f⟩

/-- The scope with other symbols in the places of its own. -/
def Scope.map (f : Symbol → Symbol) (s : Scope) : Scope :=
  ⟨s.inner.map f, s.outer.map (Region.map f)⟩

section

variable {f : Symbol → Symbol}

namespace Region

@[simp] theorem map_empty : empty.map f = empty := rfl

theorem lookup?_map (hname : ∀ s, (f s).name = s.name) (r : Region) (name : String) :
    (r.map f).lookup? name = (r.lookup? name).map f := by
  have hsame : ((·.name == name) ∘ f : Symbol → Bool) = (·.name == name) := by
    funext s
    simp [hname]
  rw [lookup?, map, List.find?_map, hsame]
  rfl

theorem declares_map (hname : ∀ s, (f s).name = s.name) (r : Region) (name : String) :
    (r.map f).declares name = r.declares name := by
  simp [declares, lookup?_map hname]

theorem insertSorted_map (hname : ∀ s, (f s).name = s.name) (s : Symbol) (l : List Symbol) :
    insertSorted (f s) (l.map f) = (insertSorted s l).map f := by
  induction l with
  | nil => rfl
  | cons t others ih =>
    simp only [insertSorted, List.map_cons, hname]
    split
    · rfl
    · rw [List.map_cons, ih]

theorem declare?_map (hname : ∀ s, (f s).name = s.name) (r : Region) (s : Symbol) :
    (r.map f).declare? (f s) = (r.declare? s).map (Region.map f) := by
  simp only [declare?, declares_map hname, hname]
  split
  · rfl
  · simp only [Option.map_some, map, insertSorted_map hname]

end Region

namespace Scope

theorem declare?_map (hname : ∀ s, (f s).name = s.name) (s : Scope) (symbol : Symbol) :
    (s.map f).declare? (f symbol) = (s.declare? symbol).map (Scope.map f) := by
  simp only [declare?, map, Region.declare?_map hname, Option.map_map]
  rfl

theorem lookup?_map (hname : ∀ s, (f s).name = s.name) (s : Scope) (name : String) :
    (s.map f).lookup? name = (s.lookup? name).map f := by
  have hregions : (s.map f).regions = s.regions.map (Region.map f) := rfl
  rw [lookup?, hregions, lookup?]
  induction s.regions with
  | nil => rfl
  | cons r others ih =>
    rw [List.map_cons, List.findSome?_cons, List.findSome?_cons, Region.lookup?_map hname, ih]
    cases r.lookup? name <;> rfl

theorem programIn_map (inner : Region) (outer : List Region) :
    programIn (inner.map f) (outer.map (Region.map f)) = (programIn inner outer).map f := by
  induction outer generalizing inner with
  | nil => rfl
  | cons next others ih =>
    cases others with
    | nil => rfl
    | cons root rest => exact ih next

theorem program_map (s : Scope) : (s.map f).program = s.program.map f :=
  programIn_map s.inner s.outer

end Scope

end

end TodLang
