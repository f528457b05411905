import TodLang.Proofs.Binding.Lexical
import Mathlib.Data.List.Forall2
/-!
Scopes agree with lexical scoping. A scope sees a list of regions if it consists of one region for
each of them, with the same first declarations, and of the program's and the prelude's behind these.
Then a name stands for the same in both (`Scope.Sees.lookup?`), and what is recorded for the uses in
an expression answers them (`Scope.Sees.expression`).
-/

namespace TodLang

namespace Declared

theorem Denotes.name {d : Declared} {symbol : Symbol} (h : d.Denotes symbol) :
    symbol.name = d.name := by
  cases d with
  | localVariable n id =>
    rcases h with ⟨v, rfl, hname, -, -⟩
    exact hname
  | parameter v =>
    have hsymbol : symbol = .parameter v := h
    rw [hsymbol]
    rfl

theorem Denotes.fingerprint {d : Declared} {symbol : Symbol} (h : d.Denotes symbol) :
    symbol.fingerprint = d.fingerprint := by
  cases d with
  | localVariable n id =>
    rcases h with ⟨v, rfl, hname, hid, -⟩
    simp only [Symbol.fingerprint, Declared.fingerprint, hname, hid]
  | parameter v =>
    have hsymbol : symbol = .parameter v := h
    rw [hsymbol]
    rfl

end Declared

namespace Meaning

/-- Whether a symbol is the one that is meant. -/
def Denotes (m : Meaning) (s : Symbol) : Prop :=
  match m with
  | declared d => d.Denotes s
  | symbol t => t = s

theorem Denotes.fingerprint {m : Meaning} {s : Symbol} (h : m.Denotes s) :
    s.fingerprint = m.fingerprint := by
  cases m with
  | declared d => exact Declared.Denotes.fingerprint h
  | symbol t =>
    have hsymbol : t = s := h
    rw [hsymbol]
    rfl

/-- No variable of a body can be called. -/
theorem Denotes.callable? {m : Meaning} {s : Symbol} (h : m.Denotes s) :
    m.callable? = (Meaning.symbol s).callable? := by
  cases m with
  | declared d =>
    cases d with
    | localVariable n id =>
      rcases h with ⟨v, rfl, -⟩
      rfl
    | parameter v =>
      have hsymbol : s = .parameter v := h
      rw [hsymbol]
      rfl
  | symbol t =>
    have hsymbol : t = s := h
    rw [hsymbol]

end Meaning

namespace Region

theorem find?_insertSorted {s : Symbol} {l : List Symbol}
    (hfresh : l.find? (·.name == s.name) = none) (name : String) :
    (insertSorted s l).find? (·.name == name) =
      if s.name = name then some s else l.find? (·.name == name) := by
  induction l with
  | nil =>
    by_cases hname : s.name = name <;> simp [insertSorted, hname]
  | cons t others ih =>
    have ht : t.name ≠ s.name := by
      intro h
      simp [h] at hfresh
    have hothers : others.find? (·.name == s.name) = none := by
      simpa [ht] using hfresh
    unfold insertSorted
    split
    · by_cases hname : s.name = name <;> simp [List.find?_cons, hname]
    · by_cases htname : t.name = name
      · have hname : s.name ≠ name := fun h => ht (htname.trans h.symm)
        simp [htname, hname]
      · rw [List.find?_cons_of_neg (by simpa using htname), ih hothers,
          List.find?_cons_of_neg (by simpa using htname)]

theorem declares_of_declare? {r declaring : Region} {s : Symbol}
    (h : r.declare? s = some declaring) : r.declares s.name = false := by
  unfold declare? at h
  split at h
  · cases h
  · simpa using ‹¬ r.declares s.name›

theorem declares_of_declare?_none {r : Region} {s : Symbol} (h : r.declare? s = none) :
    r.declares s.name = true := by
  unfold declare? at h
  split at h
  · assumption
  · cases h

theorem lookup?_declare? {r declaring : Region} {s : Symbol}
    (h : r.declare? s = some declaring) (name : String) :
    declaring.lookup? name = if s.name = name then some s else r.lookup? name := by
  have hfresh := declares_of_declare? h
  have hnone : r.lookup? s.name = none := by
    simpa [declares] using hfresh
  have hdeclaring : ⟨insertSorted s r.symbols⟩ = declaring := by
    simpa [declare?, hfresh] using h
  rw [← hdeclaring]
  exact find?_insertSorted hnone name

/-- Whether a region holds what given declarations say, where the first of each name counts. -/
def Agrees (declared : List Declared) (r : Region) : Prop :=
  ∀ name, Option.Rel Declared.Denotes (declared.find? (·.name == name)) (r.lookup? name)

theorem agrees_empty : Agrees [] empty := by
  intro name
  exact .none

/-- The same names are declared. -/
theorem Agrees.isSome {declared : List Declared} {r : Region} (h : Agrees declared r)
    (name : String) : (declared.find? (·.name == name)).isSome = r.declares name := by
  have hagree := h name
  unfold declares
  generalize declared.find? (·.name == name) = first, r.lookup? name = found at hagree ⊢
  cases hagree with
  | none => rfl
  | some _ => rfl

theorem Agrees.declare {declared : List Declared} {r declaring : Region} {d : Declared}
    {s : Symbol} (h : Agrees declared r) (hd : d.Denotes s)
    (hdeclare : r.declare? s = some declaring) : Agrees (declared ++ [d]) declaring := by
  intro name
  rw [lookup?_declare? hdeclare, List.find?_append]
  by_cases hname : s.name = name
  · have hnone : declared.find? (·.name == name) = none := by
      have hfresh := declares_of_declare? hdeclare
      rw [hname, ← h.isSome] at hfresh
      simpa using hfresh
    rw [hnone, if_pos hname]
    have hfound : [d].find? (·.name == name) = some d := by
      simp [← hd.name, hname]
    rw [hfound]
    exact .some hd
  · have hmissing : [d].find? (·.name == name) = none := by
      simp [← hd.name, hname]
    rw [hmissing, if_neg hname, Option.or_none]
    exact h name

/-- A second declaration of a name changes nothing. -/
theorem Agrees.declare_none {declared : List Declared} {r : Region} {d : Declared} {s : Symbol}
    (h : Agrees declared r) (hd : d.Denotes s) (hdeclare : r.declare? s = none) :
    Agrees (declared ++ [d]) r := by
  intro name
  rw [List.find?_append]
  by_cases hname : s.name = name
  · have hsome := declares_of_declare?_none hdeclare
    rw [hname, ← h.isSome] at hsome
    obtain ⟨first, hfirst⟩ := Option.isSome_iff_exists.1 hsome
    rw [hfirst, Option.some_or, ← hfirst]
    exact h name
  · have hmissing : [d].find? (·.name == name) = none := by
      simp [← hd.name, hname]
    rw [hmissing, Option.or_none]
    exact h name

end Region

/-- Whether a scope consists of regions that agree with given declarations, and of the program's and
the prelude's regions around them. -/
def Scope.Sees (program root : Region) (regions : List (List Declared)) (s : Scope) : Prop :=
  ∃ locals, s.regions = locals ++ [program, root] ∧ List.Forall₂ Region.Agrees regions locals

namespace Scope

variable {program root : Region} {regions : List (List Declared)} {s : Scope}

/-- The innermost region of a scope agrees with the nearest declarations, and what is around it
with the others. -/
theorem sees_cons {inner : List Declared} {outer : List (List Declared)} :
    s.Sees program root (inner :: outer) ↔
      Region.Agrees inner s.inner ∧
        ∃ locals, s.outer = locals ++ [program, root] ∧
          List.Forall₂ Region.Agrees outer locals := by
  constructor
  · rintro ⟨locals, hregions, hagree⟩
    cases hagree with
    | cons hinner houter =>
      obtain ⟨hfirst, hrest⟩ := List.cons.inj hregions
      rw [hfirst]
      exact ⟨hinner, _, hrest, houter⟩
  · rintro ⟨hinner, locals, hlocals, houter⟩
    exact ⟨s.inner :: locals, congrArg (s.inner :: ·) hlocals, .cons hinner houter⟩

theorem Sees.enter (h : s.Sees program root regions) :
    s.enter.Sees program root ([] :: regions) :=
  sees_cons.2 ⟨Region.agrees_empty, h⟩

/-- A region of a body has others around it. -/
theorem Sees.leave {inner : List Declared} (h : s.Sees program root (inner :: regions)) :
    ∃ next others, s.outer = next :: others ∧
      Sees program root regions ⟨next, others⟩ := by
  obtain ⟨-, locals, hlocals, houter⟩ := sees_cons.1 h
  cases locals with
  | nil => exact ⟨program, [root], hlocals, [], rfl, houter⟩
  | cons next others => exact ⟨next, _, hlocals, next :: others, rfl, houter⟩

theorem Sees.declare {inner : List Declared} {declaring : Scope} {d : Declared} {symbol : Symbol}
    (h : s.Sees program root (inner :: regions)) (hd : d.Denotes symbol)
    (hdeclare : s.declare? symbol = some declaring) :
    declaring.Sees program root ((inner ++ [d]) :: regions) := by
  rcases sees_cons.1 h with ⟨hinner, houter⟩
  obtain ⟨r, hr, rfl⟩ := Option.map_eq_some_iff.1 hdeclare
  apply sees_cons.2
  exact ⟨hinner.declare hd hr, houter⟩

theorem Sees.declare_none {inner : List Declared} {d : Declared} {symbol : Symbol}
    (h : s.Sees program root (inner :: regions)) (hd : d.Denotes symbol)
    (hdeclare : s.declare? symbol = none) :
    s.Sees program root ((inner ++ [d]) :: regions) := by
  rcases sees_cons.1 h with ⟨hinner, houter⟩
  have hr : s.inner.declare? symbol = none := Option.map_eq_none_iff.1 hdeclare
  apply sees_cons.2
  exact ⟨hinner.declare_none hd hr, houter⟩

theorem rel_findSome? {locals : List Region} (h : List.Forall₂ Region.Agrees regions locals)
    (name : String) :
    Option.Rel Declared.Denotes (regions.findSome? (·.find? (·.name == name)))
      (locals.findSome? (·.lookup? name)) := by
  induction h with
  | nil => exact .none
  | @cons declared r others rest hfirst _ ih =>
    have hagree := hfirst name
    rw [List.findSome?_cons, List.findSome?_cons]
    generalize declared.find? (·.name == name) = first, r.lookup? name = found at hagree ⊢
    cases hagree with
    | none => exact ih
    | some hd => exact .some hd

/-- A name stands for what lexical scoping says. -/
theorem Sees.lookup? (h : s.Sees program root regions) (name : String) :
    Option.Rel Meaning.Denotes (lexical program root regions name) (s.lookup? name) := by
  rcases h with ⟨locals, hregions, hagree⟩
  have hlocal := rel_findSome? hagree name
  unfold lexical Scope.lookup?
  rw [hregions, List.findSome?_append]
  generalize regions.findSome? (·.find? (·.name == name)) = first,
    locals.findSome? (·.lookup? name) = found at hlocal ⊢
  cases hlocal with
  | some hd => exact .some hd
  | none =>
    have houter : [program, root].findSome? (·.lookup? name) =
        (program.lookup? name).or (root.lookup? name) := by
      cases hprogram : program.lookup? name <;> cases hroot : root.lookup? name <;>
        simp [List.findSome?, hprogram, hroot]
    rw [houter, Option.none_or]
    cases (program.lookup? name).or (root.lookup? name) with
    | none => exact .none
    | some symbol => exact .some rfl

theorem Sees.fingerprint (h : s.Sees program root regions) (name : String) :
    (lexical program root regions name).map Meaning.fingerprint =
      (s.lookup? name).map Symbol.fingerprint := by
  have hlookup := h.lookup? name
  generalize lexical program root regions name = meaning, s.lookup? name = found at hlookup ⊢
  cases hlookup with
  | none => rfl
  | some hmeaning => exact congrArg some hmeaning.fingerprint.symm

theorem Sees.callable? (h : s.Sees program root regions) (name : String) :
    (lexical program root regions name).bind Meaning.callable? =
      (s.lookup? name).bind (Meaning.callable? ∘ Meaning.symbol) := by
  have hlookup := h.lookup? name
  generalize lexical program root regions name = meaning, s.lookup? name = found at hlookup ⊢
  cases hlookup with
  | none => rfl
  | some hmeaning => exact hmeaning.callable?

theorem programIn_eq {inner : Region} {outer locals : List Region}
    (h : inner :: outer = locals ++ [program, root]) :
    programIn inner outer = ⟨program, [root]⟩ := by
  induction outer generalizing inner locals with
  | nil => simpa using congrArg List.length h
  | cons next others ih =>
    cases locals with
    | nil =>
      obtain ⟨rfl, rfl, rfl⟩ : inner = program ∧ next = root ∧ others = [] := by
        simpa using h
      rfl
    | cons first rest =>
      have hrest : next :: others = rest ++ [program, root] := (List.cons.inj h).2
      cases others with
      | nil => simpa using congrArg List.length hrest
      | cons last _ => exact ih hrest

/-- The program's scope sees no region of a body. -/
theorem Sees.toProgram (h : s.Sees program root regions) : s.program.Sees program root [] := by
  rcases h with ⟨locals, hregions, -⟩
  have hprogram : s.program = ⟨program, [root]⟩ := programIn_eq hregions
  exact ⟨[], by rw [hprogram]; rfl, .nil⟩

end Scope

end TodLang
