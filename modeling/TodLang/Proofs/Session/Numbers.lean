import TodLang.Proofs.Binding.Issuing
import TodLang.Proofs.Session.Run
/-!
The numbers of variables across sources. A session counts on from source to source, so that a
number stands for one variable wherever the variable is copied to, and later sources have greater
numbers (`Session.compileAll_numbers`).
-/

namespace TodLang

/-- All variables in what a source comes to. -/
def outcomeHolding : Except Diagnostic Compilation → List Variable
  | .ok c => c.program.holding
  | .error _ => []

theorem exportedFunctions_holding (file : Nat) (program : BoundProgram) :
    (exportedFunctions file program).flatMap FunctionSymbol.parameters ⊆ program.holding := by
  intro v hv
  obtain ⟨f, hf, hv⟩ := List.mem_flatMap.1 hv
  obtain ⟨symbol, hsymbol, hfunction⟩ := List.mem_filterMap.1 (List.mem_filter.1 hf).1
  have hmem : symbol ∈ program.symbols := (List.mem_filter.1 hsymbol).1
  cases symbol with
  | function g =>
    obtain rfl := Option.some.inj hfunction
    exact List.mem_append_left _ (List.mem_flatMap.2 ⟨_, hmem, hv⟩)
  | _ => cases hfunction

namespace Session

/-- All variables in the packages of a session. -/
def holding (s : Session) : List Variable :=
  s.packages.flatMap PackageSymbol.holding

/-- All variables in what a source comes to and in the packages that there are then. -/
def stepHolding (step : Except Diagnostic Compilation × Session) : List Variable :=
  outcomeHolding step.1 ++ step.2.holding

/-- Whether a number was taken between two sessions. Numbers are taken one after another. -/
def Takes (before after : Session) (number : Nat) : Prop :=
  before.last < number ∧ number ≤ after.last

theorem holding_registerSource (s : Session) (file : Nat) (name : String)
    (program : BoundProgram) :
    (s.registerSource file name program).holding ⊆ s.holding ++ program.holding := by
  unfold registerSource
  cases fileStem? name with
  | none => exact List.subset_append_left _ _
  | some stem =>
    intro v hv
    obtain ⟨package, hpackage, hv⟩ := List.mem_flatMap.1 hv
    rcases List.mem_append.1 hpackage with hold | hnew
    · exact List.mem_append_left _ (List.mem_flatMap.2 ⟨package, (List.mem_filter.1 hold).1, hv⟩)
    · obtain rfl := List.mem_singleton.1 hnew
      exact List.mem_append_right _ (exportedFunctions_holding file program hv)

/-- A source adds variables to those in the packages before it, with numbers of their own. -/
theorem compile_grows (s : Session) (name text : String) :
    Grows s.holding s.last (s.holding ++ stepHolding (s.compile name text))
      (s.compile name text).2.last := by
  cases hread : s.read s.count text with
  | error d =>
    rw [compile_of_error hread]
    exact grows_of_subset (List.append_subset.2 ⟨List.Subset.refl _, List.Subset.refl _⟩) le_rfl
  | ok result =>
    obtain ⟨tokens, members⟩ := result
    rw [compile_of_ok hread, addProgram_last]
    apply (bindProgram_grows s.packages s.last members).less
    have hpackages := holding_registerSource
      { s.addSource name text with last := (bindProgram s.packages s.last members).last } s.count
      name (bindProgram s.packages s.last members)
    exact List.append_subset.2 ⟨List.subset_append_left _ _,
      List.append_subset.2 ⟨List.subset_append_right _ _, hpackages⟩⟩

theorem compileAll_grows (s : Session) (units : List SourceFile) :
    Grows s.holding s.last (s.holding ++ (s.compileAll units).flatMap stepHolding)
      (s.after units).last := by
  induction units generalizing s with
  | nil =>
    apply grows_of_subset _ le_rfl
    exact List.append_subset.2 ⟨List.Subset.refl _, List.nil_subset _⟩
  | cons unit others ih =>
    let step := s.compile unit.name unit.text
    have hfirst : Grows s.holding s.last (s.holding ++ stepHolding step) step.2.last :=
      compile_grows s unit.name unit.text
    have hothers := (ih step.2).keep (s.holding ++ outcomeHolding step.1)
    rw [List.append_assoc] at hothers
    apply (hfirst.trans hothers).less
    rw [compileAll, List.flatMap_cons, stepHolding]
    simp only [List.append_assoc]
    exact List.Subset.refl _

theorem after_last_mono (s : Session) (units : List SourceFile) {i j : Nat} (h : i ≤ j) :
    (s.after (units.take i)).last ≤ (s.after (units.take j)).last := by
  have hfront : (units.take j).take i = units.take i := by
    rw [List.take_take, Nat.min_eq_left h]
  have hafter : s.after (units.take j) =
      (s.after (units.take i)).after ((units.take j).drop i) := by
    rw [← hfront, ← after_append, List.take_append_drop]
  rw [hafter]
  exact (compileAll_grows _ _).le

/-- In sources that are compiled one after another, variables with one number are one variable,
wherever they are found: the same name and the same place. A later source takes greater numbers
than an earlier one, and each variable in it that is not from a package before it has a number that
was taken for it. -/
theorem compileAll_numbers (hash : Bool) (units : List SourceFile) :
    let start : Session := { hashComments := hash }
    let steps := start.compileAll units
    let session (i : Nat) := start.after (units.take i)
    (∀ v ∈ steps.flatMap stepHolding, ∀ u ∈ steps.flatMap stepHolding, v.id = u.id → v = u) ∧
      (∀ i j, i < j → ∀ m n, (session i).Takes (session (i + 1)) m →
        (session j).Takes (session (j + 1)) n → m < n) ∧
      ∀ i, ∀ step, steps[i]? = some step → step.2 = session (i + 1) ∧
        ∀ v ∈ stepHolding step,
          v ∈ (session i).holding ∨ (session i).Takes (session (i + 1)) v.id := by
  intro start steps session
  refine ⟨?_, ?_, ?_⟩
  · have hstart : ToldApart start.holding start.last :=
      ⟨List.forall_mem_nil _, List.forall_mem_nil _⟩
    exact (hstart.grows (compileAll_grows start units)).distinct
  · intro i j hij m n hm hn
    have hmono : (session (i + 1)).last ≤ (session j).last := after_last_mono start units hij
    exact (hm.2.trans hmono).trans_lt hn.1
  · intro i step hstep
    obtain ⟨unit, hunit, rfl⟩ := exists_of_compileAll_getElem? hstep
    have hsession : session (i + 1) = ((session i).compile unit.name unit.text).2 :=
      after_take_succ hunit
    rw [hsession]
    refine ⟨rfl, ?_⟩
    intro v hv
    obtain ⟨new, hnew, hheld⟩ := compile_grows (session i) unit.name unit.text
    rcases List.mem_append.1 (hheld (List.mem_append_right _ hv)) with hv | hv
    · exact .inl hv
    · exact .inr (hnew.bounds v hv)

end Session

end TodLang
