import TodLang.Session
/-!
Sources compiled one after another. A run keeps what comes of each source together with the session
after it; a run over two rows of sources is a run over the first and then, from the session that it
leaves, a run over the second.
-/

namespace TodLang

namespace Session

/-- What comes of sources that are compiled one after another, each with the session after it. -/
def compileAll (s : Session) : List SourceFile → List (Except Diagnostic Compilation × Session)
  | [] => []
  | unit :: others =>
    let step := s.compile unit.name unit.text
    step :: step.2.compileAll others

/-- The session after sources that are compiled one after another. -/
def after (s : Session) (units : List SourceFile) : Session :=
  units.foldl (fun s unit => (s.compile unit.name unit.text).2) s

/-- How many sources there are so far, which is the number of the next one. -/
def count (s : Session) : Nat :=
  s.sources.files.size

variable {s : Session} {name text : String}

@[simp] theorem after_nil : s.after [] = s := rfl

@[simp] theorem after_cons (unit : SourceFile) (others : List SourceFile) :
    s.after (unit :: others) = (s.compile unit.name unit.text).2.after others := rfl

theorem after_append (front back : List SourceFile) :
    s.after (front ++ back) = (s.after front).after back :=
  List.foldl_append

theorem compileAll_append (front back : List SourceFile) :
    s.compileAll (front ++ back) = s.compileAll front ++ (s.after front).compileAll back := by
  induction front generalizing s with
  | nil => rfl
  | cons unit others ih => simp only [List.cons_append, compileAll, ih, after_cons]

@[simp] theorem compileAll_length (units : List SourceFile) :
    (s.compileAll units).length = units.length := by
  induction units generalizing s with
  | nil => rfl
  | cons unit others ih => simp only [compileAll, List.length_cons, ih]

section

variable {units : List SourceFile} {unit : SourceFile} {i : Nat}

/-- What comes of a source depends on the sources before it only through the session. -/
theorem compileAll_getElem? (h : units[i]? = some unit) :
    (s.compileAll units)[i]? = some ((s.after (units.take i)).compile unit.name unit.text) := by
  induction units generalizing s i with
  | nil => cases h
  | cons first others ih =>
    cases i with
    | zero =>
      obtain rfl := Option.some.inj h
      rfl
    | succ i => exact ih h

theorem exists_of_compileAll_getElem? {step : Except Diagnostic Compilation × Session}
    (h : (s.compileAll units)[i]? = some step) :
    ∃ unit, units[i]? = some unit ∧
      step = (s.after (units.take i)).compile unit.name unit.text := by
  obtain ⟨hi, -⟩ := List.getElem?_eq_some_iff.1 h
  rw [compileAll_length] at hi
  have hunit : units[i]? = some units[i] := List.getElem?_eq_getElem hi
  rw [compileAll_getElem? hunit] at h
  exact ⟨units[i], hunit, (Option.some.inj h).symm⟩

theorem after_take_succ (h : units[i]? = some unit) :
    s.after (units.take (i + 1)) =
      ((s.after (units.take i)).compile unit.name unit.text).2 := by
  rw [List.take_add_one, h, after_append]
  rfl

end

/-! ### One source -/

/-- The session that a source leaves that cannot be read. -/
def addSource (s : Session) (name text : String) : Session :=
  { s with sources := (s.sources.add name text).2 }

/-- The session that a source leaves that was read and bound. -/
def addProgram (s : Session) (name text : String) (program : BoundProgram) : Session :=
  { s.addSource name text with last := program.last }.registerSource s.count name program

theorem compile_eq (s : Session) (name text : String) :
    s.compile name text =
      match s.read s.count text with
      | .error d => (.error d, s.addSource name text)
      | .ok (tokens, members) =>
        (.ok ⟨s.count, tokens, members, bindProgram s.packages s.last members⟩,
          s.addProgram name text (bindProgram s.packages s.last members)) := rfl

theorem compile_of_error {d : Diagnostic} (h : s.read s.count text = .error d) :
    s.compile name text = (.error d, s.addSource name text) := by
  rw [compile_eq, h]

theorem compile_of_ok {tokens : List Token} {members : List Member}
    (h : s.read s.count text = .ok (tokens, members)) :
    s.compile name text =
      (.ok ⟨s.count, tokens, members, bindProgram s.packages s.last members⟩,
        s.addProgram name text (bindProgram s.packages s.last members)) := by
  rw [compile_eq, h]

theorem registerSource_sources (file : Nat) (program : BoundProgram) :
    (s.registerSource file name program).sources = s.sources := by
  unfold registerSource
  cases fileStem? name <;> rfl

theorem registerSource_last (file : Nat) (program : BoundProgram) :
    (s.registerSource file name program).last = s.last := by
  unfold registerSource
  cases fileStem? name <;> rfl

theorem registerSource_hashComments (file : Nat) (program : BoundProgram) :
    (s.registerSource file name program).hashComments = s.hashComments := by
  unfold registerSource
  cases fileStem? name <;> rfl

theorem addSource_count : (s.addSource name text).count = s.count + 1 :=
  Array.size_push _

@[simp] theorem addProgram_last (program : BoundProgram) :
    (s.addProgram name text program).last = program.last :=
  registerSource_last _ _

@[simp] theorem addProgram_hashComments (program : BoundProgram) :
    (s.addProgram name text program).hashComments = s.hashComments :=
  registerSource_hashComments _ _

theorem addProgram_count (program : BoundProgram) :
    (s.addProgram name text program).count = s.count + 1 := by
  rw [count, addProgram, registerSource_sources]
  exact addSource_count

/-- Every source takes the next number, whether it can be read or not. -/
theorem compile_count (s : Session) (name text : String) :
    (s.compile name text).2.count = s.count + 1 := by
  rw [compile_eq]
  cases s.read s.count text with
  | error d => exact addSource_count
  | ok result => exact addProgram_count _

theorem compile_hashComments (s : Session) (name text : String) :
    (s.compile name text).2.hashComments = s.hashComments := by
  rw [compile_eq]
  cases s.read s.count text with
  | error d => rfl
  | ok result => exact addProgram_hashComments _

theorem after_hashComments (units : List SourceFile) :
    (s.after units).hashComments = s.hashComments := by
  induction units generalizing s with
  | nil => rfl
  | cons unit others ih => rw [after_cons, ih, compile_hashComments]

theorem read_after (units : List SourceFile) (file : Nat) (text : String) :
    (s.after units).read file text = s.read file text := by
  simp only [read, after_hashComments]

theorem after_count (units : List SourceFile) : (s.after units).count = s.count + units.length := by
  induction units generalizing s with
  | nil => rfl
  | cons unit others ih =>
    rw [after_cons, ih, compile_count, List.length_cons]
    omega

end Session

end TodLang
