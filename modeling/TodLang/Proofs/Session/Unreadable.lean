import Mathlib.Data.List.Basic
import TodLang.Proofs.Session.Run
import TodLang.Proofs.Grammar.Files
import TodLang.Proofs.Binding.RelocatedProgram
/-!
Sources that cannot be read. A session numbers its sources, and the numbers stand in every place;
beyond that nothing depends on them. A source that cannot be read takes a number and leaves nothing
else, so that the sources behind it come to the same in files whose numbers are greater by one
(`Session.compileAll_insert_unreadable`).
-/

namespace TodLang

section

variable (number : Nat → Nat)

def Diagnostic.relocate (g : Relocation) (d : Diagnostic) : Diagnostic :=
  { d with span := g.span d.span }

/-- The compilation with other numbers for its files. -/
def Compilation.renumberFiles (c : Compilation) : Compilation where
  file := number c.file
  tokens := c.tokens.map (Token.relocate (.files number))
  members := c.members.map (Member.relocate (.files number))
  program := c.program.relocate (.files number)

/-- What a source comes to, with other numbers for the files. -/
def renumberOutcome (outcome : Except Diagnostic Compilation) : Except Diagnostic Compilation :=
  (outcome.map (Compilation.renumberFiles number)).mapError (Diagnostic.relocate (.files number))

theorem Compilation.diagnostics_renumberFiles (c : Compilation) :
    (c.renumberFiles number).diagnostics =
      c.diagnostics.map (Diagnostic.relocate (.files number)) := by
  have hfaults : (c.program.findings.map (Finding.relocate (.files number))).filterMap
      Finding.error? =
        (c.program.findings.filterMap Finding.error?).map
          (SemanticError.relocate (.files number)) := by
    rw [List.filterMap_map, List.map_filterMap]
    congr 1
    funext f
    cases f <;> rfl
  rw [diagnostics, diagnostics, BoundProgram.errors, BoundProgram.errors, List.map_map]
  show (((c.program.findings.map _).filterMap _).map _) = _
  rw [hfaults, List.map_map]
  rfl

/-- What a source exports is declared in the file of its number, so that no two files may get the
same number. -/
theorem exportedFunctions_relocate (hnumber : Function.Injective number) (file : Nat)
    (program : BoundProgram) :
    exportedFunctions (number file) (program.relocate (.files number)) =
      (exportedFunctions file program).map (FunctionSymbol.relocate (.files number)) := by
  have hdeclared (s : Symbol) :
      ((s.relocate (.files number)).declaration?.any fun span => span.file == number file) =
        s.declaration?.any fun span => span.file == file := by
    rw [Symbol.declaration?_relocate]
    cases s.declaration? with
    | none => rfl
    | some span =>
      rw [Option.map_some, Option.any_some, Option.any_some, Relocation.files_span_file]
      exact Bool.eq_iff_iff.2 (by simp [hnumber.eq_iff])
  have hsymbols : ((program.symbols.map (Symbol.relocate (.files number))).filter
      fun s => s.declaration?.any fun span => span.file == number file) =
        (program.symbols.filter fun s =>
          s.declaration?.any fun span => span.file == file).map
            (Symbol.relocate (.files number)) := by
    rw [List.filter_map]
    simp only [Function.comp_def, hdeclared]
  have hfunctions (symbols : List Symbol) :
      (symbols.map (Symbol.relocate (.files number))).filterMap Symbol.asFunction? =
        (symbols.filterMap Symbol.asFunction?).map (FunctionSymbol.relocate (.files number)) := by
    rw [List.filterMap_map, List.map_filterMap]
    simp only [Function.comp_def, Symbol.asFunction?_relocate]
  rw [exportedFunctions, exportedFunctions, BoundProgram.relocate, hsymbols, hfunctions,
    List.filter_map]
  rfl

end

namespace Session

/-! ### What is left of a source -/

/-- What comes of a source and what the session keeps of it, apart from the sources themselves. -/
structure Trace where
  outcome : Except Diagnostic Compilation
  packages : List PackageSymbol
  last : Nat

/-- What is left of a source that was compiled. -/
def trace (step : Except Diagnostic Compilation × Session) : Trace :=
  ⟨step.1, step.2.packages, step.2.last⟩

/-- What is left of a source, with other numbers for the files. -/
def Trace.renumberFiles (number : Nat → Nat) (t : Trace) : Trace where
  outcome := renumberOutcome number t.outcome
  packages := t.packages.map (PackageSymbol.relocate (.files number))
  last := t.last

section

variable {number : Nat → Nat} {s s' : Session}

/-- Two sessions that keep the same but for the numbers of files. -/
structure Corresponds (number : Nat → Nat) (s s' : Session) : Prop where
  packages : s'.packages = s.packages.map (PackageSymbol.relocate (.files number))
  last : s'.last = s.last
  hashComments : s'.hashComments = s.hashComments

theorem read_files (number : Nat → Nat) (s : Session) (file : Nat) (text : String) :
    s.read (number file) text =
      ((s.read file text).map fun result =>
        (result.1.map (Token.relocate (.files number)),
          result.2.map (Member.relocate (.files number)))).mapError
        (Diagnostic.relocate (.files number)) := by
  unfold read
  rw [tokenize_files]
  cases tokenize file s.hashComments text with
  | error e => rfl
  | ok tokens =>
    simp only [Except.map, Except.mapError, parseProgram_files]
    cases parseProgram tokens <;> rfl

/-- A source that cannot be read under one number cannot be read under another. -/
theorem read_error_files {file : Nat} {text : String} {d : Diagnostic}
    (h : s.read file text = .error d) (file' : Nat) :
    s.read file' text = .error (d.relocate (.files fun _ => file')) := by
  have hfiles := read_files (fun _ => file') s file text
  rw [h] at hfiles
  exact hfiles

namespace Corresponds

theorem read (h : Corresponds number s s') (file : Nat) (text : String) :
    s'.read file text = s.read file text := by
  simp only [Session.read, h.hashComments]

theorem addSource (h : Corresponds number s s') (name text name' text' : String) :
    Corresponds number (s.addSource name text) (s'.addSource name' text') :=
  ⟨h.packages, h.last, h.hashComments⟩

theorem register (h : Corresponds number s s') (package : PackageSymbol) :
    Corresponds number (s.register package)
      (s'.register (package.relocate (.files number))) := by
  refine ⟨?_, h.last, h.hashComments⟩
  simp only [Session.register, h.packages, List.map_append, List.filter_map, List.map_cons,
    List.map_nil]
  rfl

theorem addProgram (h : Corresponds number s s') (hnumber : Function.Injective number)
    (hcount : number s.count = s'.count) (name text : String) (program : BoundProgram) :
    Corresponds number (s.addProgram name text program)
      (s'.addProgram name text (program.relocate (.files number))) := by
  have hadded : Corresponds number { s.addSource name text with last := program.last }
      { s'.addSource name text with last := program.last } := ⟨h.packages, rfl, h.hashComments⟩
  unfold Session.addProgram registerSource
  cases fileStem? name with
  | none => exact hadded
  | some stem =>
    have hregistered := hadded.register
      { name := stem, functions := exportedFunctions s.count program, module := some name }
    rw [PackageSymbol.relocate, ← exportedFunctions_relocate number hnumber, hcount]
      at hregistered
    exact hregistered

/-- One source comes to the same in two sessions that correspond, and they correspond after it. -/
theorem compile (h : Corresponds number s s') (hnumber : Function.Injective number)
    (hcount : number s.count = s'.count) (name text : String) :
    (s'.compile name text).1 = renumberOutcome number (s.compile name text).1 ∧
      Corresponds number (s.compile name text).2 (s'.compile name text).2 := by
  have hread := read_files number s s.count text
  rw [hcount, ← h.read] at hread
  match hresult : s.read s.count text with
  | .error d =>
    rw [hresult] at hread
    rw [compile_of_error hresult, compile_of_error hread]
    exact ⟨rfl, h.addSource name text name text⟩
  | .ok (tokens, members) =>
    have hprogram := bindProgram_relocate (.files number) s.packages s.last members
    rw [← h.packages, ← h.last] at hprogram
    rw [hresult] at hread
    rw [compile_of_ok hresult, compile_of_ok hread, hprogram]
    refine ⟨?_, h.last ▸ h.addProgram hnumber hcount name text _⟩
    rw [← hcount, h.last]
    rfl

/-- Rows of sources come to the same in two sessions that correspond. -/
theorem compileAll (h : Corresponds number s s') (hnumber : Function.Injective number)
    (units : List SourceFile) (hcount : ∀ i < units.length, number (s.count + i) = s'.count + i) :
    (s'.compileAll units).map trace =
        (s.compileAll units).map (fun step => (trace step).renumberFiles number) ∧
      Corresponds number (s.after units) (s'.after units) := by
  induction units generalizing s s' with
  | nil => exact ⟨rfl, h⟩
  | cons unit others ih =>
    obtain ⟨houtcome, hnext⟩ := h.compile hnumber (hcount 0 (Nat.succ_pos _)) unit.name unit.text
    have hothers := ih hnext (by
      intro i hi
      rw [compile_count, compile_count, Nat.add_assoc, Nat.add_comm 1 i, Nat.add_assoc,
        Nat.add_comm 1 i]
      exact hcount (i + 1) (Nat.succ_lt_succ hi))
    refine ⟨?_, hothers.2⟩
    simp only [Session.compileAll, List.map_cons, hothers.1]
    rw [trace, houtcome, hnext.packages, hnext.last]
    rfl

end Corresponds

end

/-! ### A source more -/

/-- The numbers of files if one more source comes in front of the one with a given number. -/
def shiftFrom (place : Nat) (file : Nat) : Nat :=
  if file < place then file else file + 1

theorem shiftFrom_injective (place : Nat) : Function.Injective (shiftFrom place) := by
  intro a b h
  unfold shiftFrom at h
  split at h <;> split at h <;> omega

/-- Compiling a source that cannot be read changes nothing in what comes of the others but that the
files behind it have numbers greater by one. -/
theorem compileAll_insert_unreadable {hash : Bool} {bad : SourceFile} {file : Nat} {d : Diagnostic}
    (hbad : ({ hashComments := hash } : Session).read file bad.text = .error d)
    (front back : List SourceFile) :
    let start : Session := { hashComments := hash }
    let plain := start.compileAll (front ++ back)
    let inserted := start.compileAll (front ++ bad :: back)
    inserted.take front.length = plain.take front.length ∧
      (inserted.drop (front.length + 1)).map trace =
        (plain.drop front.length).map fun step =>
          (trace step).renumberFiles (shiftFrom front.length) := by
  intro start plain inserted
  have hcount : (start.after front).count = front.length := by
    rw [after_count]
    exact Nat.zero_add _
  -- In front of the new source no number changes, so that the session there corresponds to itself.
  have hstart : Corresponds (shiftFrom front.length) start start := ⟨rfl, rfl, rfl⟩
  have hfront := (hstart.compileAll (shiftFrom_injective _) front (by
    intro i hi
    have hzero : start.count = 0 := rfl
    rw [hzero, Nat.zero_add, shiftFrom, if_pos hi])).2
  have hread : ∃ d', (start.after front).read (start.after front).count bad.text = .error d' := by
    rw [read_after]
    exact ⟨_, read_error_files hbad _⟩
  obtain ⟨d', hread⟩ := hread
  have hmore : Corresponds (shiftFrom front.length) (start.after front)
      ((start.after front).addSource bad.name bad.text) :=
    ⟨hfront.packages, hfront.last, hfront.hashComments⟩
  have hback := (hmore.compileAll (shiftFrom_injective _) back (by
    intro i _
    rw [addSource_count, hcount, shiftFrom, if_neg (by omega)]
    omega)).1
  have hplain : plain = start.compileAll front ++ (start.after front).compileAll back :=
    compileAll_append front back
  have hinserted :
      inserted = start.compileAll front ++ (start.after front).compileAll (bad :: back) :=
    compileAll_append front (bad :: back)
  have hbehind : (start.after front).compileAll (bad :: back) =
      (.error d', (start.after front).addSource bad.name bad.text) ::
        ((start.after front).addSource bad.name bad.text).compileAll back := by
    rw [Session.compileAll, compile_of_error hread]
  have hlength : (start.compileAll front).length = front.length := compileAll_length front
  rw [hplain, hinserted, hbehind]
  constructor
  · rw [List.take_left' hlength, List.take_left' hlength]
  · rw [List.drop_left' hlength, ← List.drop_drop, List.drop_left' hlength, List.drop_one,
      List.tail_cons, hback]

/-- A source that breaks off stands between one that exports a function and one that calls it. -/
theorem compileAll_insert_unreadable_function :
    let start : Session := { hashComments := true }
    let bad : SourceFile := ⟨"bad.tod", "fn ("⟩
    let front : List SourceFile := [⟨"a.tod", "set fn f() {}"⟩]
    let back : List SourceFile := [⟨"b.tod", "package a\nvar x = a::f()"⟩]
    let plain := start.compileAll (front ++ back)
    let inserted := start.compileAll (front ++ bad :: back)
    start.read 0 bad.text = .error (.ofSyntaxError
        ⟨⟨.sign .lparen, "(", none, ⟨0, 3, 4, 1, 4, 1, 5⟩, true⟩, .token .identifier⟩) ∧
      inserted.take 1 = plain.take 1 ∧
      (inserted.drop 2).map trace =
        (plain.drop 1).map fun step => (trace step).renumberFiles (shiftFrom 1) := by
  intro start bad front back plain inserted
  have htokens : tokenize 0 true "fn (" =
      .ok [⟨.keyword .fnWord, "fn", none, ⟨0, 0, 2, 1, 1, 1, 3⟩, true⟩,
        ⟨.sign .lparen, "(", none, ⟨0, 3, 4, 1, 4, 1, 5⟩, true⟩,
        Token.ending ⟨0, 4, 4, 1, 5, 1, 5⟩] := by
    decide +kernel
  have hmembers : parseProgram
      [⟨.keyword .fnWord, "fn", none, ⟨0, 0, 2, 1, 1, 1, 3⟩, true⟩,
        ⟨.sign .lparen, "(", none, ⟨0, 3, 4, 1, 4, 1, 5⟩, true⟩,
        Token.ending ⟨0, 4, 4, 1, 5, 1, 5⟩] =
      .error ⟨⟨.sign .lparen, "(", none, ⟨0, 3, 4, 1, 4, 1, 5⟩, true⟩, .token .identifier⟩ := by
    cbv
  have hread : start.read 0 bad.text = .error (.ofSyntaxError
      ⟨⟨.sign .lparen, "(", none, ⟨0, 3, 4, 1, 4, 1, 5⟩, true⟩, .token .identifier⟩) := by
    simp only [read, start, bad, htokens, hmembers]
  exact ⟨hread, compileAll_insert_unreadable hread front back⟩

end Session

end TodLang
