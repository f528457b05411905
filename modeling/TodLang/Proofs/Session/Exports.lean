import TodLang.Proofs.Binding.Order
import TodLang.Proofs.Binding.PackageCalls
import TodLang.Proofs.Grammar.Files
import TodLang.Proofs.Session.Run
/-!
What sources make public for the sources behind them. A source that is read becomes the package of
its stem, with its own public functions and no others, and a call of a function of that package in a
later source is answered from the last source that became it (`Session.compileAll_exports`).
-/

namespace TodLang

/-- Where no two packages have one name, the last one of a name is the first. -/
theorem find?_reverse_of_nodup {packages : List PackageSymbol}
    (h : (packages.map PackageSymbol.name).Nodup) (name : String) :
    packages.reverse.find? (·.name == name) = packages.find? (·.name == name) := by
  induction packages with
  | nil => rfl
  | cons p others ih =>
    obtain ⟨hfirst, hothers⟩ := List.nodup_cons.1 h
    rw [List.reverse_cons, List.find?_append, ih hothers]
    by_cases hname : p.name = name
    · have hnone : others.find? (·.name == name) = none := by
        apply List.find?_eq_none.2
        intro q hq hqname
        apply hfirst
        rw [hname, ← beq_iff_eq.1 hqname]
        exact List.mem_map_of_mem hq
      simp [hnone, hname]
    · simp [hname]

/-- A source makes exactly those functions public that are public and won their names in it. -/
theorem mem_exportedFunctions {file : Nat} {program : BoundProgram} {f : FunctionSymbol} :
    f ∈ exportedFunctions file program ↔
      .function f ∈ program.symbols ∧ (∃ span, f.declaration = some span ∧ span.file = file) ∧
        f.isPublic = true ∧ f.isExternal = false := by
  simp only [exportedFunctions, List.mem_filter, List.mem_filterMap, Option.any_eq_true,
    Bool.and_eq_true, Bool.not_eq_true', beq_iff_eq]
  constructor
  · rintro ⟨⟨symbol, ⟨hsymbol, hdeclared⟩, hfunction⟩, hpublic⟩
    cases symbol with
    | function g =>
      obtain rfl := Option.some.inj hfunction
      exact ⟨hsymbol, hdeclared, hpublic⟩
    | _ => cases hfunction
  · rintro ⟨hsymbol, hdeclared, hpublic⟩
    exact ⟨⟨_, ⟨hsymbol, hdeclared⟩, rfl⟩, hpublic⟩

theorem exportedFunctions_sorted {program : BoundProgram}
    (h : (Region.mk program.symbols).Valid) (file : Nat) :
    (exportedFunctions file program).Pairwise (·.name < ·.name) := by
  have hsymbols : (program.symbols.filter fun s => s.declaration?.any fun span =>
      span.file == file).Pairwise (·.name < ·.name) := List.Pairwise.filter _ h
  apply List.Pairwise.filter
  apply List.Pairwise.filterMap _ _ hsymbols
  intro s t hlt f hf g hg
  cases s <;> cases hf
  cases t <;> cases hg
  exact hlt

/-- Whether a package lists what a source makes public, in the order of the names: the symbol of
each function that is declared to be public, if the function's name stands for it in the program.
All of these are the source's own, and none of them is from a package before it. -/
structure PackageSymbol.Exports (package : PackageSymbol) (before : List PackageSymbol)
    (c : Compilation) : Prop where
  sorted : package.functions.Pairwise (·.name < ·.name)
  mem_iff : ∀ f, f ∈ package.functions ↔
    ∃ d, (d, f) ∈ (functionDeclarations c.members).zip
        (c.program.functions.map BoundFunction.symbol) ∧
      d.visibility.isSome = true ∧ c.program.symbol? d.name.name = some (.function f)
  own : ∀ f ∈ package.functions, f.isExternal = false ∧ f.isBuiltin = false ∧
    ∃ span, f.declaration = some span ∧ span.file = c.file
  fresh : ∀ p ∈ before, ∀ f ∈ p.functions, f ∉ package.functions

namespace Session

variable {s : Session} {name text : String}

theorem package?_register (s : Session) (package : PackageSymbol) (name : String) :
    (s.register package).package? name =
      if package.name = name then some package else s.package? name := by
  unfold register package?
  rw [List.find?_append]
  by_cases hname : package.name = name
  · have hnone : (s.packages.filter (·.name != package.name)).find? (·.name == name) = none := by
      apply List.find?_eq_none.2
      intro p hp
      have hother : p.name ≠ package.name := by simpa using (List.mem_filter.1 hp).2
      simpa [hname] using hother
    rw [if_pos hname, hnone, Option.none_or]
    exact List.find?_cons_of_pos (beq_iff_eq.2 hname)
  · have hsame : (s.packages.filter (·.name != package.name)).find? (·.name == name) =
        s.packages.find? (·.name == name) := by
      rw [List.find?_filter]
      congr 1
      funext p
      by_cases hp : p.name = name
      · have hother : name ≠ package.name := fun h => hname h.symm
        simp [hp, hother]
      · simp [hp]
    rw [if_neg hname, hsame, List.find?_cons_of_neg (by simpa using hname), List.find?_nil,
      Option.or_none]

/-- Whether the packages of a session have different names and list functions of the sources that
there are so far. -/
structure Sound (s : Session) : Prop where
  names : (s.packages.map PackageSymbol.name).Nodup
  earlier : ∀ p ∈ s.packages, ∀ f ∈ p.functions,
    ∃ span, f.declaration = some span ∧ span.file < s.count

theorem sound_start (hash : Bool) : ({ hashComments := hash } : Session).Sound :=
  ⟨List.nodup_nil, List.forall_mem_nil _⟩

theorem read_eq_ok {file : Nat} {tokens : List Token} {members : List Member}
    (h : s.read file text = .ok (tokens, members)) :
    tokenize file s.hashComments text = .ok tokens ∧ parseProgram tokens = .ok members := by
  unfold read at h
  cases htokens : tokenize file s.hashComments text with
  | error e =>
    rw [htokens] at h
    cases h
  | ok read =>
    rw [htokens] at h
    dsimp only at h
    cases hparse : parseProgram read with
    | error e =>
      rw [hparse] at h
      cases h
    | ok parsed =>
      rw [hparse] at h
      obtain ⟨rfl, rfl⟩ := Prod.mk.inj (Except.ok.inj h)
      exact ⟨rfl, hparse⟩

/-- What is known of a source that was compiled. -/
theorem compile_eq_ok {c : Compilation} {after : Session}
    (h : s.compile name text = (.ok c, after)) :
    s.read s.count text = .ok (c.tokens, c.members) ∧ c.file = s.count ∧
      c.program = bindProgram s.packages s.last c.members ∧
      after = s.addProgram name text c.program := by
  cases hread : s.read s.count text with
  | error d =>
    rw [compile_of_error hread] at h
    cases h
  | ok result =>
    obtain ⟨tokens, members⟩ := result
    rw [compile_of_ok hread] at h
    cases h
    exact ⟨rfl, rfl, rfl, rfl⟩

theorem addProgram_of_stem {stem : String} (hstem : fileStem? name = some stem)
    (program : BoundProgram) :
    s.addProgram name text program =
      { s.addSource name text with last := program.last }.register
        { name := stem, functions := exportedFunctions s.count program, module := some name } := by
  rw [addProgram, registerSource, hstem]

theorem addProgram_of_no_stem (hstem : fileStem? name = none) (program : BoundProgram) :
    s.addProgram name text program = { s.addSource name text with last := program.last } := by
  rw [addProgram, registerSource, hstem]

/-- What is registered takes the place of what had its name. -/
theorem nodup_register {packages : List PackageSymbol}
    (h : (packages.map PackageSymbol.name).Nodup) (package : PackageSymbol) :
    ((packages.filter (·.name != package.name) ++ [package]).map PackageSymbol.name).Nodup := by
  rw [List.map_append, List.map_singleton, List.nodup_append]
  refine ⟨h.sublist (List.filter_sublist.map _), List.nodup_singleton _, ?_⟩
  intro a ha b hb
  obtain ⟨p, hp, rfl⟩ := List.mem_map.1 ha
  obtain rfl := List.mem_singleton.1 hb
  simpa using (List.mem_filter.1 hp).2

theorem Sound.compile (h : s.Sound) (name text : String) : (s.compile name text).2.Sound := by
  have hcount := compile_count s name text
  have hkept : ∀ p ∈ s.packages, ∀ f ∈ p.functions,
      ∃ span, f.declaration = some span ∧ span.file < s.count + 1 := by
    intro p hp f hf
    obtain ⟨span, hspan, hfile⟩ := h.earlier p hp f hf
    exact ⟨span, hspan, Nat.lt_succ_of_lt hfile⟩
  cases hread : s.read s.count text with
  | error d =>
    rw [compile_of_error hread] at hcount ⊢
    refine ⟨h.names, ?_⟩
    rw [hcount]
    exact hkept
  | ok result =>
    obtain ⟨tokens, members⟩ := result
    rw [compile_of_ok hread] at hcount ⊢
    dsimp only at hcount ⊢
    cases hstem : fileStem? name with
    | none =>
      rw [addProgram_of_no_stem hstem] at hcount ⊢
      refine ⟨h.names, ?_⟩
      rw [hcount]
      exact hkept
    | some stem =>
      rw [addProgram_of_stem hstem] at hcount ⊢
      refine ⟨nodup_register h.names _, ?_⟩
      rw [hcount]
      intro p hp f hf
      rcases List.mem_append.1 hp with hp | hp
      · exact hkept p (List.mem_filter.1 hp).1 f hf
      · obtain rfl := List.mem_singleton.1 hp
        obtain ⟨-, ⟨span, hspan, hfile⟩, -⟩ := mem_exportedFunctions.1 hf
        exact ⟨span, hspan, by omega⟩

theorem Sound.after (h : s.Sound) (units : List SourceFile) : (s.after units).Sound := by
  induction units generalizing s with
  | nil => exact h
  | cons unit others ih => exact ih (h.compile unit.name unit.text)

/-! ### What a source makes public -/

section

variable {c : Compilation} {after : Session} {stem : String}

/-- The functions that a source exports are those of its members that it declares to be public and
that won their names. -/
theorem Sound.mem_exportedFunctions_iff (h : s.Sound)
    (hcompile : s.compile name text = (.ok c, after)) (f : FunctionSymbol) :
    f ∈ exportedFunctions s.count c.program ↔
      ∃ d, (d, f) ∈ (functionDeclarations c.members).zip
          (c.program.functions.map BoundFunction.symbol) ∧
        d.visibility.isSome = true ∧ c.program.symbol? d.name.name = some (.function f) := by
  obtain ⟨hread, -, hprogram, -⟩ := compile_eq_ok hcompile
  obtain ⟨htokens, hparse⟩ := read_eq_ok hread
  obtain ⟨hdeclares, hvalid, hcomes⟩ := bindProgram_symbols s.packages s.last c.members
  rw [← hprogram] at hdeclares hvalid hcomes
  obtain ⟨hlength, hzip⟩ := List.forall₂_iff_zip.1 hdeclares
  rw [mem_exportedFunctions]
  constructor
  · rintro ⟨hsymbol, ⟨span, hspan, hfile⟩, hpublic, hexternal⟩
    have hsigned : f ∈ c.program.functions.map BoundFunction.symbol := by
      rcases hcomes _ hsymbol with hnone | hother | hsigned | ⟨p, hp, hf⟩
      · rw [hspan] at hnone
        cases hnone
      · rw [hexternal] at hother
        cases hother
      · exact hsigned
      · -- A function of a known package is declared in an earlier source.
        obtain ⟨place, hplace, hearlier⟩ := h.earlier p hp f hf
        obtain rfl := Option.some.inj (hspan.symm.trans hplace)
        omega
    rw [← List.map_snd_zip hlength.ge] at hsigned
    obtain ⟨⟨d, g⟩, hmem, rfl⟩ := List.mem_map.1 hsigned
    have hd : d.Declares g := hzip hmem
    refine ⟨d, hmem, hd.isPublic.symm.trans hpublic, ?_⟩
    rw [← hd.name]
    exact hvalid.lookup?_of_mem hsymbol
  · rintro ⟨d, hmem, hvisible, hsymbol⟩
    have hd : d.Declares f := hzip hmem
    have hmember := mem_functionDeclarations (List.of_mem_zip hmem).1
    refine ⟨List.mem_of_find?_eq_some hsymbol, ⟨_, hd.declaration, ?_⟩,
      hd.isPublic.trans hvisible, hd.isExternal⟩
    exact span_file_of_parseProgram htokens hparse hmember

/-- A source becomes the package of its stem, and the other packages stay as they are. -/
theorem Sound.exports (h : s.Sound) (hcompile : s.compile name text = (.ok c, after))
    (hstem : fileStem? name = some stem) :
    let package : PackageSymbol :=
      { name := stem, functions := exportedFunctions s.count c.program, module := some name }
    after.package? stem = some package ∧ package.Exports s.packages c ∧
      ∀ other, other ≠ stem → after.package? other = s.package? other := by
  intro package
  obtain ⟨-, hfile, hprogram, hafter⟩ := compile_eq_ok hcompile
  obtain ⟨hdeclares, hvalid, -⟩ := bindProgram_symbols s.packages s.last c.members
  rw [← hprogram] at hdeclares hvalid
  have hmem := h.mem_exportedFunctions_iff hcompile
  rw [hafter, addProgram_of_stem hstem]
  refine ⟨?_, ⟨exportedFunctions_sorted hvalid _, hmem, ?_, ?_⟩, ?_⟩
  · rw [package?_register, if_pos rfl]
  · intro f hf
    obtain ⟨d, hzip, -, -⟩ := (hmem f).1 hf
    have hd : d.Declares f := (List.forall₂_iff_zip.1 hdeclares).2 hzip
    obtain ⟨-, hdeclared, -⟩ := mem_exportedFunctions.1 hf
    rw [hfile]
    exact ⟨hd.isExternal, hd.isBuiltin, hdeclared⟩
  · intro p hp f hf hexported
    obtain ⟨place, hplace, hearlier⟩ := h.earlier p hp f hf
    obtain ⟨-, ⟨span, hspan, hsame⟩, -⟩ := mem_exportedFunctions.1 hexported
    obtain rfl := Option.some.inj (hspan.symm.trans hplace)
    omega
  · intro other hother
    rw [package?_register, if_neg fun hname => hother hname.symm]
    rfl

/-- A call of a function of a package that is known is answered by that package, which the program
refers to. -/
theorem Sound.answers (h : s.Sound) (hcompile : s.compile name text = (.ok c, after))
    {package : PackageSymbol} (hpackage : s.package? stem = some package)
    (hresolved : package.isResolved = true)
    (hsorted : package.functions.Pairwise (·.name < ·.name)) {site : Site}
    (hsite : site ∈ programSites s.packages s.last c.members) {qualifier callee : Ident}
    {count : Nat} {scope : Scope}
    (hcalls : site.reference.Calls qualifier callee count site.scope scope)
    (hqualifier : qualifier.name = stem) {p : PackageSymbol}
    (hp : scope.lookupPackage? qualifier.name = some p) :
    (∃ keyword name, .packageReference keyword name ∈ c.members ∧ name.name = stem ∧
        p.declaration = some (Member.packageReference keyword name).span) ∧
      package.Answers qualifier callee count c.program := by
  obtain ⟨hread, -, hprogram, -⟩ := compile_eq_ok hcompile
  obtain ⟨htokens, hparse⟩ := read_eq_ok hread
  obtain ⟨⟨hmem, hname⟩, -⟩ := bindProgram_packageCall hsite hcalls hp
  obtain ⟨⟨span, ident⟩, hreference, rfl⟩ := List.mem_map.1 hmem
  have hident : ident.name = stem :=
    (packageSymbol_name s.packages span ident).symm.trans (hname.trans hqualifier)
  have hknown :
      packageSymbol s.packages span ident = { package with declaration := some span } := by
    have hfind : s.packages.reverse.find? (·.name == ident.name) = some package := by
      rw [find?_reverse_of_nodup h.names, hident]
      exact hpackage
    rw [packageSymbol, hfind]
    rfl
  rw [hknown] at hp ⊢
  have hanswers := answers_of_calls htokens hparse hsite hcalls hp hresolved hsorted
  rw [← hprogram] at hanswers
  obtain ⟨member, hmember, hpair⟩ := List.mem_filterMap.1 hreference
  refine ⟨?_, ⟨hanswers.mem_resolutions, hanswers.resolved_iff, hanswers.undefined_iff,
    hanswers.argumentCount_iff⟩⟩
  cases member with
  | packageReference keyword written =>
    obtain ⟨rfl, rfl⟩ := Prod.mk.inj (Option.some.inj hpair)
    exact ⟨keyword, written, hmember, hident, rfl⟩
  | _ => cases hpair

/-- What a source does not become stays as it is. -/
theorem package?_compile
    (h : ∀ c after, s.compile name text = (.ok c, after) → fileStem? name ≠ some stem) :
    (s.compile name text).2.package? stem = s.package? stem := by
  cases hread : s.read s.count text with
  | error d =>
    rw [compile_of_error hread]
    rfl
  | ok result =>
    obtain ⟨tokens, members⟩ := result
    have hne := h _ _ (compile_of_ok hread)
    rw [compile_of_ok hread]
    dsimp only
    cases hstem : fileStem? name with
    | none =>
      rw [addProgram_of_no_stem hstem]
      rfl
    | some other =>
      have hother : other ≠ stem := fun hname => hne (hstem.trans (congrArg some hname))
      rw [addProgram_of_stem hstem, package?_register, if_neg hother]
      rfl

/-- A package stays as it is until a source becomes it that is read. -/
theorem package?_after (s : Session) (units : List SourceFile) {i j : Nat} (hij : i ≤ j)
    (h : ∀ k, i ≤ k → k < j → ∀ unit d between, units[k]? = some unit →
      (s.compileAll units)[k]? = some (.ok d, between) → fileStem? unit.name ≠ some stem) :
    (s.after (units.take j)).package? stem = (s.after (units.take i)).package? stem := by
  induction j, hij using Nat.le_induction with
  | base => rfl
  | succ j hij ih =>
    have hbefore := ih fun k hik hkj => h k hik (Nat.lt_succ_of_lt hkj)
    cases hunit : units[j]? with
    | none =>
      rw [List.take_add_one, hunit, Option.toList_none, List.append_nil]
      exact hbefore
    | some unit =>
      rw [after_take_succ hunit, ← hbefore]
      apply package?_compile
      intro d between hcompile
      apply h j hij (Nat.lt_succ_self j) unit d between hunit
      rw [compileAll_getElem? hunit, hcompile]

end

/-- A source that is read becomes the package of its stem, which lists the functions that it makes
public, and the other packages stay as they are. As long as no other source becomes the package, it
answers the calls of its functions in the sources behind: a function that it lists is found, with a
fault exactly if the number of arguments differs, and exactly any other function is unknown. -/
theorem compileAll_exports {hash : Bool} {units : List SourceFile} {i : Nat} {unit : SourceFile}
    {c : Compilation} {after : Session} {stem : String} (hunit : units[i]? = some unit)
    (hstem : fileStem? unit.name = some stem)
    (hstep : (({ hashComments := hash } : Session).compileAll units)[i]? = some (.ok c, after)) :
    let start : Session := { hashComments := hash }
    let steps := start.compileAll units
    let session (j : Nat) := start.after (units.take j)
    ∃ package, after.package? stem = some package ∧ package.Exports (session i).packages c ∧
      (∀ other, other ≠ stem → after.package? other = (session i).package? other) ∧
      ∀ j c' after', i < j → steps[j]? = some (.ok c', after') →
        (∀ k, i < k → k < j → ∀ u d between, units[k]? = some u →
          steps[k]? = some (.ok d, between) → fileStem? u.name ≠ some stem) →
        let sites := programSites (session j).packages (session j).last c'.members
        sites.map Site.reference = programReferences c'.program.accepts c'.members ∧
          ∀ site ∈ sites, ∀ qualifier callee count scope p,
            site.reference.Calls qualifier callee count site.scope scope →
            qualifier.name = stem → scope.lookupPackage? qualifier.name = some p →
            (∃ keyword name, .packageReference keyword name ∈ c'.members ∧ name.name = stem ∧
                p.declaration = some (Member.packageReference keyword name).span) ∧
              package.Answers qualifier callee count c'.program := by
  intro start steps session
  have hsound (j : Nat) : (session j).Sound := (sound_start hash).after (units.take j)
  have hcompile : (session i).compile unit.name unit.text = (.ok c, after) := by
    rw [compileAll_getElem? hunit] at hstep
    exact Option.some.inj hstep
  obtain ⟨hregistered, hexports, hothers⟩ := (hsound i).exports hcompile hstem
  refine ⟨_, hregistered, hexports, hothers, ?_⟩
  intro j c' after' hij hstep' hlast sites
  obtain ⟨unit', hunit', hcompile'⟩ := exists_of_compileAll_getElem? hstep'
  obtain ⟨hread, -, hprogram, -⟩ := compile_eq_ok hcompile'.symm
  obtain ⟨htokens, hparse⟩ := read_eq_ok hread
  have hreferences := map_programSites_accepts htokens hparse (session j).packages (session j).last
  rw [← hprogram] at hreferences
  refine ⟨hreferences, ?_⟩
  -- The package is the one that the last source with its stem became.
  have hnext : session (i + 1) = after := by
    have hafter : session (i + 1) = ((session i).compile unit.name unit.text).2 :=
      after_take_succ hunit
    rw [hafter, hcompile]
  have hpackage := package?_after start units (Nat.succ_le_of_lt hij) hlast
  rw [show start.after (units.take (i + 1)) = after from hnext, hregistered] at hpackage
  intro site hsite qualifier callee count scope p hcalls hqualifier hp
  exact (hsound j).answers hcompile'.symm hpackage rfl hexports.sorted hsite hcalls hqualifier hp

/-- A source behind one that makes a function public refers to its package and calls the
function. -/
theorem compileAll_exports_call :
    let units : List SourceFile := [⟨"a.tod", "set fn f() {}"⟩, ⟨"b.tod", "package a\na::f()"⟩]
    let steps := ({ hashComments := true } : Session).compileAll units
    let qualifier : Ident := ⟨"a", ⟨1, 10, 11, 2, 1, 2, 2⟩⟩
    let callee : Ident := ⟨"f", ⟨1, 13, 14, 2, 4, 2, 5⟩⟩
    ∃ c after c' after' package, steps[0]? = some (.ok c, after) ∧
      steps[1]? = some (.ok c', after') ∧ after.package? "a" = some package ∧
      package.Exports [] c ∧ package.Answers qualifier callee 0 c'.program := by
  intro units steps qualifier callee
  let start : Session := { hashComments := true }
  let tokens : List Token :=
    [⟨.keyword .setWord, "set", none, ⟨0, 0, 3, 1, 1, 1, 4⟩, true⟩,
      ⟨.keyword .fnWord, "fn", none, ⟨0, 4, 6, 1, 5, 1, 7⟩, true⟩,
      ⟨.identifier, "f", none, ⟨0, 7, 8, 1, 8, 1, 9⟩, false⟩,
      ⟨.sign .lparen, "(", none, ⟨0, 8, 9, 1, 9, 1, 10⟩, false⟩,
      ⟨.sign .rparen, ")", none, ⟨0, 9, 10, 1, 10, 1, 11⟩, true⟩,
      ⟨.sign .lbrace, "\x7b", none, ⟨0, 11, 12, 1, 12, 1, 13⟩, false⟩,
      ⟨.sign .rbrace, "\x7d", none, ⟨0, 12, 13, 1, 13, 1, 14⟩, true⟩,
      Token.ending ⟨0, 13, 13, 1, 14, 1, 14⟩]
  let members : List Member :=
    [.function ⟨some ⟨0, 0, 3, 1, 1, 1, 4⟩, ⟨0, 4, 6, 1, 5, 1, 7⟩, ⟨"f", ⟨0, 7, 8, 1, 8, 1, 9⟩⟩, [],
      none, ⟨⟨0, 11, 12, 1, 12, 1, 13⟩, [], ⟨0, 12, 13, 1, 13, 1, 14⟩⟩⟩]
  let tokens' : List Token :=
    [⟨.keyword .packageWord, "package", none, ⟨1, 0, 7, 1, 1, 1, 8⟩, true⟩,
      ⟨.identifier, "a", none, ⟨1, 8, 9, 1, 9, 1, 10⟩, true⟩,
      ⟨.identifier, "a", none, qualifier.span, false⟩,
      ⟨.sign .pathSep, "::", none, ⟨1, 11, 13, 2, 2, 2, 4⟩, false⟩,
      ⟨.identifier, "f", none, callee.span, false⟩,
      ⟨.sign .lparen, "(", none, ⟨1, 14, 15, 2, 5, 2, 6⟩, false⟩,
      ⟨.sign .rparen, ")", none, ⟨1, 15, 16, 2, 6, 2, 7⟩, true⟩,
      Token.ending ⟨1, 16, 16, 2, 7, 2, 7⟩]
  let members' : List Member :=
    [.packageReference ⟨1, 0, 7, 1, 1, 1, 8⟩ ⟨"a", ⟨1, 8, 9, 1, 9, 1, 10⟩⟩,
      .statement (.expression (.packageCall qualifier callee [] ⟨1, 15, 16, 2, 6, 2, 7⟩))]
  have htokens : tokenize 0 true "set fn f() {}" = .ok tokens := by
    decide +kernel
  have htokens' : tokenize 1 true "package a\na::f()" = .ok tokens' := by
    decide +kernel
  have hparse : parseProgram tokens = .ok members := by
    dsimp only [tokens, members]
    cbv
  have hparse' : parseProgram tokens' = .ok members' := by
    dsimp only [tokens', members', qualifier, callee]
    cbv
  have hstem : fileStem? "a.tod" = some "a" := by
    decide +kernel
  have hread : start.read 0 "set fn f() {}" = .ok (tokens, members) := by
    simp only [read, start, htokens, hparse]
  let next := start.addProgram "a.tod" "set fn f() {}" (bindProgram [] 0 members)
  have hread' : next.read 1 "package a\na::f()" = .ok (tokens', members') := by
    have hhash : next.hashComments = true := addProgram_hashComments _
    simp only [read, hhash, htokens', hparse']
  have hnext : start.after (units.take 1) = next := congrArg Prod.snd (compile_of_ok hread)
  have hpackages : next.packages =
      [⟨"a", exportedFunctions 0 (bindProgram [] 0 members), some "a.tod", none⟩] :=
    congrArg packages (addProgram_of_stem hstem _)
  have hunit : units[0]? = some ⟨"a.tod", "set fn f() {}"⟩ := rfl
  have hunit' : units[1]? = some ⟨"b.tod", "package a\na::f()"⟩ := rfl
  have hfirst := compileAll_getElem? (s := start) hunit
  rw [List.take_zero, after_nil, compile_of_ok hread] at hfirst
  have hsecond := compileAll_getElem? (s := start) hunit'
  rw [hnext, compile_of_ok hread'] at hsecond
  obtain ⟨package, hpackage, hexports, -, hbehind⟩ := compileAll_exports hunit hstem hfirst
  obtain ⟨-, hcalls⟩ := hbehind 1 _ _ Nat.zero_lt_one hsecond (by omega)
  let declared := Walk.declaring next.packages next.last members'
  have hlookup : ∃ p, declared.enter.scope.lookupPackage? "a" = some p := by
    dsimp only [declared]
    rw [hpackages]
    exact ⟨_, rfl⟩
  obtain ⟨p, hp⟩ := hlookup
  dsimp only at hcalls
  rw [hnext] at hcalls
  -- The call is the only thing in the bodies.
  have hsite : ⟨declared.enter.scope, .packageCall qualifier callee 0⟩ ∈
      programSites next.packages next.last members' :=
    List.mem_append_right _ (List.Mem.head _)
  obtain ⟨-, hanswers⟩ := hcalls _ hsite qualifier callee 0 _ p (.here _) rfl hp
  exact ⟨_, _, _, _, package, hfirst, hsecond, hpackage, hexports, hanswers⟩

end Session

end TodLang
