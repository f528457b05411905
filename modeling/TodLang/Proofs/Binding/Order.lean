import Mathlib.Data.List.Flatten
import Mathlib.Data.List.Nodup
import TodLang.Proofs.Binding.Accepted
import TodLang.Proofs.Binding.Placement
import TodLang.Proofs.Binding.Unresolved
import TodLang.Proofs.Grammar.Soundness
import TodLang.Proofs.Token.Tiling
/-!
The uses that binding records, against the source that a program is read from. Each reference is
recorded once (`references_recorded_once`), and the uses of a name are recorded in the order of the
source exactly where none of them is bound before one that stands in front of it
(`resolutionsOf_ordered_iff`).
-/

namespace TodLang

open Finding (lookups recorded)

/-! ### The names that are recorded -/

/-- A second name that is looked up is the second name of the reference. -/
theorem Reference.follower?_of_followed? {s : Scope} {r : Reference} {n : Ident}
    (h : r.followed? s = some n) : r.follower? = some n := by
  induction r generalizing s with
  | own r ih => exact ih h
  | packageCall package callee count =>
    obtain ⟨-, -, hcallee⟩ := Option.map_eq_some_iff.1 h
    exact congrArg some hcallee
  | typeCall receiver callee count =>
    obtain ⟨-, -, hcallee⟩ := Option.map_eq_some_iff.1 h
    exact congrArg some hcallee
  | fieldOf object field =>
    obtain ⟨-, -, hfield⟩ := Option.map_eq_some_iff.1 h
    exact congrArg some hfield
  | value | target | call | type | packageUse => cases h

/-- However a look-up comes out, the name of the reference is recorded, and the second one if it is
looked up. -/
theorem Reference.Outcome.names {functions : List TypeFunction} {s : Scope} {r : Reference}
    {found : List Finding} (h : r.Outcome functions s found) :
    (recorded found).map Resolution.name = r.head :: (r.followed? s).toList := by
  cases h with
  | found hfollowed | missing hfollowed | followed hfollowed | lost hfollowed
  | unchecked hfollowed =>
    rw [hfollowed]
    rfl

theorem Site.names_sublist (site : Site) : List.Sublist site.names site.reference.names := by
  apply List.Sublist.cons_cons
  cases hfollowed : site.followed? with
  | none => exact List.nil_sublist _
  | some n =>
    have hfollower := Reference.follower?_of_followed? hfollowed
    rw [hfollower]

/-- The names that binding a program records are those that are looked up at its sites. -/
theorem resolutions_names (known : List PackageSymbol) (last : Nat) (members : List Member) :
    (bindProgram known last members).resolutions.map Resolution.name =
      (programSites known last members).flatMap Site.names := by
  have hrecorded : (bindProgram known last members).resolutions =
      recorded (lookups (bindProgram known last members).findings) :=
    (Finding.recorded_lookups _).symm
  rw [hrecorded, bindProgram_lookups, recorded, List.filterMap_flatMap, List.map_flatMap]
  apply List.flatMap_congr
  intro site _
  exact (site.outcome (typeFunctions last)).names

theorem sites_names_sublist (sites : List Site) :
    List.Sublist (sites.flatMap Site.names) (namesOf (sites.map Site.reference)) := by
  rw [namesOf, List.flatMap_map]
  apply List.Sublist.flatMap_right
  intro site _
  exact site.names_sublist

/-! ### Programs that are read from a source -/

section

variable {file : Nat} {hashComments : Bool} {source : String} {tokens : List Token}
  {members : List Member}

/-- Each token of a program starts before the next one. -/
theorem beforeEnding_ordered (htokens : tokenize file hashComments source = .ok tokens) :
    (beforeEnding tokens).Pairwise fun t u => t.span.start < u.span.start := by
  have hsublist : List.Sublist (beforeEnding tokens) tokens := List.takeWhile_sublist _
  have hordered := (laid_tokenize htokens).ordered.sublist hsublist
  apply hordered.imp
  rintro t u ⟨hbytes, hbefore⟩
  omega

/-- The names of the references in a program stand at different places. -/
theorem references_spans_nodup (htokens : tokenize file hashComments source = .ok tokens)
    (hparse : parseProgram tokens = .ok members) (accepted : StructDeclaration → Bool) :
    ((namesOf (programReferences accepted members)).map Ident.span).Nodup := by
  have hordered := beforeEnding_ordered htokens
  have hplaced : Placed (fun _ => True) _ (programReferences accepted members) _ :=
    (parseProgram_spelling hparse).placed
  obtain ⟨names, hperm, hnames⟩ := hplaced.names
  have hspans : (((beforeEnding tokens).map Token.ident).map Ident.span).Nodup := by
    apply List.pairwise_map.2
    apply List.pairwise_map.2
    apply hordered.imp
    intro t u hlt hspan
    have hstart : t.span.start = u.span.start := congrArg Span.start hspan
    omega
  have hsome : (names.map Ident.span).Nodup := hspans.sublist (hnames.map Ident.span)
  exact (hperm.map Ident.span).nodup_iff.1 hsome

/-- The references of a program's sites are those of the tree, with the fields of the structures
that have their symbol. -/
theorem map_programSites_accepts (htokens : tokenize file hashComments source = .ok tokens)
    (hparse : parseProgram tokens = .ok members) (known : List PackageSymbol) (last : Nat) :
    (programSites known last members).map Site.reference =
      programReferences (bindProgram known last members).accepts members := by
  have hspelling := parseProgram_spelling hparse
  have hdistinct := hspelling.structs_distinct (beforeEnding_ordered htokens)
  exact map_programSites (structsNamed_eq_filter known last hdistinct)

/-- Every reference is recorded once, at its place, and beside the references only their second
names are, each at most once. -/
theorem references_recorded_once (htokens : tokenize file hashComments source = .ok tokens)
    (hparse : parseProgram tokens = .ok members) (known : List PackageSymbol) (last : Nat) :
    let p := bindProgram known last members
    let sites := programSites known last members
    let names := p.resolutions.map Resolution.name
    sites.map Site.reference = programReferences p.accepts members ∧
      names = sites.flatMap Site.names ∧
      (∀ r ∈ programReferences p.accepts members, names.count r.head = 1) ∧
      (names.map Ident.span).Nodup := by
  intro p sites names
  have hreferences : sites.map Site.reference = programReferences p.accepts members :=
    map_programSites_accepts htokens hparse known last
  have hnames : names = sites.flatMap Site.names := resolutions_names known last members
  have hspans : (names.map Ident.span).Nodup := by
    have hsublist := sites_names_sublist sites
    rw [← hnames, hreferences] at hsublist
    exact (references_spans_nodup htokens hparse p.accepts).sublist (hsublist.map Ident.span)
  refine ⟨hreferences, hnames, ?_, hspans⟩
  intro r hr
  have hhead : r.head ∈ names := by
    rw [← hreferences] at hr
    obtain ⟨site, hsite, rfl⟩ := List.mem_map.1 hr
    rw [hnames]
    exact List.mem_flatMap.2 ⟨site, hsite, List.mem_cons_self⟩
  exact List.count_eq_one_of_mem hspans.of_map hhead

/-- A variable that is assigned to itself: both of its names are recorded once. -/
theorem references_recorded_once_assignment :
    let x₀ : Ident := ⟨"x", ⟨0, 0, 1, 1, 1, 1, 2⟩⟩
    let x₄ : Ident := ⟨"x", ⟨0, 4, 5, 1, 5, 1, 6⟩⟩
    let tokens : List Token :=
      [⟨.identifier, "x", none, ⟨0, 0, 1, 1, 1, 1, 2⟩, true⟩,
       ⟨.sign .assign, "=", none, ⟨0, 2, 3, 1, 3, 1, 4⟩, true⟩,
       ⟨.identifier, "x", none, ⟨0, 4, 5, 1, 5, 1, 6⟩, true⟩,
       Token.ending ⟨0, 5, 5, 1, 6, 1, 6⟩]
    let members : List Member := [.statement (.expression (.assignment x₀ (.name x₄)))]
    let names := (bindProgram [] 0 members).resolutions.map Resolution.name
    tokenize 0 true "x = x" = .ok tokens ∧ parseProgram tokens = .ok members ∧
      names.count x₀ = 1 ∧ names.count x₄ = 1 := by
  intro x₀ x₄ tokens members names
  have htokens : tokenize 0 true "x = x" = .ok tokens := by
    decide +kernel
  have hparse : parseProgram tokens = .ok members := by
    dsimp only [tokens, members, x₀, x₄]
    cbv
  obtain ⟨-, -, honce, -⟩ := references_recorded_once htokens hparse [] 0
  exact ⟨htokens, hparse, honce (.target x₀) (.tail _ (.head _)), honce (.value x₄) (.head _)⟩

/-- A part of a list without doubles is picked out of it by what is in the part. -/
theorem filter_mem_of_sublist {α : Type} [DecidableEq α] {part all : List α}
    (h : List.Sublist part all) (hnodup : all.Nodup) : all.filter (· ∈ part) = part := by
  induction h with
  | slnil => rfl
  | @cons part all a hsublist ih =>
    obtain ⟨hnot, hnodup⟩ := List.nodup_cons.1 hnodup
    have hleft : a ∉ part := fun hpart => hnot (hsublist.subset hpart)
    rw [List.filter_cons_of_neg (by simpa using hleft), ih hnodup]
  | @cons_cons part all a _ ih =>
    obtain ⟨hnot, hnodup⟩ := List.nodup_cons.1 hnodup
    have hrest : all.filter (· ∈ a :: part) = all.filter (· ∈ part) := by
      apply List.filter_congr
      intro b hb
      have hne : b ≠ a := fun hba => hnot (hba ▸ hb)
      simp [hne]
    rw [List.filter_cons_of_pos (by simp), hrest, ih hnodup]

/-- The uses of a name are recorded in the order of the source exactly where none of them is bound
before another one that is written in front of it. -/
theorem resolutionsOf_ordered_iff (htokens : tokenize file hashComments source = .ok tokens)
    (hparse : parseProgram tokens = .ok members) (known : List PackageSymbol) (last : Nat)
    (name : String) :
    let p := bindProgram known last members
    let uses (n : Ident) : Prop := n.name = name ∧ n ∈ p.resolutions.map Resolution.name
    (p.resolutionsOf name).Pairwise (fun a b => a.name.span.start ≤ b.name.span.start) ↔
      ProgramInOrder uses p.accepts members := by
  intro p uses
  let all := namesOf (programReferences p.accepts members)
  let names := p.resolutions.map Resolution.name
  have hplaced : Placed uses _ (programReferences p.accepts members) _ :=
    (parseProgram_spelling hparse).placed
  have hsublist : List.Sublist names all := by
    have hsites := sites_names_sublist (programSites known last members)
    rwa [← resolutions_names, map_programSites_accepts htokens hparse] at hsites
  have hnodup : all.Nodup := (references_spans_nodup htokens hparse p.accepts).of_map
  have hnames : (p.resolutionsOf name).map Resolution.name =
      (all.filter (· ∈ names)).filter (·.name == name) := by
    rw [filter_mem_of_sublist hsublist hnodup, List.filter_map]
    rfl
  have hordered : (p.resolutionsOf name).Pairwise (·.name.span.start ≤ ·.name.span.start) ↔
      ((p.resolutionsOf name).map Resolution.name).Pairwise (·.span.start ≤ ·.span.start) := by
    rw [List.pairwise_map]
  rw [hordered, hnames, List.pairwise_filter, List.pairwise_filter,
    ← hplaced.ordered (beforeEnding_ordered htokens)]
  apply List.Pairwise.iff
  intro a b
  simp only [decide_eq_true_eq, beq_iff_eq]
  constructor
  · rintro h ⟨ha, hamem⟩ ⟨hb, hbmem⟩
    exact h hamem hbmem ha hb
  · intro h hamem hbmem ha hb
    exact h ⟨ha, hamem⟩ ⟨hb, hbmem⟩

/-- A call of a function and the variable that it is called with have different names. -/
theorem resolutionsOf_ordered_iff_call :
    let f : Ident := ⟨"f", ⟨0, 0, 1, 1, 1, 1, 2⟩⟩
    let x : Ident := ⟨"x", ⟨0, 2, 3, 1, 3, 1, 4⟩⟩
    let tokens : List Token :=
      [⟨.identifier, "f", none, ⟨0, 0, 1, 1, 1, 1, 2⟩, false⟩,
       ⟨.sign .lparen, "(", none, ⟨0, 1, 2, 1, 2, 1, 3⟩, false⟩,
       ⟨.identifier, "x", none, ⟨0, 2, 3, 1, 3, 1, 4⟩, false⟩,
       ⟨.sign .rparen, ")", none, ⟨0, 3, 4, 1, 4, 1, 5⟩, true⟩,
       Token.ending ⟨0, 4, 4, 1, 5, 1, 5⟩]
    let members : List Member :=
      [.statement (.expression (.call f [.name x] ⟨0, 3, 4, 1, 4, 1, 5⟩))]
    tokenize 0 true "f(x)" = .ok tokens ∧ parseProgram tokens = .ok members ∧
      ((bindProgram [] 0 members).resolutionsOf "x").Pairwise fun a b =>
        a.name.span.start ≤ b.name.span.start := by
  intro f x tokens members
  have htokens : tokenize 0 true "f(x)" = .ok tokens := by
    decide +kernel
  have hparse : parseProgram tokens = .ok members := by
    dsimp only [tokens, members, f, x]
    cbv
  refine ⟨htokens, hparse, (resolutionsOf_ordered_iff htokens hparse [] 0 "x").2 ⟨?_, ?_⟩⟩
  · intro member hmember
    obtain rfl := List.mem_singleton.1 hmember
    refine ⟨⟨trivial, trivial⟩, ?_⟩
    rintro a ha b - ⟨⟨hname, -⟩, -⟩
    rw [List.mem_singleton.1 ha] at hname
    exact absurd hname (by decide)
  · apply List.pairwise_of_forall
    intro stage later
    exact List.pairwise_singleton _ _

/-- The value of an assignment is bound before the name in front of it. -/
theorem not_resolutionsOf_ordered_assignment :
    ∃ tokens members, tokenize 0 true "var x = 1 x = x" = .ok tokens ∧
      parseProgram tokens = .ok members ∧
      ¬ ((bindProgram [] 0 members).resolutionsOf "x").Pairwise fun a b =>
        a.name.span.start ≤ b.name.span.start := by
  let tokens : List Token :=
      [⟨.keyword .varWord, "var", none, ⟨0, 0, 3, 1, 1, 1, 4⟩, true⟩,
       ⟨.identifier, "x", none, ⟨0, 4, 5, 1, 5, 1, 6⟩, true⟩,
       ⟨.sign .assign, "=", none, ⟨0, 6, 7, 1, 7, 1, 8⟩, true⟩,
       ⟨.integer, "1", some (.integer 1), ⟨0, 8, 9, 1, 9, 1, 10⟩, true⟩,
       ⟨.identifier, "x", none, ⟨0, 10, 11, 1, 11, 1, 12⟩, true⟩,
       ⟨.sign .assign, "=", none, ⟨0, 12, 13, 1, 13, 1, 14⟩, true⟩,
       ⟨.identifier, "x", none, ⟨0, 14, 15, 1, 15, 1, 16⟩, true⟩,
       Token.ending ⟨0, 15, 15, 1, 16, 1, 16⟩]
  let members : List Member :=
      [.statement (.declaration
        { keyword := ⟨0, 0, 3, 1, 1, 1, 4⟩
          readOnly := false
          type := none
          name := ⟨"x", ⟨0, 4, 5, 1, 5, 1, 6⟩⟩
          value := some (.literal
            ⟨.integer, "1", some (.integer 1), ⟨0, 8, 9, 1, 9, 1, 10⟩, true⟩) }),
       .statement (.expression (.assignment ⟨"x", ⟨0, 10, 11, 1, 11, 1, 12⟩⟩
        (.name ⟨"x", ⟨0, 14, 15, 1, 15, 1, 16⟩⟩)))]
  refine ⟨tokens, members, ?_, ?_, ?_⟩
  · decide +kernel
  · dsimp only [tokens, members]
    cbv
  · decide +kernel

end

end TodLang
