import Mathlib.Data.List.Pairwise
import TodLang.Binding.Outline
import TodLang.Proofs.Binding.Locals
import TodLang.Proofs.Tree.Siblings
/-!
What the dump of a program's symbols lists below a function. It takes the symbols of the first bound
function with the same fingerprint. Of functions with a body that have one name and one fingerprint
the first is the one that is declared, so its own symbols are listed; but a function that is
declared without a body, or used of a package, has no entry, and then those of a function that did
not win the name are listed, and so are those of a function of another name with the same
fingerprint (`symbolOutline_function`).
-/

namespace TodLang

/-- The entry that is listed below a function: the first one with its fingerprint. -/
def BoundProgram.listed? (p : BoundProgram) (g : FunctionSymbol) : Option BoundFunction :=
  p.functions.find? (·.symbol.fingerprint == g.fingerprint)

theorem BoundProgram.localsOf_eq (p : BoundProgram) (g : FunctionSymbol) :
    p.localsOf g = ((p.listed? g).map BoundFunction.locals).getD [] :=
  rfl

/-- Whether a function with a body is the first declaration of the name of a symbol, and which entry
is its own. -/
structure FunctionDeclaration.Owns (known : List PackageSymbol) (last : Nat)
    (members : List Member) (d : FunctionDeclaration) (b : BoundFunction) (g : FunctionSymbol) :
    Prop where
  first : (programDeclarations known members).find? (·.name.name == g.name) = some (.function d)
  entry : (d, b) ∈ (functionDeclarations members).zip (bindProgram known last members).functions

/-- Whether what is listed below a function are its own symbols: each belongs to an entry with the
same declaration, and if the program declares the function with a body, then what is listed are the
symbols of its entry, in their order. -/
structure ListsOwn (known : List PackageSymbol) (last : Nat) (members : List Member)
    (g : FunctionSymbol) : Prop where
  belongs : ∀ l ∈ (bindProgram known last members).localsOf g,
    ∃ b ∈ (bindProgram known last members).functions,
      b.symbol.declaration = g.declaration ∧ l ∈ b.locals
  own : ∀ d b, FunctionDeclaration.Owns known last members d b g →
    (bindProgram known last members).localsOf g = b.locals

/-- If each of two searches would accept what the other one finds, they find the same. -/
theorem eq_of_find? {α : Type} {P Q : α → Bool} {l : List α} {a b : α}
    (hP : l.find? P = some a) (hQ : l.find? Q = some b) (ha : Q a = true) (hb : P b = true) :
    a = b := by
  induction l with
  | nil => cases hP
  | cons c others ih =>
    rw [List.find?_cons] at hP hQ
    cases hPc : P c with
    | true =>
      rw [hPc] at hP
      obtain rfl := Option.some.inj hP
      rw [ha] at hQ
      exact Option.some.inj hQ
    | false =>
      cases hQc : Q c with
      | true =>
        rw [hQc] at hQ
        obtain rfl := Option.some.inj hQ
        rw [hPc] at hb
        cases hb
      | false =>
        rw [hPc] at hP
        rw [hQc] at hQ
        exact ih hP hQ

/-- What is found first is found first among things of its kind. -/
theorem find?_filterMap_of_find? {α β : Type} {f : α → Option β} {P : α → Bool} {Q : β → Bool}
    {l : List α} {a : α} {b : β} (hf : ∀ x y, f x = some y → Q y = P x)
    (h : l.find? P = some a) (hab : f a = some b) : (l.filterMap f).find? Q = some b := by
  induction l with
  | nil => cases h
  | cons c others ih =>
    rw [List.find?_cons] at h
    cases hPc : P c with
    | true =>
      rw [hPc] at h
      obtain rfl := Option.some.inj h
      rw [List.filterMap_cons_some hab, List.find?_cons_of_pos]
      rw [hf c b hab, hPc]
    | false =>
      rw [hPc] at h
      cases hfc : f c with
      | none => rw [List.filterMap_cons_none hfc, ih h]
      | some y =>
        rw [List.filterMap_cons_some hfc, List.find?_cons_of_neg, ih h]
        rw [hf c y hfc, hPc]
        exact Bool.false_ne_true

/-- What is related to a thing of a list stands at its place. -/
theorem exists_zip_of_mem {α β : Type} {R : α → β → Prop} {as : List α} {bs : List β}
    (h : List.Forall₂ R as bs) {b : β} (hb : b ∈ bs) : ∃ a, (a, b) ∈ as.zip bs := by
  have hsecond : (as.zip bs).map Prod.snd = bs := List.map_snd_zip h.length_eq.ge
  rw [← hsecond] at hb
  obtain ⟨⟨a, b'⟩, hpair, rfl⟩ := List.mem_map.1 hb
  exact ⟨a, hpair⟩

/-- The symbol of a function that is declared with a body. -/
def Made.bodySymbol? (m : Made) : Option FunctionSymbol :=
  match m.declaration, m.symbol with
  | .function _, .function f => some f
  | _, _ => none

namespace Walk

theorem filterMap_signaturesMade (w : Walk) (members : List Member) :
    (w.signaturesMade members).filterMap Made.bodySymbol? = (w.signatures members).1 := by
  induction members generalizing w with
  | nil => rfl
  | cons member others ih =>
    cases member with
    | function d => exact congrArg (_ :: ·) (ih _)
    | external d => exact ih _
    | _ => exact ih w

end Walk

section

variable {known : List PackageSymbol} {last : Nat} {members : List Member}

theorem map_functions_symbol :
    (bindProgram known last members).functions.map BoundFunction.symbol =
      ((Walk.structsDeclared known last members).signatures members).1 :=
  Walk.bindMembers_symbols (Walk.signatures_sign _ members) _

/-- The functions with a body are among the declarations, in the order of the members. -/
theorem filterMap_programMade :
    (programMade known last members).filterMap Made.bodySymbol? =
      (bindProgram known last members).functions.map BoundFunction.symbol := by
  have hearly : ((earlyMade known members).map
      (Made.setAll (givenFields known last members))).filterMap Made.bodySymbol? = [] := by
    rw [List.filterMap_eq_nil_iff]
    intro m hm
    obtain ⟨early, hearly, rfl⟩ := List.mem_map.1 hm
    rcases List.mem_append.1 hearly with hearly | hearly
    · rcases List.mem_append.1 hearly with hearly | hearly
      · obtain ⟨reference, -, rfl⟩ := List.mem_map.1 hearly
        rfl
      · obtain ⟨use, -, himport⟩ := List.mem_flatMap.1 hearly
        obtain ⟨f, -, rfl⟩ := List.mem_map.1 himport
        rfl
    · obtain ⟨d, -, rfl⟩ := List.mem_map.1 hearly
      rfl
  have hglobals (w : Walk) (ds : List VariableDeclaration) :
      (w.globalsMade ds).filterMap Made.bodySymbol? = [] := by
    induction ds generalizing w with
    | nil => rfl
    | cons d others ih => exact ih _
  rw [programMade, List.filterMap_append, List.filterMap_append, hearly, hglobals,
    Walk.filterMap_signaturesMade, List.nil_append, List.append_nil, map_functions_symbol]

/-- The declaration that a function of the program's region comes from is the first of its name. -/
theorem exists_made {g : FunctionSymbol}
    (hg : .function g ∈ (bindProgram known last members).symbols) :
    ∃ m, (programMade known last members).find? (·.name.name == g.name) = some m ∧
      m.symbol = .function g ∧
      (programDeclarations known members).find? (·.name.name == g.name) = some m.declaration ∧
      m.declaration.Makes known last members (.function g) := by
  have hvalid : (Region.mk (bindProgram known last members).symbols).Valid := by
    rw [bindProgram_region]
    exact (holdsFirsts_ofMade _).valid
  have hsymbol : (bindProgram known last members).symbol? g.name = some (.function g) :=
    hvalid.lookup?_of_mem hg
  rw [bindProgram_symbol?] at hsymbol
  obtain ⟨m, hfind, hm⟩ := Option.map_eq_some_iff.1 hsymbol
  have hfirst : m ∈ firsts (·.name.name) [] (programMade known last members) := by
    rw [← find?_firsts List.not_mem_nil] at hfind
    exact List.mem_of_find?_eq_some hfind
  have hdeclaration : (programDeclarations known members).find? (·.name.name == g.name) =
      some m.declaration := by
    rw [← map_programMade known last members, List.find?_map]
    exact congrArg (Option.map Made.declaration) hfind
  have hmakes := makes_of_mem_firsts known last members hfirst
  rw [hm] at hmakes
  exact ⟨m, hfind, hm, hdeclaration, hmakes⟩

/-- A function with a body that is the first declaration of its name is the first entry of that
name, with the symbol that the program's region has. -/
theorem find?_functions_of_first {g : FunctionSymbol}
    (hg : .function g ∈ (bindProgram known last members).symbols) {d : FunctionDeclaration}
    (hd : (programDeclarations known members).find? (·.name.name == g.name) =
      some (.function d)) :
    ∃ b, (bindProgram known last members).functions.find? (·.symbol.name == g.name) = some b ∧
      b.symbol = g := by
  obtain ⟨m, hfind, hm, hdeclaration, -⟩ := exists_made hg
  rw [hd] at hdeclaration
  have hbody : m.bodySymbol? = some g := by
    rw [Made.bodySymbol?, ← Option.some.inj hdeclaration, hm]
  have hnames (x : Made) (f : FunctionSymbol) (hx : x.bodySymbol? = some f) :
      (f.name == g.name) = (x.name.name == g.name) := by
    obtain ⟨declaration, symbol, hnamed⟩ := x
    cases declaration with
    | function d =>
      cases symbol with
      | function f' =>
        obtain rfl := Option.some.inj hx
        exact congrArg (· == g.name) hnamed
      | _ => cases hx
    | _ => cases hx
  have hfirst := find?_filterMap_of_find? (Q := fun f : FunctionSymbol => f.name == g.name) hnames
    hfind hbody
  rw [filterMap_programMade, List.find?_map] at hfirst
  obtain ⟨b, hb, hsymbol⟩ := Option.map_eq_some_iff.1 hfirst
  exact ⟨b, hb, hsymbol⟩

/-- The regions of different functions of a source are different. -/
theorem functionDeclarations_distinct {file : Nat} {hashComments : Bool} {source : String}
    {tokens : List Token} (htokens : tokenize file hashComments source = .ok tokens)
    (hparse : parseProgram tokens = .ok members) :
    ((functionDeclarations members).map fun d => (Member.function d).span).Nodup := by
  have hrow := (parseProgram_spelling hparse).row (laid_tokenize htokens).run
  have hpairs : members.Pairwise fun a b => a.span.stop ≤ b.span.start :=
    List.pairwise_map.1 hrow.pairwise
  have hspans : members.Pairwise fun a b => a.span ≠ b.span := by
    refine hpairs.imp_of_mem ?_
    intro a b ha _ hle heq
    have hlt : a.span.start < a.span.stop :=
      (hrow.everywhere _ (List.mem_map_of_mem ha)).self.1
    rw [heq] at hlt hle
    omega
  rw [List.Nodup, List.pairwise_map]
  refine hspans.filterMap _ ?_
  intro a a' hne d hd d' hd'
  cases a with
  | function e =>
    cases a' with
    | function e' =>
      obtain rfl := Option.some.inj hd
      obtain rfl := Option.some.inj hd'
      exact hne
    | _ => cases hd'
  | _ => cases hd

/-- Every entry is the one of its declaration. -/
theorem functions_declares :
    List.Forall₂ (fun d b => FunctionDeclaration.Declares d b.symbol) (functionDeclarations members)
      (bindProgram known last members).functions := by
  have hdeclares := (Walk.structsDeclared known last members).signatures_declares members
  rwa [← map_functions_symbol, List.forall₂_map_right_iff] at hdeclares

section

variable {file : Nat} {hashComments : Bool} {source : String} {tokens : List Token}
  (htokens : tokenize file hashComments source = .ok tokens)
  (hparse : parseProgram tokens = .ok members)

include htokens hparse

/-- Entries with the same declaration are the same entry. -/
theorem eq_of_declaration_eq {b b' : BoundFunction}
    (hb : b ∈ (bindProgram known last members).functions)
    (hb' : b' ∈ (bindProgram known last members).functions)
    (h : b.symbol.declaration = b'.symbol.declaration) : b = b' := by
  have hspans : List.Forall₂ (· = ·)
      (((functionDeclarations members).map fun d => (Member.function d).span).map some)
      ((bindProgram known last members).functions.map (·.symbol.declaration)) := by
    rw [List.map_map, List.forall₂_map_left_iff, List.forall₂_map_right_iff]
    exact functions_declares.imp fun d b hd => hd.declaration.symm
  rw [List.forall₂_eq_eq_eq] at hspans
  have hnodup := (functionDeclarations_distinct htokens hparse).map (Option.some_injective _)
  rw [hspans] at hnodup
  exact List.inj_on_of_nodup_map hnodup hb hb' h

/-- The entry of the function that wins a name has the symbol of the program's region. -/
theorem FunctionDeclaration.Owns.symbol_eq {g : FunctionSymbol}
    (hg : .function g ∈ (bindProgram known last members).symbols) {d : FunctionDeclaration}
    {b : BoundFunction} (h : d.Owns known last members b g) : b.symbol = g := by
  obtain ⟨m, -, -, hdeclaration, hmakes⟩ := exists_made hg
  rw [h.first] at hdeclaration
  rw [← Option.some.inj hdeclaration] at hmakes
  obtain ⟨f, hf, -, -, hpair⟩ := hmakes
  obtain rfl := Symbol.function.inj hf
  rw [List.zip_map_right] at hpair
  obtain ⟨⟨d', b'⟩, hzip, hentry⟩ := List.mem_map.1 hpair
  obtain ⟨rfl, hsymbol⟩ := Prod.mk.inj hentry
  have hdeclares := List.forall₂_zip functions_declares h.entry
  have hdeclares' := List.forall₂_zip functions_declares hzip
  have hsame := eq_of_declaration_eq htokens hparse (List.of_mem_zip h.entry).2
    (List.of_mem_zip hzip).2 (hdeclares.declaration.trans hdeclares'.declaration.symm)
  rw [hsame]
  exact hsymbol

/-- What is listed below a function are its own symbols unless the first entry with its fingerprint
has another declaration, and it or the function's own entry has symbols. -/
theorem listsOwn_iff {g : FunctionSymbol}
    (hg : .function g ∈ (bindProgram known last members).symbols) :
    ListsOwn known last members g ↔
      ∀ b, (bindProgram known last members).listed? g = some b →
        b.symbol.declaration ≠ g.declaration →
          b.locals = [] ∧ ∀ d own, FunctionDeclaration.Owns known last members d own g →
            own.locals = [] := by
  let p := bindProgram known last members
  constructor
  · intro h b hb hother
    have hlisted : p.localsOf g = b.locals := by rw [p.localsOf_eq, hb]; rfl
    have hnone : b.locals = [] := by
      rw [List.eq_nil_iff_forall_not_mem]
      intro l hl
      obtain ⟨b', hb', hdeclaration, hl'⟩ := h.belongs l (hlisted ▸ hl)
      have hne : b ≠ b' := fun heq => hother (heq ▸ hdeclaration)
      have : Std.Symm fun b b' : BoundFunction => b.locals.Disjoint b'.locals :=
        ⟨fun _ _ hd _ hl hl' => hd hl' hl⟩
      have hdisjoint := (functions_disjoint known last members).forall
        (List.mem_of_find?_eq_some hb) hb' hne
      exact hdisjoint hl hl'
    refine ⟨hnone, fun d own howns => ?_⟩
    rw [← h.own d own howns, hlisted, hnone]
  · intro h
    cases hentry : p.listed? g with
    | none =>
      have hlisted : p.localsOf g = [] := by rw [p.localsOf_eq, hentry]; rfl
      refine ⟨fun l hl => ?_, fun d own howns => ?_⟩
      · rw [hlisted] at hl
        cases hl
      · have hsymbol := howns.symbol_eq htokens hparse hg
        have hnone := List.find?_eq_none.1 hentry own (List.of_mem_zip howns.entry).2
        rw [hsymbol] at hnone
        exact absurd (beq_self_eq_true _) hnone
    | some b =>
      have hlisted : p.localsOf g = b.locals := by rw [p.localsOf_eq, hentry]; rfl
      have hmem : b ∈ p.functions := List.mem_of_find?_eq_some hentry
      by_cases hsame : b.symbol.declaration = g.declaration
      · refine ⟨fun l hl => ⟨b, hmem, hsame, hlisted ▸ hl⟩, fun d own howns => ?_⟩
        have hsymbol := howns.symbol_eq htokens hparse hg
        have hown : own = b := eq_of_declaration_eq htokens hparse
          (List.of_mem_zip howns.entry).2 hmem (hsymbol ▸ hsame.symm)
        rw [hlisted, hown]
      · obtain ⟨hnone, hown⟩ := h b hentry hsame
        refine ⟨fun l hl => ?_, fun d own howns => ?_⟩
        · rw [hlisted, hnone] at hl
          cases hl
        · rw [hlisted, hnone, hown d own howns]

end

/-- A function that is used of a package is one of a known package. -/
theorem mem_known_of_imported {use : Ident} {f : FunctionSymbol}
    (h : .imported use f ∈ programDeclarations known members) : ∃ q ∈ known, f ∈ q.functions := by
  rcases List.mem_append.1 h with h | h
  · rcases List.mem_append.1 h with h | h
    · rcases List.mem_append.1 h with h | h
      · rcases List.mem_append.1 h with h | h
        · obtain ⟨reference, -, heq⟩ := List.mem_map.1 h
          cases heq
        · obtain ⟨n, -, hn⟩ := List.mem_flatMap.1 h
          obtain ⟨f', hf, heq⟩ := List.mem_map.1 hn
          obtain ⟨rfl, rfl⟩ := Declaration.imported.inj heq
          unfold importedFunctions at hf
          cases hfind : (packageSymbols known members).find? (·.name == n.name) with
          | none =>
            rw [hfind] at hf
            cases hf
          | some p =>
            rw [hfind] at hf
            exact mem_known_of_packageSymbols (List.mem_of_find?_eq_some hfind) hf
      · obtain ⟨d, -, heq⟩ := List.mem_map.1 h
        cases heq
    · obtain ⟨member, -, heq⟩ := List.mem_filterMap.1 h
      cases member <;> cases heq
  · obtain ⟨d, -, heq⟩ := List.mem_map.1 h
    cases heq

theorem mem_programDeclarations_of_function {d : FunctionDeclaration}
    (h : d ∈ functionDeclarations members) :
    Declaration.function d ∈ programDeclarations known members := by
  have hmember : Declaration.function d ∈ members.filterMap Member.functionDeclaration? :=
    List.mem_filterMap.2 ⟨.function d, mem_functionDeclarations h, rfl⟩
  exact List.mem_append_left _ (List.mem_append_right _ hmember)

/-- A declaration is the first of its name or not. -/
theorem mem_repeats_of_find? {d first : Declaration}
    (hd : d ∈ programDeclarations known members)
    (hfirst : (programDeclarations known members).find? (·.name.name == d.name.name) = some first)
    (hne : first ≠ d) : d ∈ repeats (·.name.name) [] (programDeclarations known members) := by
  let name (d : Declaration) : String := d.name.name
  have hperm : (firsts name [] _ ++ repeats name [] _).Perm (programDeclarations known members) :=
    perm_firsts_repeats [] _
  rcases List.mem_append.1 (hperm.mem_iff.2 hd) with hmem | hmem
  · rw [← find?_firsts List.not_mem_nil] at hfirst
    have hname : first.name.name = d.name.name := by simpa using List.find?_some hfirst
    exact absurd (List.inj_on_of_nodup_map (nodup_names_firsts _ _)
      (List.mem_of_find?_eq_some hfirst) hmem hname) hne
  · exact hmem

/-- If the first entry with the fingerprint of a function has its name but another declaration, then
the function has no body in this program, and the entry's own declaration did not win the name. -/
theorem entry_of_same_name {g : FunctionSymbol}
    (hg : .function g ∈ (bindProgram known last members).symbols) {b : BoundFunction}
    (hb : (bindProgram known last members).listed? g = some b)
    (hother : b.symbol.declaration ≠ g.declaration) (hname : b.symbol.name = g.name) :
    (g.isExternal = true ∨ ∃ q ∈ known, g ∈ q.functions) ∧
      ∃ d, (d, b) ∈ (functionDeclarations members).zip (bindProgram known last members).functions ∧
        ⟨.alreadyDeclared d.name.name, d.name.span⟩ ∈ (bindProgram known last members).errors := by
  obtain ⟨m, -, -, hfirst, hmakes⟩ := exists_made hg
  -- A function with a body that wins its name is the first entry of that name.
  have hbodiless (d : FunctionDeclaration) : m.declaration ≠ .function d := by
    intro hd
    rw [hd] at hfirst
    obtain ⟨own, hown, hsymbol⟩ := find?_functions_of_first hg hfirst
    have hsame := eq_of_find? hb hown (beq_iff_eq.2 hname) (beq_iff_eq.2 (congrArg _ hsymbol))
    exact hother (congrArg FunctionSymbol.declaration (hsame ▸ hsymbol))
  constructor
  · cases hdeclaration : m.declaration with
    | imported use f =>
      rw [hdeclaration] at hmakes hfirst
      obtain rfl := Symbol.function.inj hmakes
      exact .inr (mem_known_of_imported (List.mem_of_find?_eq_some hfirst))
    | external d =>
      rw [hdeclaration] at hmakes
      obtain ⟨f, hf, hdeclares⟩ := hmakes
      obtain rfl := Symbol.function.inj hf
      exact .inl hdeclares.isExternal
    | function d => exact absurd hdeclaration (hbodiless d)
    | package span name =>
      rw [hdeclaration] at hmakes
      cases hmakes
    | struct d =>
      rw [hdeclaration] at hmakes
      obtain ⟨fields, -, hf⟩ := hmakes
      cases hf
    | «variable» d =>
      rw [hdeclaration] at hmakes
      obtain ⟨site, -, -, hf⟩ := hmakes
      cases hf
    | parameter p =>
      rw [hdeclaration] at hmakes
      exact hmakes.elim
  · obtain ⟨d, hpair⟩ := exists_zip_of_mem functions_declares (List.mem_of_find?_eq_some hb)
    have hdname : g.name = d.name.name :=
      hname.symm.trans (List.forall₂_zip functions_declares hpair).name
    rw [hdname] at hfirst
    exact ⟨d, hpair, mem_errors_of_mem_repeats known last members (d := .function d)
      (mem_repeats_of_find? (mem_programDeclarations_of_function (List.of_mem_zip hpair).1) hfirst
        (hbodiless d))⟩

/-- What the dump lists below a function are the symbols of the first entry with its fingerprint.
They are the function's own unless that entry has another declaration, and it or the function's own
entry has symbols. Such an entry has another name, or it belongs to a declaration that did not win
its name from a function without a body. -/
theorem symbolOutline_function {file : Nat} {hashComments : Bool} {source : String}
    {tokens : List Token} (htokens : tokenize file hashComments source = .ok tokens)
    (hparse : parseProgram tokens = .ok members) {g : FunctionSymbol}
    (hg : .function g ∈ (bindProgram known last members).symbols) :
    let p := bindProgram known last members
    p.symbolOutline (.function g) = .node (Symbol.function g).kind.label (Symbol.function g).detail
        ((p.localsOf g).map fun l => .leaf l.kind.label l.detail) ∧
      (ListsOwn known last members g ↔
        ∀ b, p.listed? g = some b → b.symbol.declaration ≠ g.declaration →
          b.locals = [] ∧ ∀ d own, FunctionDeclaration.Owns known last members d own g →
            own.locals = []) ∧
      ∀ b, p.listed? g = some b → b.symbol.declaration ≠ g.declaration →
        b.symbol.name ≠ g.name ∨
          (g.isExternal = true ∨ ∃ q ∈ known, g ∈ q.functions) ∧
            ∃ d, (d, b) ∈ (functionDeclarations members).zip p.functions ∧
              ⟨.alreadyDeclared d.name.name, d.name.span⟩ ∈ p.errors := by
  intro p
  refine ⟨rfl, listsOwn_iff htokens hparse hg, ?_⟩
  intro b hb hother
  by_cases hname : b.symbol.name = g.name
  · exact .inr (entry_of_same_name hg hb hother hname)
  · exact .inl hname

theorem symbolOutline_function_parameter :
    ∃ tokens members g v,
      tokenize 0 true "fn f(a int)\x7b\x7d" = .ok tokens ∧ parseProgram tokens = .ok members ∧
      .function g ∈ (bindProgram [] 0 members).symbols ∧
      (bindProgram [] 0 members).localsOf g = [.parameter v] ∧ ListsOwn [] 0 members g := by
  let tokens : List Token :=
    [⟨.keyword .fnWord, "fn", none, ⟨0, 0, 2, 1, 1, 1, 3⟩, true⟩,
      ⟨.identifier, "f", none, ⟨0, 3, 4, 1, 4, 1, 5⟩, false⟩,
      ⟨.sign .lparen, "(", none, ⟨0, 4, 5, 1, 5, 1, 6⟩, false⟩,
      ⟨.identifier, "a", none, ⟨0, 5, 6, 1, 6, 1, 7⟩, true⟩,
      ⟨.identifier, "int", none, ⟨0, 7, 10, 1, 8, 1, 11⟩, false⟩,
      ⟨.sign .rparen, ")", none, ⟨0, 10, 11, 1, 11, 1, 12⟩, false⟩,
      ⟨.sign .lbrace, "\x7b", none, ⟨0, 11, 12, 1, 12, 1, 13⟩, false⟩,
      ⟨.sign .rbrace, "\x7d", none, ⟨0, 12, 13, 1, 13, 1, 14⟩, true⟩,
      Token.ending ⟨0, 13, 13, 1, 14, 1, 14⟩]
  let int : TypeClause := ⟨none, ⟨"int", ⟨0, 7, 10, 1, 8, 1, 11⟩⟩, [], none⟩
  let f : FunctionDeclaration :=
    { visibility := none
      keyword := ⟨0, 0, 2, 1, 1, 1, 3⟩
      name := ⟨"f", ⟨0, 3, 4, 1, 4, 1, 5⟩⟩
      parameters := [⟨⟨"a", ⟨0, 5, 6, 1, 6, 1, 7⟩⟩, int⟩]
      returnType := none
      body := ⟨⟨0, 11, 12, 1, 12, 1, 13⟩, [], ⟨0, 12, 13, 1, 13, 1, 14⟩⟩ }
  let v : Variable := ⟨"a", false, .builtin "int", 6, some ⟨0, 5, 6, 1, 6, 1, 7⟩⟩
  let g : FunctionSymbol :=
    { name := "f", parameters := [v], returnType := .builtin "void"
      declaration := some ⟨0, 0, 13, 1, 1, 1, 14⟩ }
  have htokens : tokenize 0 true "fn f(a int)\x7b\x7d" = .ok tokens := by decide +kernel
  have hmembers : parseProgram tokens = .ok [.function f] := by
    dsimp only [tokens, f, int]
    cbv
  have hsymbols : (bindProgram [] 0 [.function f]).symbols = [.function g] := rfl
  have hg : .function g ∈ (bindProgram [] 0 [.function f]).symbols :=
    hsymbols ▸ List.mem_singleton_self _
  have hentry : ((bindProgram [] 0 [.function f]).listed? g).map (·.symbol.declaration) =
      some g.declaration := by decide +kernel
  refine ⟨tokens, [.function f], g, v, htokens, hmembers, hg, rfl, ?_⟩
  refine (symbolOutline_function htokens hmembers hg).2.1.2 fun b hb hother => ?_
  rw [hb] at hentry
  exact absurd (Option.some.inj hentry) hother

/-- A function that is declared without a body has nothing of its own, but below it the parameter of
the function of the same kind is listed that did not win the name. -/
theorem external_lists_rejected :
    ∃ tokens members g v,
      tokenize 0 true "external fn f(a int) fn f(a int)\x7b\x7d" = .ok tokens ∧
      parseProgram tokens = .ok members ∧
      .function g ∈ (bindProgram [] 0 members).symbols ∧
      (bindProgram [] 0 members).localsOf g = [.parameter v] ∧
      (∀ b ∈ (bindProgram [] 0 members).functions, b.symbol.declaration ≠ g.declaration) ∧
      ¬ ListsOwn [] 0 members g := by
  let tokens : List Token :=
    [⟨.keyword .externalWord, "external", none, ⟨0, 0, 8, 1, 1, 1, 9⟩, true⟩,
      ⟨.keyword .fnWord, "fn", none, ⟨0, 9, 11, 1, 10, 1, 12⟩, true⟩,
      ⟨.identifier, "f", none, ⟨0, 12, 13, 1, 13, 1, 14⟩, false⟩,
      ⟨.sign .lparen, "(", none, ⟨0, 13, 14, 1, 14, 1, 15⟩, false⟩,
      ⟨.identifier, "a", none, ⟨0, 14, 15, 1, 15, 1, 16⟩, true⟩,
      ⟨.identifier, "int", none, ⟨0, 16, 19, 1, 17, 1, 20⟩, false⟩,
      ⟨.sign .rparen, ")", none, ⟨0, 19, 20, 1, 20, 1, 21⟩, true⟩,
      ⟨.keyword .fnWord, "fn", none, ⟨0, 21, 23, 1, 22, 1, 24⟩, true⟩,
      ⟨.identifier, "f", none, ⟨0, 24, 25, 1, 25, 1, 26⟩, false⟩,
      ⟨.sign .lparen, "(", none, ⟨0, 25, 26, 1, 26, 1, 27⟩, false⟩,
      ⟨.identifier, "a", none, ⟨0, 26, 27, 1, 27, 1, 28⟩, true⟩,
      ⟨.identifier, "int", none, ⟨0, 28, 31, 1, 29, 1, 32⟩, false⟩,
      ⟨.sign .rparen, ")", none, ⟨0, 31, 32, 1, 32, 1, 33⟩, false⟩,
      ⟨.sign .lbrace, "\x7b", none, ⟨0, 32, 33, 1, 33, 1, 34⟩, false⟩,
      ⟨.sign .rbrace, "\x7d", none, ⟨0, 33, 34, 1, 34, 1, 35⟩, true⟩,
      Token.ending ⟨0, 34, 34, 1, 35, 1, 35⟩]
  let outer : TypeClause := ⟨none, ⟨"int", ⟨0, 16, 19, 1, 17, 1, 20⟩⟩, [], none⟩
  let int : TypeClause := ⟨none, ⟨"int", ⟨0, 28, 31, 1, 29, 1, 32⟩⟩, [], none⟩
  let e : ExternalDeclaration :=
    { keyword := ⟨0, 0, 8, 1, 1, 1, 9⟩
      name := ⟨"f", ⟨0, 12, 13, 1, 13, 1, 14⟩⟩
      parameters := [⟨⟨"a", ⟨0, 14, 15, 1, 15, 1, 16⟩⟩, outer⟩]
      closing := ⟨0, 19, 20, 1, 20, 1, 21⟩
      returnType := none }
  let f : FunctionDeclaration :=
    { visibility := none
      keyword := ⟨0, 21, 23, 1, 22, 1, 24⟩
      name := ⟨"f", ⟨0, 24, 25, 1, 25, 1, 26⟩⟩
      parameters := [⟨⟨"a", ⟨0, 26, 27, 1, 27, 1, 28⟩⟩, int⟩]
      returnType := none
      body := ⟨⟨0, 32, 33, 1, 33, 1, 34⟩, [], ⟨0, 33, 34, 1, 34, 1, 35⟩⟩ }
  let declared : Variable := ⟨"a", false, .builtin "int", 6, some ⟨0, 14, 15, 1, 15, 1, 16⟩⟩
  let v : Variable := ⟨"a", false, .builtin "int", 7, some ⟨0, 26, 27, 1, 27, 1, 28⟩⟩
  let g : FunctionSymbol :=
    { name := "f", parameters := [declared], returnType := .builtin "void"
      declaration := some ⟨0, 0, 20, 1, 1, 1, 21⟩, isExternal := true, isPublic := true }
  have htokens : tokenize 0 true "external fn f(a int) fn f(a int)\x7b\x7d" = .ok tokens := by
    decide +kernel
  have hmembers : parseProgram tokens = .ok [.external e, .function f] := by
    dsimp only [tokens, e, f, outer, int]
    cbv
  have hother : ∀ b ∈ (bindProgram [] 0 [.external e, .function f]).functions,
      b.symbol.declaration ≠ g.declaration := by decide +kernel
  have hsymbols : (bindProgram [] 0 [.external e, .function f]).symbols = [.function g] := rfl
  have hlisted : (bindProgram [] 0 [.external e, .function f]).localsOf g = [.parameter v] := rfl
  refine ⟨tokens, [.external e, .function f], g, v, htokens, hmembers,
    hsymbols ▸ List.mem_singleton_self _, hlisted, hother, fun h => ?_⟩
  obtain ⟨b, hb, hdeclaration, -⟩ := h.belongs (.parameter v) (hlisted ▸ List.mem_singleton_self _)
  exact hother b hb hdeclaration

end

end TodLang
