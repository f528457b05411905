import Mathlib.Data.List.Forall2
import TodLang.Binding.Program
import TodLang.Grammar.Member
import TodLang.Token.Scan
/-!
What the fingerprint of a symbol tells of it. The fingerprint of a type can be read back from left
to right, whatever follows it, so it tells the type (`Ty.Named.agrees_of_append`). That of a
function does not tell where its name stops and the type of its first parameter begins, since a
name may itself contain the mark of a type. The main result says which symbols have the same
fingerprint: those that agree, and the functions that clash in this way.
-/

namespace TodLang

/-- Whether a text is written like a name of the language. -/
def IsIdentifier (text : String) : Prop :=
  text.toList.head?.any isNameStart = true ∧ text.toList.tail.all isNamePart = true
  deriving Decidable

/-- A mark that is no part of a name is in no name. -/
theorem IsIdentifier.notMem {text : String} (h : IsIdentifier text) {mark : Char}
    (hmark : isNamePart mark = false) : mark ∉ text.toList := by
  rcases h with ⟨hstart, hrest⟩
  intro hmem
  have hpart : isNamePart mark = true := by
    cases htext : text.toList with
    | nil => simp [htext] at hmem
    | cons c rest =>
      rw [htext] at hmem hstart hrest
      rcases List.mem_cons.1 hmem with rfl | hmem
      · have hfirst : isNameStart mark = true := hstart
        rcases Bool.or_eq_true_iff.1 hfirst with hletter | hline
        · simp [isNamePart, hletter]
        · simp [isNamePart, hline]
      · exact List.all_eq_true.1 hrest mark hmem
  rw [hmark] at hpart
  cases hpart

/-- Two texts can be told apart from what follows them if neither has a mark in it and a mark
follows each. -/
theorem append_cons_inj {α : Type} {isMark : α → Prop} {front front' back back' : List α}
    {mark mark' : α} (hfront : ∀ c ∈ front, ¬ isMark c) (hfront' : ∀ c ∈ front', ¬ isMark c)
    (hmark : isMark mark) (hmark' : isMark mark')
    (h : front ++ mark :: back = front' ++ mark' :: back') :
    front = front' ∧ mark = mark' ∧ back = back' := by
  induction front generalizing front' with
  | nil =>
    cases front' with
    | nil => simpa using h
    | cons d rest =>
      obtain ⟨rfl, -⟩ := List.cons.inj h
      exact absurd hmark (hfront' mark List.mem_cons_self)
  | cons c others ih =>
    cases front' with
    | nil =>
      obtain ⟨rfl, -⟩ := List.cons.inj h
      exact absurd hmark' (hfront c List.mem_cons_self)
    | cons d rest =>
      obtain ⟨rfl, hrest⟩ := List.cons.inj h
      obtain ⟨rfl, hmarks⟩ := ih (fun c hc => hfront c (List.mem_cons_of_mem _ hc))
        (fun c hc => hfront' c (List.mem_cons_of_mem _ hc)) hrest
      exact ⟨rfl, hmarks⟩

theorem append_cons_inj_of_notMem {α : Type} {front front' back back' : List α} {mark : α}
    (hfront : mark ∉ front) (hfront' : mark ∉ front')
    (h : front ++ mark :: back = front' ++ mark :: back') : front = front' ∧ back = back' := by
  have hnone : ∀ l : List α, mark ∉ l → ∀ c ∈ l, ¬ c = mark := by
    rintro l hl c hc rfl
    exact hl hc
  obtain ⟨hfronts, -, hbacks⟩ := append_cons_inj (hnone front hfront)
    (hnone front' hfront') rfl rfl h
  exact ⟨hfronts, hbacks⟩

/-- Texts one behind the other, each of which begins with the same letter and can be read back, can
be read back up to another letter. -/
theorem forall₂_of_flatMap_append {α : Type} {code : α → List Char} {Same : α → α → Prop}
    {first stop : Char} (hstop : stop ≠ first) (hfirst : ∀ a, (code a).head? = some first)
    {as bs : List α} {back back' : List Char}
    (hread : ∀ a ∈ as, ∀ b ∈ bs, ∀ rest rest', code a ++ rest = code b ++ rest' →
      Same a b ∧ rest = rest')
    (h : as.flatMap code ++ stop :: back = bs.flatMap code ++ stop :: back') :
    List.Forall₂ Same as bs ∧ back = back' := by
  -- A text that begins with its first letter does not begin with the letter that stops.
  have hclash : ∀ (a : α) (rest others : List Char), stop :: others ≠ code a ++ rest := by
    intro a rest others heq
    have hhead := congrArg List.head? heq
    rw [List.head?_append, hfirst a] at hhead
    exact hstop (Option.some.inj hhead)
  induction as generalizing bs with
  | nil =>
    cases bs with
    | nil => exact ⟨.nil, (List.cons.inj h).2⟩
    | cons b others =>
      rw [List.flatMap_cons, List.append_assoc] at h
      exact absurd h (hclash b _ back)
  | cons a others ih =>
    cases bs with
    | nil =>
      rw [List.flatMap_cons, List.append_assoc] at h
      exact absurd h.symm (hclash a _ back')
    | cons b rest =>
      rw [List.flatMap_cons, List.flatMap_cons, List.append_assoc, List.append_assoc] at h
      obtain ⟨hsame, hrest⟩ := hread a List.mem_cons_self b List.mem_cons_self _ _ h
      obtain ⟨hothers, hback⟩ := ih (fun c hc d hd =>
        hread c (List.mem_cons_of_mem _ hc) d (List.mem_cons_of_mem _ hd)) hrest
      exact ⟨.cons hsame hothers, hback⟩

theorem map_eq_of_forall₂ {α β γ : Type} {Same : α → β → Prop} {f : α → γ} {g : β → γ}
    {as : List α} {bs : List β} (h : List.Forall₂ Same as bs)
    (heq : ∀ a ∈ as, ∀ b, Same a b → f a = g b) : as.map f = bs.map g := by
  induction h with
  | nil => rfl
  | @cons a b others rest hab _ ih =>
    have hothers := ih fun c hc => heq c (List.mem_cons_of_mem a hc)
    rw [List.map_cons, List.map_cons, heq a List.mem_cons_self b hab, hothers]

/-- A name with its package tells the name and the package. -/
theorem qualified_inj {package package' : Option String} {name name' : String}
    (hname : IsIdentifier name) (hname' : IsIdentifier name')
    (hpackage : ∀ p ∈ package, IsIdentifier p) (hpackage' : ∀ p ∈ package', IsIdentifier p)
    (h : qualified package name = qualified package' name') :
    package = package' ∧ name = name' := by
  have hcolon : isNamePart ':' = false := by decide
  cases package with
  | none =>
    cases package' with
    | none => exact ⟨rfl, h⟩
    | some p =>
      have h : name = p ++ "::" ++ name' := h
      have hmem : ':' ∈ name.toList := by simp [h]
      exact absurd hmem (hname.notMem hcolon)
  | some p =>
    cases package' with
    | none =>
      have h : p ++ "::" ++ name = name' := h
      have hmem : ':' ∈ name'.toList := by simp [← h]
      exact absurd hmem (hname'.notMem hcolon)
    | some p' =>
      have h := congrArg String.toList (show p ++ "::" ++ name = p' ++ "::" ++ name' from h)
      simp only [String.toList_append, List.append_assoc] at h
      have hp := (hpackage p rfl).notMem hcolon
      have hp' := (hpackage' p' rfl).notMem hcolon
      obtain ⟨hp, hname⟩ := append_cons_inj_of_notMem hp hp' h
      rw [String.toList_inj] at hp
      exact ⟨congrArg some hp, String.toList_inj.1 (List.cons.inj hname).2⟩

namespace Ty

/-- Whether all names in a type are written like names of the language. -/
inductive Named : Ty → Prop
  | intro {t : Ty} (hname : IsIdentifier t.name) (hpackage : ∀ p ∈ t.package, IsIdentifier p)
      (harguments : ∀ u ∈ t.arguments, Named u) : Named t

theorem Named.arguments {t : Ty} (h : t.Named) : ∀ u ∈ t.arguments, u.Named := by
  cases h with
  | intro _ _ harguments => exact harguments

/-- Two types agree if they have one name and one package, both or none of them are objects, and
the types that they are made from agree one by one. -/
inductive Agrees : Ty → Ty → Prop
  | intro {t u : Ty} (hobject : t.isObject = u.isObject) (hpackage : t.package = u.package)
      (hname : t.name = u.name) (harguments : List.Forall₂ Agrees t.arguments u.arguments) :
      Agrees t u

/-- What the fingerprint of a type begins with, up to the types that it is made from. -/
def opening (t : Ty) : String :=
  (if t.isObject then "TO_" else "T_") ++ qualified t.package t.name

theorem fingerprints_toList (ts : List Ty) :
    (fingerprints ts).toList = ts.flatMap fun t => t.fingerprint.toList ++ [';'] := by
  induction ts with
  | nil => rfl
  | cons t others ih => simp [fingerprints, ih]

theorem fingerprint_append (t : Ty) (back : List Char) :
    t.fingerprint.toList ++ back = (t.opening.toList ++ ['_']) ++ '[' ::
      ((t.arguments.flatMap fun u => u.fingerprint.toList ++ [';']) ++ ']' :: back) := by
  cases t
  simp [fingerprint, opening, fingerprints_toList]

theorem opening_head? (t : Ty) : t.opening.toList.head? = some 'T' := by
  unfold opening
  split <;> simp

theorem fingerprint_head? (t : Ty) : t.fingerprint.toList.head? = some 'T' := by
  rw [← List.append_nil t.fingerprint.toList, fingerprint_append, List.append_assoc,
    List.head?_append, opening_head?, Option.some_or]

theorem Named.opening_notMem {t : Ty} (h : t.Named) {mark : Char} (hmark : isNamePart mark = false)
    (hcolon : mark ≠ ':') : mark ∉ t.opening.toList := by
  cases h with
  | intro hname hpackage _ =>
    have hline : mark ≠ '_' ∧ mark ≠ 'T' ∧ mark ≠ 'O' := by
      refine ⟨?_, ?_, ?_⟩ <;> rintro rfl <;> exact absurd hmark (by decide)
    have hname := hname.notMem hmark
    unfold opening qualified
    split <;> split
    · next p hp =>
      have hp := (hpackage p hp).notMem hmark
      simp [hline, hname, hp, hcolon]
    · simp [hline, hname]
    · next p hp =>
      have hp := (hpackage p hp).notMem hmark
      simp [hline, hname, hp, hcolon]
    · simp [hline, hname]

/-- The beginning of a fingerprint tells all of a type but the types that it is made from. -/
theorem Named.opening_inj {t u : Ty} (ht : t.Named) (hu : u.Named) (h : t.opening = u.opening) :
    t.isObject = u.isObject ∧ t.package = u.package ∧ t.name = u.name := by
  cases ht with
  | intro hname hpackage _ =>
  cases hu with
  | intro hname' hpackage' _ =>
    have hobject : t.isObject = u.isObject := by
      have hletters := congrArg String.toList h
      unfold opening at hletters
      cases ht : t.isObject <;> cases hu : u.isObject <;> simp [ht, hu] at hletters ⊢
    unfold opening at h
    rw [hobject, String.append_right_inj] at h
    exact ⟨hobject, qualified_inj hname hname' hpackage hpackage' h⟩

/-- Types with a semicolon behind each can be read back up to a bracket, if each of them can. -/
theorem agrees_of_flatMap_append {ts us : List Ty} {back back' : List Char}
    (hread : ∀ t ∈ ts, ∀ u ∈ us, ∀ rest rest',
      t.fingerprint.toList ++ rest = u.fingerprint.toList ++ rest' → t.Agrees u ∧ rest = rest')
    (h : (ts.flatMap fun t => t.fingerprint.toList ++ [';']) ++ ']' :: back =
      (us.flatMap fun u => u.fingerprint.toList ++ [';']) ++ ']' :: back') :
    List.Forall₂ Agrees ts us ∧ back = back' := by
  have hhead : ∀ t : Ty, (t.fingerprint.toList ++ [';']).head? = some 'T' := by
    intro t
    rw [List.head?_append, fingerprint_head?, Option.some_or]
  have hmembers : ∀ t ∈ ts, ∀ u ∈ us, ∀ rest rest',
      (t.fingerprint.toList ++ [';']) ++ rest = (u.fingerprint.toList ++ [';']) ++ rest' →
        t.Agrees u ∧ rest = rest' := by
    intro t ht u hu rest rest' heq
    rw [List.append_assoc, List.append_assoc] at heq
    obtain ⟨hagree, hrest⟩ := hread t ht u hu _ _ heq
    exact ⟨hagree, (List.cons.inj hrest).2⟩
  exact forall₂_of_flatMap_append (by decide) hhead hmembers h

/-- The fingerprint of a type can be read back, whatever follows it. -/
theorem Named.agrees_of_append {t u : Ty} (ht : t.Named) (hu : u.Named) {back back' : List Char}
    (h : t.fingerprint.toList ++ back = u.fingerprint.toList ++ back') :
    t.Agrees u ∧ back = back' := by
  induction ht generalizing u back back' with
  | @intro t hname hpackage harguments ih =>
    have ht : t.Named := .intro hname hpackage harguments
    have hbracket : isNamePart '[' = false := by decide
    have hopen : '[' ∉ t.opening.toList ++ ['_'] := by
      simp [ht.opening_notMem hbracket (by decide)]
    have hopen' : '[' ∉ u.opening.toList ++ ['_'] := by
      simp [hu.opening_notMem hbracket (by decide)]
    rw [fingerprint_append, fingerprint_append] at h
    obtain ⟨hopening, hrest⟩ := append_cons_inj_of_notMem hopen hopen' h
    rw [List.append_cancel_right_eq, String.toList_inj] at hopening
    obtain ⟨hobject, hpackages, hnames⟩ := ht.opening_inj hu hopening
    obtain ⟨hagree, hback⟩ := agrees_of_flatMap_append
      (fun a ha b hb _ _ heq => ih a ha (hu.arguments b hb) heq) hrest
    exact ⟨.intro hobject hpackages hnames hagree, hback⟩

/-- Types that agree have one fingerprint. -/
theorem Named.fingerprint_eq {t u : Ty} (ht : t.Named) (h : t.Agrees u) :
    t.fingerprint = u.fingerprint := by
  induction ht generalizing u with
  | @intro t _ _ _ ih =>
    cases h with
    | intro hobject hpackage hname harguments =>
      have hopening : t.opening = u.opening := by
        rw [opening, opening, hobject, hpackage, hname]
      have hfingerprints := map_eq_of_forall₂ harguments fun a ha b hab => ih a ha hab
      have hletters := congrArg (List.flatMap fun text => text.toList ++ [';']) hfingerprints
      rw [List.flatMap_map, List.flatMap_map] at hletters
      rw [← String.toList_inj, ← List.append_nil t.fingerprint.toList,
        ← List.append_nil u.fingerprint.toList, fingerprint_append, fingerprint_append, hopening,
        hletters]

end Ty

namespace FunctionSymbol

/-- The types of a function's parameters. -/
def parameterTypes (f : FunctionSymbol) : List Ty :=
  f.parameters.map Variable.type

/-- Whether all names in what a function's fingerprint is made from are written like names of the
language. -/
structure Named (f : FunctionSymbol) : Prop where
  name : IsIdentifier f.name
  parameters : ∀ t ∈ f.parameterTypes, t.Named
  returnType : f.returnType.Named

/-- Two functions agree if they have one name and their signatures agree. -/
structure Agrees (f g : FunctionSymbol) : Prop where
  name : f.name = g.name
  parameters : List.Forall₂ Ty.Agrees f.parameterTypes g.parameterTypes
  returnType : f.returnType.Agrees g.returnType

/-- Two functions of different names clash if their names, each with the beginning of the first
parameter's type behind it, are one text, and the signatures agree in all that comes after. -/
inductive Clashes (f g : FunctionSymbol) : Prop
  | intro {t u : Ty} {ts us : List Ty} (hnames : f.name ≠ g.name)
      (hfirst : f.parameterTypes = t :: ts) (hfirst' : g.parameterTypes = u :: us)
      (hopening : f.name ++ "_" ++ t.opening = g.name ++ "_" ++ u.opening)
      (harguments : List.Forall₂ Ty.Agrees t.arguments u.arguments)
      (hothers : List.Forall₂ Ty.Agrees ts us) (hreturn : f.returnType.Agrees g.returnType)

theorem fingerprint_toList (f : FunctionSymbol) :
    f.fingerprint.toList = 'F' :: '_' :: (f.name.toList ++ '_' ::
      ((f.parameterTypes.flatMap fun t => t.fingerprint.toList) ++ '-' :: '>' ::
        f.returnType.fingerprint.toList)) := by
  simp [fingerprint, parameterTypes, List.flatMap_map, String.toList_join]

theorem fingerprint_toList_nil {f : FunctionSymbol} (h : f.parameterTypes = []) :
    f.fingerprint.toList = 'F' :: '_' :: ((f.name.toList ++ ['_']) ++
      '-' :: '>' :: f.returnType.fingerprint.toList) := by
  simp [fingerprint_toList, h]

/-- With parameters, the first bracket is the one of the first parameter's type. -/
theorem fingerprint_toList_cons {f : FunctionSymbol} {t : Ty} {ts : List Ty}
    (h : f.parameterTypes = t :: ts) :
    f.fingerprint.toList = 'F' :: '_' :: (((f.name ++ "_" ++ t.opening).toList ++ ['_']) ++ '[' ::
      ((t.arguments.flatMap fun u => u.fingerprint.toList ++ [';']) ++ ']' ::
        ((ts.flatMap fun u => u.fingerprint.toList) ++ '-' :: '>' ::
          f.returnType.fingerprint.toList))) := by
  rw [fingerprint_toList, h, List.flatMap_cons, List.append_assoc, Ty.fingerprint_append]
  simp

/-- The parameters and the type that a function gives back can be read back. -/
theorem agrees_of_signature {ts us : List Ty} {t u : Ty} (hts : ∀ t ∈ ts, t.Named)
    (hus : ∀ u ∈ us, u.Named) (ht : t.Named) (hu : u.Named)
    (h : (ts.flatMap fun t => t.fingerprint.toList) ++ '-' :: '>' :: t.fingerprint.toList =
      (us.flatMap fun u => u.fingerprint.toList) ++ '-' :: '>' :: u.fingerprint.toList) :
    List.Forall₂ Ty.Agrees ts us ∧ t.Agrees u := by
  have hread : ∀ a ∈ ts, ∀ b ∈ us, ∀ rest rest',
      a.fingerprint.toList ++ rest = b.fingerprint.toList ++ rest' →
        a.Agrees b ∧ rest = rest' := by
    intro a ha b hb rest rest' heq
    exact (hts a ha).agrees_of_append (hus b hb) heq
  obtain ⟨hparameters, hreturn⟩ :=
    forall₂_of_flatMap_append (by decide) Ty.fingerprint_head? hread h
  have hreturn := congrArg (· ++ []) (List.cons.inj hreturn).2
  exact ⟨hparameters, (ht.agrees_of_append hu hreturn).1⟩

/-- Up to the first bracket or arrow, a fingerprint has nothing but a name and the beginning of a
type. -/
theorem Named.not_mark {f : FunctionSymbol} (hf : f.Named) :
    (∀ c ∈ f.name.toList ++ ['_'], ¬ (c = '[' ∨ c = '-')) ∧
      ∀ t ∈ f.parameterTypes, ∀ c ∈ (f.name ++ "_" ++ t.opening).toList ++ ['_'],
        ¬ (c = '[' ∨ c = '-') := by
  have hbracket : isNamePart '[' = false := by decide
  have harrow : isNamePart '-' = false := by decide
  have hname := hf.name.notMem hbracket
  have hname' := hf.name.notMem harrow
  constructor
  · rintro c hc (rfl | rfl) <;> simp [hname, hname'] at hc
  · intro t ht c hc
    have hopening := (hf.parameters t ht).opening_notMem hbracket (by decide)
    have hopening' := (hf.parameters t ht).opening_notMem harrow (by decide)
    rintro (rfl | rfl) <;> simp [hname, hname', hopening, hopening'] at hc

/-- Functions with parameters and with one fingerprint agree, or clash if their names differ. -/
theorem Named.agrees_or_clashes_of_cons {f g : FunctionSymbol} (hf : f.Named) (hg : g.Named)
    {t u : Ty} {ts us : List Ty} (hts : f.parameterTypes = t :: ts)
    (hus : g.parameterTypes = u :: us) (h : f.fingerprint = g.fingerprint) :
    f.Agrees g ∨ f.Clashes g := by
  have hfront := hf.not_mark.2
  have hback := hg.not_mark.2
  have hnamed := hf.parameters
  have hnamed' := hg.parameters
  rw [hts] at hfront hnamed
  rw [hus] at hback hnamed'
  have ht : t.Named := hnamed t List.mem_cons_self
  have hu : u.Named := hnamed' u List.mem_cons_self
  have hletters := congrArg String.toList h
  rw [fingerprint_toList_cons hts, fingerprint_toList_cons hus] at hletters
  have hletters := (List.cons.inj (List.cons.inj hletters).2).2
  obtain ⟨hfirst, -, hrest⟩ := append_cons_inj (hfront t List.mem_cons_self)
    (hback u List.mem_cons_self) (.inl rfl) (.inl rfl) hletters
  rw [List.append_cancel_right_eq, String.toList_inj] at hfirst
  obtain ⟨harguments, hrest⟩ := Ty.agrees_of_flatMap_append
    (fun a ha b hb _ _ heq => (ht.arguments a ha).agrees_of_append (hu.arguments b hb) heq) hrest
  obtain ⟨hothers, hreturn⟩ := agrees_of_signature
    (fun a ha => hnamed a (List.mem_cons_of_mem t ha))
    (fun b hb => hnamed' b (List.mem_cons_of_mem u hb)) hf.returnType hg.returnType hrest
  by_cases hnames : f.name = g.name
  · rw [hnames, String.append_right_inj] at hfirst
    obtain ⟨hobject, hpackage, hname⟩ := ht.opening_inj hu hfirst
    have hparameters : List.Forall₂ Ty.Agrees f.parameterTypes g.parameterTypes := by
      rw [hts, hus]
      exact .cons (.intro hobject hpackage hname harguments) hothers
    exact .inl ⟨hnames, hparameters, hreturn⟩
  · exact .inr (.intro hnames hts hus hfirst harguments hothers hreturn)

/-- With parameters the first mark is a bracket, without any it is the arrow. -/
theorem Named.fingerprint_ne {f g : FunctionSymbol} (hf : f.Named) (hg : g.Named)
    (hts : f.parameterTypes = []) {u : Ty} {us : List Ty} (hus : g.parameterTypes = u :: us) :
    f.fingerprint ≠ g.fingerprint := by
  intro h
  have hu := hg.not_mark.2 u (by rw [hus]; exact List.mem_cons_self)
  have hletters := congrArg String.toList h
  rw [fingerprint_toList_nil hts, fingerprint_toList_cons hus] at hletters
  have hletters := (List.cons.inj (List.cons.inj hletters).2).2
  obtain ⟨-, hmark, -⟩ := append_cons_inj hf.not_mark.1 hu (.inr rfl) (.inl rfl) hletters
  exact absurd hmark (by decide)

/-- Functions without parameters agree if they have one fingerprint. -/
theorem Named.agrees_of_nil {f g : FunctionSymbol} (hf : f.Named) (hg : g.Named)
    (hts : f.parameterTypes = []) (hus : g.parameterTypes = [])
    (h : f.fingerprint = g.fingerprint) : f.Agrees g := by
  have hletters := congrArg String.toList h
  rw [fingerprint_toList_nil hts, fingerprint_toList_nil hus] at hletters
  have hletters := (List.cons.inj (List.cons.inj hletters).2).2
  obtain ⟨hnames, -, hreturn⟩ :=
    append_cons_inj hf.not_mark.1 hg.not_mark.1 (.inr rfl) (.inr rfl) hletters
  rw [List.append_cancel_right_eq, String.toList_inj] at hnames
  have hreturn := congrArg (· ++ []) (List.cons.inj hreturn).2
  have hparameters : List.Forall₂ Ty.Agrees f.parameterTypes g.parameterTypes := by
    rw [hts, hus]
    exact .nil
  exact ⟨hnames, hparameters, (hf.returnType.agrees_of_append hg.returnType hreturn).1⟩

/-- Functions with one fingerprint agree or clash. -/
theorem Named.agrees_or_clashes {f g : FunctionSymbol} (hf : f.Named) (hg : g.Named)
    (h : f.fingerprint = g.fingerprint) : f.Agrees g ∨ f.Clashes g := by
  cases hts : f.parameterTypes with
  | nil =>
    cases hus : g.parameterTypes with
    | nil => exact .inl (hf.agrees_of_nil hg hts hus h)
    | cons u us => exact absurd h (hf.fingerprint_ne hg hts hus)
  | cons t ts =>
    cases hus : g.parameterTypes with
    | nil => exact absurd h.symm (hg.fingerprint_ne hf hus hts)
    | cons u us => exact hf.agrees_or_clashes_of_cons hg hts hus h

/-- If two functions clash, the name of one is that of the other with the mark of a type behind
it. -/
theorem Clashes.name_extends {f g : FunctionSymbol} (h : f.Clashes g) :
    ∃ rest, f.name.toList = g.name.toList ++ '_' :: 'T' :: rest ∨
      g.name.toList = f.name.toList ++ '_' :: 'T' :: rest := by
  -- What is left of the longer name begins where the shorter one is followed by a type.
  have hmark : ∀ (rest : List Char) (t u : Ty), rest ≠ [] →
      '_' :: t.opening.toList = rest ++ '_' :: u.opening.toList →
        ∃ others, rest = '_' :: 'T' :: others := by
    intro rest t u hrest heq
    cases rest with
    | nil => exact absurd rfl hrest
    | cons c others =>
      obtain ⟨rfl, htail⟩ := List.cons.inj heq
      have hhead := t.opening_head?
      rw [htail] at hhead
      cases others with
      | nil => simp at hhead
      | cons d others =>
        obtain rfl : d = 'T' := by simpa using hhead
        exact ⟨others, rfl⟩
  cases h with
  | @intro t u _ _ hnames _ _ hopening _ _ _ =>
    have hletters := congrArg String.toList hopening
    simp only [String.toList_append, List.append_assoc] at hletters
    rcases List.append_eq_append_iff.1 hletters with ⟨rest, hname, heq⟩ | ⟨rest, hname, heq⟩
    · have hrest : rest ≠ [] := by
        rintro rfl
        exact hnames (String.toList_inj.1 (by simp [hname]))
      obtain ⟨others, rfl⟩ := hmark rest t u hrest heq
      exact ⟨others, .inr hname⟩
    · have hrest : rest ≠ [] := by
        rintro rfl
        exact hnames (String.toList_inj.1 (by simp [hname]))
      obtain ⟨others, rfl⟩ := hmark rest u t hrest heq
      exact ⟨others, .inl hname⟩

/-- Functions that agree have one fingerprint. -/
theorem Named.fingerprint_eq {f g : FunctionSymbol} (hf : f.Named) (h : f.Agrees g) :
    f.fingerprint = g.fingerprint := by
  have hreturn := hf.returnType.fingerprint_eq h.returnType
  have hparameters := map_eq_of_forall₂ h.parameters fun t ht u htu =>
    (hf.parameters t ht).fingerprint_eq htu
  have hletters := congrArg (List.flatMap String.toList) hparameters
  rw [List.flatMap_map, List.flatMap_map] at hletters
  rw [← String.toList_inj, fingerprint_toList, fingerprint_toList, h.name, hreturn, hletters]

/-- Functions that clash have one fingerprint. -/
theorem Named.fingerprint_eq_of_clashes {f g : FunctionSymbol} (hf : f.Named) (h : f.Clashes g) :
    f.fingerprint = g.fingerprint := by
  cases h with
  | @intro t u ts us _ hts hus hopening harguments hothers hreturn =>
    have ht := hf.parameters
    rw [hts] at ht
    have hreturn := hf.returnType.fingerprint_eq hreturn
    have harguments := map_eq_of_forall₂ harguments fun a ha b hab =>
      ((ht t List.mem_cons_self).arguments a ha).fingerprint_eq hab
    have hothers := map_eq_of_forall₂ hothers fun a ha b hab =>
      (ht a (List.mem_cons_of_mem t ha)).fingerprint_eq hab
    have harguments := congrArg (List.flatMap fun text => text.toList ++ [';']) harguments
    have hothers := congrArg (List.flatMap String.toList) hothers
    rw [List.flatMap_map, List.flatMap_map] at harguments hothers
    rw [← String.toList_inj, fingerprint_toList_cons hts, fingerprint_toList_cons hus, hopening,
      harguments, hothers, hreturn]

end FunctionSymbol

namespace Symbol

/-- Whether all names in what a symbol's fingerprint is made from are written like names of the
language. -/
def Named : Symbol → Prop
  | function f => f.Named
  | type t => t.Named
  | other => IsIdentifier other.name

/-- A function of one parameter that gives nothing back is named if three names are written like
names of the language. -/
theorem Named.ofPlain {f : FunctionSymbol} {v : Variable} (hparameters : f.parameters = [v])
    (hnames : IsIdentifier f.name ∧ IsIdentifier v.type.name ∧ v.type.package = none ∧
      v.type.arguments.length = 0)
    (hreturn : f.returnType = .void) : Named (.function f) := by
  rcases hnames with ⟨hname, htype, hpackage, harguments⟩
  refine ⟨hname, ?_, ?_⟩
  · intro t ht
    simp only [FunctionSymbol.parameterTypes, hparameters, List.map_cons, List.map_nil,
      List.mem_singleton] at ht
    rw [ht]
    exact .intro htype (by simp [hpackage]) (by simp [List.length_eq_zero_iff.1 harguments])
  · rw [hreturn]
    exact .intro (by decide) (by simp [Ty.void, Ty.builtin]) (by simp [Ty.void, Ty.builtin])

/-- Two symbols agree if they are of one kind and have one name, and what else their fingerprints
are made from agrees: the signatures of functions, the types, the numbers of variables. -/
inductive Agrees : Symbol → Symbol → Prop
  | function {f g : FunctionSymbol} (h : f.Agrees g) : Agrees (.function f) (.function g)
  | struct {s t : StructSymbol} (hname : s.name = t.name) : Agrees (.struct s) (.struct t)
  | type {t u : Ty} (h : t.Agrees u) : Agrees (.type t) (.type u)
  | package {p q : PackageSymbol} (hname : p.name = q.name) : Agrees (.package p) (.package q)
  | globalVariable {v w : Variable} (hname : v.name = w.name) (hid : v.id = w.id) :
      Agrees (.globalVariable v) (.globalVariable w)
  | localVariable {v w : Variable} (hname : v.name = w.name) (hid : v.id = w.id) :
      Agrees (.localVariable v) (.localVariable w)
  | parameter {v w : Variable} (hname : v.name = w.name) (hid : v.id = w.id) :
      Agrees (.parameter v) (.parameter w)

/-- Only functions clash. -/
inductive Clashes : Symbol → Symbol → Prop
  | function {f g : FunctionSymbol} (h : f.Clashes g) : Clashes (.function f) (.function g)

/-- The kind of the symbol whose fingerprint has given letters. -/
def kindOfLetters : List Char → SymbolKind
  | 'F' :: _ => .function
  | 'S' :: _ => .struct
  | 'T' :: _ => .type
  | 'P' :: 'R' :: _ => .parameter
  | 'P' :: _ => .package
  | 'G' :: _ => .globalVariable
  | _ => .localVariable

/-- The first letters of a fingerprint tell the kind of its symbol. -/
theorem kind_eq_kindOfLetters (s : Symbol) : s.kind = kindOfLetters s.fingerprint.toList := by
  cases s with
  | function f => simp [fingerprint, FunctionSymbol.fingerprint_toList, kindOfLetters, kind]
  | type t =>
    have hhead := t.fingerprint_head?
    cases hletters : t.fingerprint.toList with
    | nil => simp [hletters] at hhead
    | cons c others =>
      have hfirst : c = 'T' := by simpa [hletters] using hhead
      simp [fingerprint, hletters, hfirst, kindOfLetters, kind]
  | struct s => simp [fingerprint, StructSymbol.fingerprint, kindOfLetters, kind]
  | package p => simp [fingerprint, PackageSymbol.fingerprint, kindOfLetters, kind]
  | globalVariable v | localVariable v | parameter v => simp [fingerprint, kindOfLetters, kind]

/-- A name with a number behind it tells both, although the name may itself end in a number. -/
theorem numbered_inj {label name name' : String} {n n' : Nat}
    (h : label ++ name ++ "_" ++ toString n = label ++ name' ++ "_" ++ toString n') :
    name = name' ∧ n = n' := by
  have hline : ∀ m : Nat, '_' ∉ (Nat.toDigits 10 m).reverse := by
    intro m hmem
    have hdigit := Nat.isDigit_of_mem_toDigits (by decide) (by decide) (List.mem_reverse.1 hmem)
    exact absurd hdigit (by decide)
  have hletters := congrArg (fun text : String => text.toList.reverse) h
  simp only [String.toList_append, List.reverse_append, List.append_assoc, Nat.toString_eq_repr,
    Nat.toList_repr] at hletters
  -- From behind, the number stops at the first line.
  obtain ⟨hdigits, -⟩ := append_cons_inj_of_notMem (hline n) (hline n') hletters
  have hnumber : n = n' := by
    have hread := congrArg (Nat.ofDigitChars 10 · 0) (List.reverse_inj.1 hdigits)
    simpa only [Nat.ofDigitChars_ten_toDigits] using hread
  rw [hnumber, String.append_left_inj, String.append_left_inj, String.append_right_inj] at h
  exact ⟨h, hnumber⟩

/-- Two symbols with one fingerprint agree, or they are functions that clash. -/
theorem Named.agrees_or_clashes {s t : Symbol} (hs : s.Named) (ht : t.Named)
    (h : s.fingerprint = t.fingerprint) : s.Agrees t ∨ s.Clashes t := by
  have hkind : s.kind = t.kind := by
    rw [kind_eq_kindOfLetters, kind_eq_kindOfLetters, h]
  cases s with
  | function f =>
    cases t with
    | function g => exact (FunctionSymbol.Named.agrees_or_clashes hs ht h).imp .function .function
    | _ => cases hkind
  | struct a =>
    cases t with
    | struct b =>
      have hname : "S_" ++ a.name ++ "_" = "S_" ++ b.name ++ "_" := h
      rw [String.append_left_inj, String.append_right_inj] at hname
      exact .inl (.struct hname)
    | _ => cases hkind
  | type a =>
    cases t with
    | type b =>
      have hletters := congrArg (fun text : String => text.toList ++ []) h
      exact .inl (.type (Ty.Named.agrees_of_append hs ht hletters).1)
    | _ => cases hkind
  | package p =>
    cases t with
    | package q =>
      have hname : "P_" ++ p.name ++ "_" = "P_" ++ q.name ++ "_" := h
      rw [String.append_left_inj, String.append_right_inj] at hname
      exact .inl (.package hname)
    | _ => cases hkind
  | globalVariable v =>
    cases t with
    | globalVariable w =>
      obtain ⟨hname, hid⟩ := numbered_inj h
      exact .inl (.globalVariable hname hid)
    | _ => cases hkind
  | localVariable v =>
    cases t with
    | localVariable w =>
      obtain ⟨hname, hid⟩ := numbered_inj h
      exact .inl (.localVariable hname hid)
    | _ => cases hkind
  | parameter v =>
    cases t with
    | parameter w =>
      obtain ⟨hname, hid⟩ := numbered_inj h
      exact .inl (.parameter hname hid)
    | _ => cases hkind

/-- Symbols that agree have one fingerprint. -/
theorem Named.fingerprint_eq {s t : Symbol} (hs : s.Named) (h : s.Agrees t) :
    s.fingerprint = t.fingerprint := by
  cases h with
  | function h => exact FunctionSymbol.Named.fingerprint_eq hs h
  | struct hname => simp [fingerprint, StructSymbol.fingerprint, hname]
  | type h => exact Ty.Named.fingerprint_eq hs h
  | package hname => simp [fingerprint, PackageSymbol.fingerprint, hname]
  | globalVariable hname hid => simp [fingerprint, hname, hid]
  | localVariable hname hid => simp [fingerprint, hname, hid]
  | parameter hname hid => simp [fingerprint, hname, hid]

/-- Two symbols whose names are names of the language have one fingerprint if they agree, and else
only if they are functions that clash. -/
theorem fingerprint_eq_iff {s t : Symbol} (hs : s.Named) (ht : t.Named) :
    s.fingerprint = t.fingerprint ↔ s.Agrees t ∨ s.Clashes t := by
  constructor
  · exact hs.agrees_or_clashes ht
  · rintro (h | h)
    · exact hs.fingerprint_eq h
    · cases h with
      | function h => exact FunctionSymbol.Named.fingerprint_eq_of_clashes hs h

/-- The functions `f_T_a`, of a type `x`, and `f`, of a type `a_T_x`, clash. -/
theorem fingerprint_eq_iff_mark :
    ∃ s t : Symbol, s.Named ∧ t.Named ∧ s.name = "f_T_a" ∧ t.name = "f" ∧
      (s.fingerprint = t.fingerprint ↔ s.Agrees t ∨ s.Clashes t) := by
  let taking (name type : String) : FunctionSymbol :=
    { name
      parameters := [⟨"p", false, ⟨type, [], false, true, none, some type⟩, 1, none⟩]
      returnType := .void }
  have hs : Named (.function (taking "f_T_a" "x")) := .ofPlain rfl (by decide) rfl
  have ht : Named (.function (taking "f" "a_T_x")) := .ofPlain rfl (by decide) rfl
  exact ⟨_, _, hs, ht, rfl, rfl, fingerprint_eq_iff hs ht⟩

/-- Two functions of one program that have different names and one fingerprint. -/
theorem not_fingerprint_injective :
    ∃ tokens members, ∃ s ∈ (bindProgram [] 0 members).symbols,
      ∃ t ∈ (bindProgram [] 0 members).symbols,
        tokenize 0 true
          "struct x \x7b\x7d struct a_T_x \x7b\x7d fn f_T_a(p x) \x7b\x7d fn f(p a_T_x) \x7b\x7d" =
          .ok tokens ∧
        parseProgram tokens = .ok members ∧ s.Named ∧ t.Named ∧ s.kind = .function ∧
        t.kind = .function ∧ s.name = "f_T_a" ∧ t.name = "f" ∧ s.fingerprint = t.fingerprint := by
  let tokens : List Token :=
    [⟨.keyword .structWord, "struct", none, ⟨0, 0, 6, 1, 1, 1, 7⟩, true⟩,
      ⟨.identifier, "x", none, ⟨0, 7, 8, 1, 8, 1, 9⟩, true⟩,
      ⟨.sign .lbrace, "\x7b", none, ⟨0, 9, 10, 1, 10, 1, 11⟩, false⟩,
      ⟨.sign .rbrace, "\x7d", none, ⟨0, 10, 11, 1, 11, 1, 12⟩, true⟩,
      ⟨.keyword .structWord, "struct", none, ⟨0, 12, 18, 1, 13, 1, 19⟩, true⟩,
      ⟨.identifier, "a_T_x", none, ⟨0, 19, 24, 1, 20, 1, 25⟩, true⟩,
      ⟨.sign .lbrace, "\x7b", none, ⟨0, 25, 26, 1, 26, 1, 27⟩, false⟩,
      ⟨.sign .rbrace, "\x7d", none, ⟨0, 26, 27, 1, 27, 1, 28⟩, true⟩,
      ⟨.keyword .fnWord, "fn", none, ⟨0, 28, 30, 1, 29, 1, 31⟩, true⟩,
      ⟨.identifier, "f_T_a", none, ⟨0, 31, 36, 1, 32, 1, 37⟩, false⟩,
      ⟨.sign .lparen, "(", none, ⟨0, 36, 37, 1, 37, 1, 38⟩, false⟩,
      ⟨.identifier, "p", none, ⟨0, 37, 38, 1, 38, 1, 39⟩, true⟩,
      ⟨.identifier, "x", none, ⟨0, 39, 40, 1, 40, 1, 41⟩, false⟩,
      ⟨.sign .rparen, ")", none, ⟨0, 40, 41, 1, 41, 1, 42⟩, true⟩,
      ⟨.sign .lbrace, "\x7b", none, ⟨0, 42, 43, 1, 43, 1, 44⟩, false⟩,
      ⟨.sign .rbrace, "\x7d", none, ⟨0, 43, 44, 1, 44, 1, 45⟩, true⟩,
      ⟨.keyword .fnWord, "fn", none, ⟨0, 45, 47, 1, 46, 1, 48⟩, true⟩,
      ⟨.identifier, "f", none, ⟨0, 48, 49, 1, 49, 1, 50⟩, false⟩,
      ⟨.sign .lparen, "(", none, ⟨0, 49, 50, 1, 50, 1, 51⟩, false⟩,
      ⟨.identifier, "p", none, ⟨0, 50, 51, 1, 51, 1, 52⟩, true⟩,
      ⟨.identifier, "a_T_x", none, ⟨0, 52, 57, 1, 53, 1, 58⟩, false⟩,
      ⟨.sign .rparen, ")", none, ⟨0, 57, 58, 1, 58, 1, 59⟩, true⟩,
      ⟨.sign .lbrace, "\x7b", none, ⟨0, 59, 60, 1, 60, 1, 61⟩, false⟩,
      ⟨.sign .rbrace, "\x7d", none, ⟨0, 60, 61, 1, 61, 1, 62⟩, true⟩,
      Token.ending ⟨0, 61, 61, 1, 62, 1, 62⟩]
  let function (name parameter type : Ident) (keyword opening closing : Span) : Member :=
    .function
      { visibility := none
        keyword
        name
        parameters := [⟨parameter, ⟨none, type, [], none⟩⟩]
        returnType := none
        body := ⟨opening, [], closing⟩ }
  let members : List Member :=
    [.struct ⟨⟨0, 0, 6, 1, 1, 1, 7⟩, ⟨"x", ⟨0, 7, 8, 1, 8, 1, 9⟩⟩, [], ⟨0, 10, 11, 1, 11, 1, 12⟩⟩,
      .struct ⟨⟨0, 12, 18, 1, 13, 1, 19⟩, ⟨"a_T_x", ⟨0, 19, 24, 1, 20, 1, 25⟩⟩, [],
        ⟨0, 26, 27, 1, 27, 1, 28⟩⟩,
      function ⟨"f_T_a", ⟨0, 31, 36, 1, 32, 1, 37⟩⟩ ⟨"p", ⟨0, 37, 38, 1, 38, 1, 39⟩⟩
        ⟨"x", ⟨0, 39, 40, 1, 40, 1, 41⟩⟩ ⟨0, 28, 30, 1, 29, 1, 31⟩ ⟨0, 42, 43, 1, 43, 1, 44⟩
        ⟨0, 43, 44, 1, 44, 1, 45⟩,
      function ⟨"f", ⟨0, 48, 49, 1, 49, 1, 50⟩⟩ ⟨"p", ⟨0, 50, 51, 1, 51, 1, 52⟩⟩
        ⟨"a_T_x", ⟨0, 52, 57, 1, 53, 1, 58⟩⟩ ⟨0, 45, 47, 1, 46, 1, 48⟩ ⟨0, 59, 60, 1, 60, 1, 61⟩
        ⟨0, 60, 61, 1, 61, 1, 62⟩]
  let taking (name type : String) (id : Nat) (region place : Span) : FunctionSymbol :=
    { name
      parameters := [⟨"p", false, ⟨type, [], false, true, none, some type⟩, id, some place⟩]
      returnType := .void
      declaration := some region }
  let f := taking "f_T_a" "x" 6 ⟨0, 28, 44, 1, 29, 1, 45⟩ ⟨0, 37, 38, 1, 38, 1, 39⟩
  let g := taking "f" "a_T_x" 7 ⟨0, 45, 61, 1, 46, 1, 62⟩ ⟨0, 50, 51, 1, 51, 1, 52⟩
  have htokens : tokenize 0 true
      "struct x \x7b\x7d struct a_T_x \x7b\x7d fn f_T_a(p x) \x7b\x7d fn f(p a_T_x) \x7b\x7d" =
        .ok tokens := by
    decide +kernel
  have hparse : parseProgram tokens = .ok members := by
    dsimp only [tokens, members, function]
    cbv
  have hf : (bindProgram [] 0 members).symbols[2]? = some (.function f) := by
    dsimp only [members, function, f, taking]
    cbv
  have hg : (bindProgram [] 0 members).symbols[1]? = some (.function g) := by
    dsimp only [members, function, g, taking]
    cbv
  have hfnamed : Named (.function f) := .ofPlain rfl (by decide) rfl
  have hgnamed : Named (.function g) := .ofPlain rfl (by decide) rfl
  exact ⟨tokens, members, _, List.mem_of_getElem? hf, _, List.mem_of_getElem? hg, htokens, hparse,
    hfnamed, hgnamed, rfl, rfl, rfl, rfl, by decide +kernel⟩

end Symbol

end TodLang
