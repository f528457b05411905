import TodLang.Proofs.Grammar.Legible
import TodLang.Proofs.Symbol.Fingerprint
import TodLang.Tree.Outline
/-!
What the text of an outline tells of it. A line tells its depth by its indentation, and its label
since no label begins with another. A detail goes up to the end of the line; that of a literal may
have line feeds in it, and ends where the literal does. So a text without colours is the text of no
two outlines that are dumped (`render_injective`).
-/

namespace TodLang

namespace Outline

/-- What holds of an outline as soon as it holds of all outlines below its line holds of all. -/
@[elab_as_elim]
theorem induction {holds : Outline → Prop}
    (node : ∀ label detail lines, (∀ o ∈ lines, holds o) → holds (.node label detail lines)) :
    ∀ o, holds o
  | .node label detail lines => node label detail lines fun o _ => induction node o

/-- The labels of the lines of a dump. -/
def labels : List String :=
  ["Global Statement", "Function Declaration", "External Function Declaration",
   "Struct Declaration", "Package Reference", "Package Use", "Block Statement",
   "Variable Declaration", "If Statement", "Return Statement", "For Statement",
   "While Statement", "Break Statement", "Continue Statement", "Expression Statement",
   "Else Clause", "Parameter", "Type Clause", "Literal Expression", "Parenthesized Expression",
   "Name Expression", "Assignment Expression", "Call Expression", "PackageCall Expression",
   "TypeCall Expression", "Unary Expression", "Binary Expression", "VariableEditor Expression",
   "FieldAccess Expression", "FieldAssignment Expression", "ArrayAccess Expression",
   "ArrayAssignment Expression", "Reference Expression", "Dereference Expression",
   "Make Expression", "MakeArray Expression", "MakeStruct Expression", "This Expression",
   "Main Expression"]

theorem labels_prefix_free : ∀ l ∈ labels, ∀ m ∈ labels, l.toList <+: m.toList → l = m := by
  decide +kernel

theorem labels_nodup : labels.Nodup := by
  decide +kernel

/-- The end of a detail can be found: it stands on one line, or it is a literal. -/
def Delimited (label detail : String) : Prop :=
  if label = "Literal Expression" then ∃ t : Token, t.Legible false ∧ t.literal = detail
  else '\n' ∉ detail.toList

/-- An outline with lines of a dump. -/
inductive Plain : Outline → Prop
  | node {label detail : String} {children : List Outline} (hlabel : label ∈ labels)
      (hdetail : Delimited label detail) (hchildren : ∀ o ∈ children, Plain o) :
      Plain (.node label detail children)

/-! ### Texts as lists of characters -/

/-- What stands behind the label of a line, with a text behind the line. -/
def lineEnd (detail : String) (rest : List Char) : List Char :=
  if detail = "" then '\n' :: rest else ' ' :: (detail.toList ++ '\n' :: rest)

theorem toList_line_append (depth : Nat) (label detail : String) (rest : List Char) :
    (line false depth label detail).toList ++ rest =
      List.replicate (2 * depth) ' ' ++ '-' :: ' ' :: (label.toList ++ lineEnd detail rest) := by
  by_cases hdetail : detail = ""
  · simp [line, lineEnd, hdetail]
  · simp [line, lineEnd, hdetail]

/-- The text of outlines with another text behind it. -/
def textBefore (depth : Nat) (outlines : List Outline) (rest : List Char) : List Char :=
  (render false depth outlines).toList ++ rest

@[simp] theorem textBefore_nil (depth : Nat) (rest : List Char) :
    textBefore depth [] rest = rest := by
  simp [textBefore, render, linesOfAll, String.join]

theorem textBefore_cons (depth : Nat) (label detail : String) (children others : List Outline)
    (rest : List Char) :
    textBefore depth (.node label detail children :: others) rest =
      List.replicate (2 * depth) ' ' ++ '-' :: ' ' :: (label.toList ++
        lineEnd detail (textBefore (depth + 1) children (textBefore depth others rest))) := by
  rw [← toList_line_append]
  simp [textBefore, render, linesOfAll, lines]
/-! ### Reading a text back -/

/-- A label is told by what begins with it. -/
theorem label_inj {label label' : String} (hlabel : label ∈ labels) (hlabel' : label' ∈ labels)
    {rest rest' : List Char} (h : label.toList ++ rest = label'.toList ++ rest') :
    label = label' ∧ rest = rest' := by
  have hfirst : label.toList <+: label.toList ++ rest := List.prefix_append _ _
  have hsecond : label'.toList <+: label.toList ++ rest := ⟨rest', h.symm⟩
  have hsame : label = label' := by
    rcases List.prefix_or_prefix_of_prefix hfirst hsecond with hle | hle
    · exact labels_prefix_free label hlabel label' hlabel' hle
    · exact (labels_prefix_free label' hlabel' label hlabel hle).symm
  subst hsame
  exact ⟨rfl, List.append_cancel_left h⟩

/-- Behind a literal, the end of the line is found by reading the literal. -/
theorem literal_inj {t u : Token} (ht : t.Legible false) (hu : u.Legible false)
    {rest rest' : List Char}
    (h : t.literal.toList ++ '\n' :: rest = u.literal.toList ++ '\n' :: rest') :
    t.bare = u.bare ∧ rest = rest' := by
  have hblank : ∀ behind, StartsBlank ('\n' :: behind) := fun _ => rfl
  obtain ⟨c, tail, htext, hread⟩ := ht.read (hblank rest)
  obtain ⟨c', tail', htext', hread'⟩ := hu.read (hblank rest')
  rw [htext, htext', List.cons_append, List.cons_append] at h
  obtain ⟨rfl, htails⟩ := List.cons.inj h
  rw [htails, hread', Except.ok.injEq, Prod.mk.injEq, Piece.lexeme.injEq] at hread
  obtain ⟨⟨hkind, hvalue, hsame⟩, hrest⟩ := hread
  have hliteral : t.literal = u.literal := String.toList_injective (by rw [htext, htext', hsame])
  refine ⟨?_, (List.cons.inj hrest).2.symm⟩
  simp [Token.bare, hkind, hvalue, hliteral]

theorem lineEnd_inj {label detail detail' : String} (hdetail : Delimited label detail)
    (hdetail' : Delimited label detail') {rest rest' : List Char}
    (h : lineEnd detail rest = lineEnd detail' rest') : detail = detail' ∧ rest = rest' := by
  unfold lineEnd at h
  split at h
  · next hempty =>
    split at h
    · next hempty' => exact ⟨hempty.trans hempty'.symm, (List.cons.inj h).2⟩
    · cases h
  · split at h
    · cases h
    · obtain ⟨-, h⟩ := List.cons.inj h
      unfold Delimited at hdetail hdetail'
      split at hdetail
      · next hlabel =>
        rw [if_pos hlabel] at hdetail'
        obtain ⟨t, ht, rfl⟩ := hdetail
        obtain ⟨u, hu, rfl⟩ := hdetail'
        obtain ⟨hbare, hrest⟩ := literal_inj ht hu h
        exact ⟨Token.literal_eq_of_bare_eq hbare, hrest⟩
      · next hlabel =>
        rw [if_neg hlabel] at hdetail'
        obtain ⟨hsame, hrest⟩ := append_cons_inj_of_notMem hdetail hdetail' h
        exact ⟨String.toList_injective hsame, hrest⟩

/-- A text that ends, or goes on with a line of a smaller depth. -/
def Shallow (depth : Nat) (text : List Char) : Prop :=
  text = [] ∨ ∃ less more, less < depth ∧ text = List.replicate (2 * less) ' ' ++ '-' :: more

theorem Shallow.succ {depth : Nat} {text : List Char} (h : Shallow depth text) :
    Shallow (depth + 1) text := by
  rcases h with h | ⟨less, more, hless, h⟩
  · exact .inl h
  · exact .inr ⟨less, more, by omega, h⟩

/-- Indentation tells a depth. -/
theorem indent_inj {depth depth' : Nat} {rest rest' : List Char}
    (h : List.replicate (2 * depth) ' ' ++ '-' :: rest =
      List.replicate (2 * depth') ' ' ++ '-' :: rest') : depth = depth' ∧ rest = rest' := by
  obtain ⟨hindent, hrest⟩ := append_cons_inj_of_notMem (by simp) (by simp) h
  have hlength := congrArg List.length hindent
  simp only [List.length_replicate] at hlength
  exact ⟨by omega, hrest⟩

/-- A text that ends or goes on at a smaller depth does not begin with a line. -/
theorem Shallow.ne_textBefore {depth : Nat} {text rest : List Char} (h : Shallow depth text)
    (o : Outline) (others : List Outline) : text ≠ textBefore depth (o :: others) rest := by
  rintro rfl
  cases o with
  | node label detail children =>
    rw [textBefore_cons] at h
    rcases h with h | ⟨less, more, hless, h⟩
    · simp at h
    · obtain ⟨rfl, -⟩ := indent_inj h
      exact Nat.lt_irrefl _ hless

theorem shallow_textBefore {depth : Nat} {rest : List Char} (hrest : Shallow depth rest)
    (outlines : List Outline) : Shallow (depth + 1) (textBefore depth outlines rest) := by
  cases outlines with
  | nil => simpa using hrest.succ
  | cons o others =>
    cases o with
    | node label detail children =>
      rw [textBefore_cons]
      exact .inr ⟨depth, _, Nat.lt_succ_self depth, rfl⟩

/-- Outlines with lines of a dump are told by their text, if what follows is of a smaller depth. -/
theorem textBefore_inj : ∀ {outlines outlines' : List Outline} {depth : Nat}
    {rest rest' : List Char}, (∀ o ∈ outlines, o.Plain) → (∀ o ∈ outlines', o.Plain) →
      Shallow depth rest → Shallow depth rest' →
      textBefore depth outlines rest = textBefore depth outlines' rest' →
      outlines = outlines' ∧ rest = rest'
  | [], [], depth, rest, rest', _, _, _, _, h => by simpa using h
  | [], o :: others, depth, rest, rest', _, _, hrest, _, h => by
    rw [textBefore_nil] at h
    exact absurd h (hrest.ne_textBefore o others)
  | o :: others, [], depth, rest, rest', _, _, _, hrest', h => by
    rw [textBefore_nil] at h
    exact absurd h.symm (hrest'.ne_textBefore o others)
  | .node label detail children :: others, .node label' detail' children' :: others',
      depth, rest, rest', hplain, hplain', hrest, hrest', h => by
    obtain ⟨hfirst, hothers⟩ := List.forall_mem_cons.1 hplain
    obtain ⟨hfirst', hothers'⟩ := List.forall_mem_cons.1 hplain'
    obtain ⟨hlabel, hdetail, hchildren⟩ := hfirst
    obtain ⟨hlabel', hdetail', hchildren'⟩ := hfirst'
    rw [textBefore_cons, textBefore_cons] at h
    obtain ⟨-, hline⟩ := indent_inj h
    obtain ⟨rfl, hends⟩ := label_inj hlabel hlabel' (List.cons.inj hline).2
    obtain ⟨rfl, hbelow⟩ := lineEnd_inj hdetail hdetail' hends
    -- The lines below this one are deeper than what comes behind them.
    obtain ⟨rfl, hbehind⟩ := textBefore_inj hchildren hchildren'
      (shallow_textBefore hrest others) (shallow_textBefore hrest' others') hbelow
    obtain ⟨rfl, hrests⟩ := textBefore_inj hothers hothers' hrest hrest' hbehind
    exact ⟨rfl, hrests⟩

/-- Without colours, outlines with lines of a dump have the same text only if they are the same. -/
theorem render_injective {outlines outlines' : List Outline} (hplain : ∀ o ∈ outlines, o.Plain)
    (hplain' : ∀ o ∈ outlines', o.Plain)
    (h : render false 0 outlines = render false 0 outlines') : outlines = outlines' := by
  have htext : textBefore 0 outlines [] = textBefore 0 outlines' [] := by
    rw [textBefore, textBefore, h]
  exact (textBefore_inj hplain hplain' (.inl rfl) (.inl rfl) htext).1

end Outline

end TodLang
