import TodLang.Proofs.Grammar.Soundness
import TodLang.Proofs.Token.Tiling
import TodLang.Proofs.Tree.Node
/-!
Where the regions of a syntax tree lie. The tokens of a source stand in order without overlap, and
a node lies where its tokens do, so the region of a node contains the regions of the nodes directly
below it. There is one exception: the region of a cast starts at the name of its type, and leaves
out the package that may stand before it. The main result is `spans_nest_iff`.
-/

namespace TodLang

/-! ### Runs of tokens -/

/-- The tokens stand in order between two offsets, and none of them is empty. -/
def Run (first last : Nat) : List Token → Prop
  | [] => first ≤ last
  | t :: others => first ≤ t.span.start ∧ t.span.start < t.span.stop ∧ Run t.span.stop last others

/-- A region that is not empty lies between two offsets. -/
abbrev Span.Lies (first last : Nat) (s : Span) : Prop :=
  first ≤ s.start ∧ s.start < s.stop ∧ s.stop ≤ last

theorem Span.Lies.mono {first last low high : Nat} {s : Span} (h : s.Lies first last)
    (hlow : low ≤ first) (hhigh : last ≤ high) : s.Lies low high :=
  ⟨Nat.le_trans hlow h.1, h.2.1, Nat.le_trans h.2.2 hhigh⟩

section

variable {first last : Nat} {tokens : List Token}

theorem Run.le (h : Run first last tokens) : first ≤ last := by
  induction tokens generalizing first with
  | nil => exact h
  | cons t others ih =>
    obtain ⟨hstart, hlt, hothers⟩ := h
    have := ih hothers
    omega

/-- A run can be cut anywhere. -/
theorem Run.split {front back : List Token} (h : Run first last (front ++ back)) :
    ∃ middle, Run first middle front ∧ Run middle last back ∧ first ≤ middle ∧ middle ≤ last := by
  induction front generalizing first with
  | nil => exact ⟨first, Nat.le_refl first, h, Nat.le_refl first, h.le⟩
  | cons t others ih =>
    obtain ⟨hstart, hlt, hothers⟩ := h
    obtain ⟨middle, hfront, hback, hle, hlast⟩ := ih hothers
    exact ⟨middle, ⟨hstart, hlt, hfront⟩, hback, by omega, hlast⟩

theorem Run.lies {t : Token} (h : Run first last [t]) : t.span.Lies first last := h

theorem Marks.lies {kind : TokenKind} {span : Span} (h : Marks kind span tokens)
    (hrun : Run first last tokens) : span.Lies first last := by
  cases h with
  | token _ => exact hrun.lies

theorem NameSpelling.lies {name : Ident} (h : NameSpelling name tokens)
    (hrun : Run first last tokens) : name.span.Lies first last := by
  cases h with
  | token _ => exact hrun.lies

theorem OperatorSpelling.lies {operator : Operator} (h : OperatorSpelling operator tokens)
    (hrun : Run first last tokens) : operator.span.Lies first last := by
  cases h with
  | token _ => exact hrun.lies

end

/-- The tokens of a source, up to the end mark, are a run over it. -/
theorem Laid.run {file : Nat} {hash : Bool} {front rest : List Char} {tokens : List Token}
    (h : Laid file hash front rest tokens) :
    Run (String.utf8Len front) (String.utf8Len (front ++ rest)) (beforeEnding tokens) := by
  induction h with
  | ending _ => simp [beforeEnding, Token.ending, Token.isEnding, Run, String.utf8Len_append]
  | @lexeme front gap text back t others _ hne hkind _ hspan _ _ ih =>
    obtain ⟨hstart, hstop⟩ := between_advance_bounds file (front ++ gap) text
    have hpos : 0 < String.utf8Len text := by
      rw [Nat.pos_iff_ne_zero]
      exact fun hzero => hne (String.utf8Len_eq_zero.1 hzero)
    have hbefore : beforeEnding (t :: others) = t :: beforeEnding others := by
      simp [beforeEnding, hkind]
    rw [hbefore, Run, hspan, hstart, hstop, ← String.utf8Len_append]
    refine ⟨by simp [String.utf8Len_append], by simp [String.utf8Len_append, hpos], ?_⟩
    simpa only [List.append_assoc] using ih

/-! ### Nodes and where they lie -/

namespace Node

/-- The region of a node contains the regions of the nodes directly below it. -/
def Nests (node : Node) : Prop :=
  ∀ child ∈ node.children, node.span.contains child.span = true

/-- Whether a node is a cast to a type that is written with its package. -/
def isQualifiedCast : Node → Bool
  | expression (.cast c _ _) => c.package.isSome
  | _ => false

/-- Casts to types with a package are those nodes that do not nest. -/
def NestsUnlessCast (node : Node) : Prop :=
  node.Nests ↔ node.isQualifiedCast = false

/-- A node lies between two offsets, and it and all nodes below it nest as they should. -/
def Fits (first last : Nat) (node : Node) : Prop :=
  node.span.Lies first last ∧ node.Everywhere NestsUnlessCast

/-- A node is not outside two offsets, and it and all nodes below it nest as they should. -/
def Inside (first last : Nat) (node : Node) : Prop :=
  first ≤ node.span.start ∧ node.span.stop ≤ last ∧ node.Everywhere NestsUnlessCast

section

variable {first last : Nat} {node : Node}

theorem Fits.mono {low high : Nat} (h : node.Fits first last) (hlow : low ≤ first)
    (hhigh : last ≤ high) : node.Fits low high := by
  obtain ⟨hlies, hbelow⟩ := h
  exact ⟨hlies.mono hlow hhigh, hbelow⟩

theorem Fits.inside {low high : Nat} (h : node.Fits first last) (hlow : low ≤ first)
    (hhigh : last ≤ high) : node.Inside low high := by
  obtain ⟨hlies, hbelow⟩ := h
  exact ⟨by omega, by omega, hbelow⟩

/-- A node that begins with one region and ends with another fits, if the nodes below it lie
between. -/
theorem fits_cover {a b : Span} (ha : a.Lies first last) (hb : b.Lies first last)
    (hspan : node.span = a.cover b) (hcast : node.isQualifiedCast = false)
    (hchildren : ∀ child ∈ node.children, child.Inside a.start b.stop) :
    node.Fits first last := by
  have hstart := Span.cover_start a b
  have hstop := Span.cover_stop a b
  rw [← hspan] at hstart hstop
  refine ⟨by omega, everywhere_iff.2 ⟨?_, fun child hchild => (hchildren child hchild).2.2⟩⟩
  refine iff_of_true ?_ hcast
  intro child hchild
  obtain ⟨hbegin, hend, -⟩ := hchildren child hchild
  rw [Span.contains_iff]
  omega

/-- A node with nothing below it fits where its region lies. -/
theorem fits_leaf (hchildren : node.children = []) (hcast : node.isQualifiedCast = false)
    (h : node.span.Lies first last) : node.Fits first last := by
  refine ⟨h, everywhere_iff.2 ⟨iff_of_true ?_ hcast, ?_⟩⟩
  · simp [Nests, hchildren]
  · simp [hchildren]

/-- A node that is all of the one node below it fits where that node does. -/
theorem fits_same {child : Node} (hchildren : node.children = [child])
    (hspan : node.span = child.span) (hcast : node.isQualifiedCast = false)
    (h : child.Fits first last) : node.Fits first last := by
  obtain ⟨hlies, hbelow⟩ := h
  refine ⟨hspan ▸ hlies, everywhere_iff.2 ⟨iff_of_true ?_ hcast, ?_⟩⟩
  · simp [Nests, hchildren, hspan, Span.contains]
  · simpa [hchildren] using hbelow

end

end Node

/-! ### Written types -/

/-- A name with its package starts before the name, unless there is no package. -/
theorem QualifiedSpelling.lies {package : Option Ident} {name : Ident} {tokens : List Token}
    {first last : Nat} (h : QualifiedSpelling package name tokens) (hrun : Run first last tokens) :
    ((package.map Ident.span).getD name.span).Lies first last ∧ name.span.Lies first last ∧
      ((package.map Ident.span).getD name.span).start ≤ name.span.start ∧
      (name.span.start ≤ ((package.map Ident.span).getD name.span).start ↔
        package.isSome = false) := by
  cases h with
  | plain hname =>
    have hlies := hname.lies hrun
    exact ⟨hlies, hlies, Nat.le_refl _, iff_of_true (Nat.le_refl _) rfl⟩
  | qualified hpackage _ hname =>
    obtain ⟨m₂, hrun, hback, _, _⟩ := hrun.split
    obtain ⟨m₁, hfront, hseparator, _, _⟩ := hrun.split
    have hpackage := hpackage.lies hfront
    have hname := hname.lies hback
    simp only [Option.map_some, Option.getD_some, Option.isSome_some, Bool.true_eq_false,
      iff_false]
    exact ⟨by omega, by omega, by omega, by omega⟩

/-- What fits of a part of a written type. Casts need to know where the name is. -/
def TypePart.Fits (first last : Nat) : TypePart → Prop
  | clause c => (Node.type c).Fits first last ∧ c.name.span.Lies first last ∧
      (c.name.span.start ≤ c.span.start ↔ c.package.isSome = false)
  | clauses cs => ∀ c ∈ cs, (Node.type c).Fits first last

theorem SpellsType.fits {part : TypePart} {tokens : List Token} (h : SpellsType part tokens)
    {first last : Nat} (hrun : Run first last tokens) : part.Fits first last := by
  induction h generalizing first last with
  | plain hname =>
    obtain ⟨hfirst, hname, hle, hpackage⟩ := hname.lies hrun
    refine ⟨Node.fits_cover hfirst hname rfl rfl (by simp [Node.children]), hname, ?_⟩
    simpa only [TypeClause.span, Option.getD_none, Span.cover_start, Nat.min_eq_left hle] using
      hpackage
  | @generic _ _ _ closing _ _ _ _ hname _ _ hclosing ih =>
    obtain ⟨m₃, hrun, hclosed, _, _⟩ := hrun.split
    obtain ⟨m₂, hrun, hinside, _, _⟩ := hrun.split
    obtain ⟨m₁, hfront, _, _, _⟩ := hrun.split
    obtain ⟨hfirst, hname, -, hpackage⟩ := hname.lies hfront
    have hclosing := hclosing.lies hclosed
    have hle := Nat.le_of_lt (Nat.lt_of_lt_of_le hfirst.2.1 (by omega : _ ≤ closing.start))
    refine ⟨Node.fits_cover (hfirst.mono (Nat.le_refl _) (by omega))
      (hclosing.mono (by omega) (Nat.le_refl _)) rfl rfl ?_,
      hname.mono (Nat.le_refl _) (by omega), ?_⟩
    · exact List.forall_mem_map.2 fun c hc => (ih hinside c hc).inside (by omega) (by omega)
    · simpa only [TypeClause.span, Option.getD_some, Span.cover_start, Nat.min_eq_left hle] using
        hpackage
  | last _ ih =>
    intro c hc
    rw [List.mem_singleton.1 hc]
    exact (ih hrun).1
  | more _ _ _ ih ihothers =>
    obtain ⟨m₂, hrun, hback, _, _⟩ := hrun.split
    obtain ⟨m₁, hfront, _, _, _⟩ := hrun.split
    intro c hc
    rcases List.mem_cons.1 hc with rfl | hc
    · exact (ih hfront).1.mono (Nat.le_refl _) (by omega)
    · exact (ihothers hback c hc).mono (by omega) (Nat.le_refl _)

theorem TypeSpelling.fits {c : TypeClause} {tokens : List Token} (h : TypeSpelling c tokens)
    {first last : Nat} (hrun : Run first last tokens) : (Node.type c).Fits first last :=
  (SpellsType.fits h hrun).1

/-! ### Expressions -/

/-- What fits of a part of an expression. -/
def ExpressionPart.Fits (first last : Nat) : ExpressionPart → Prop
  | expression e | operation _ e | operand e | accessed e | primary e | own e =>
    (Node.expression e).Fits first last
  | arguments es => ∀ e ∈ es, (Node.expression e).Fits first last

/-- A cast starts at the name of its type, so its region leaves out a package in front of it. -/
theorem Node.fits_cast {c : TypeClause} {arguments : List Expression} {closing : Span}
    {first m₁ m₂ m₃ last : Nat} (htype : (TypePart.clause c).Fits first m₁) (hle : m₁ ≤ m₂)
    (harguments : ∀ e ∈ arguments, (expression e).Fits m₂ m₃) (hle' : m₂ ≤ m₃)
    (hclosing : closing.Lies m₃ last) :
    (expression (.cast c arguments closing)).Fits first last := by
  obtain ⟨⟨hlies, hbelow⟩, hname, hpackage⟩ := htype
  have hspan : (expression (.cast c arguments closing)).span = c.name.span.cover closing := rfl
  have hstart := Span.cover_start c.name.span closing
  have hstop := Span.cover_stop c.name.span closing
  rw [← hspan] at hstart hstop
  have harguments' : ∀ e ∈ arguments,
      (expression (.cast c arguments closing)).span.contains (expression e).span = true := by
    intro e he
    obtain ⟨hargument, -⟩ := harguments e he
    rw [Span.contains_iff]
    omega
  have htype : (expression (.cast c arguments closing)).span.contains (type c).span = true ↔
      c.package.isSome = false := by
    rw [← hpackage, Span.contains_iff]
    change _ ↔ _ ≤ (type c).span.start
    omega
  refine ⟨by omega, everywhere_iff.2 ⟨?_, List.forall_mem_cons.2 ⟨hbelow,
    List.forall_mem_map.2 fun e he => (harguments e he).2⟩⟩⟩
  refine Iff.trans List.forall_mem_cons (Iff.trans ?_ htype)
  exact and_iff_left (List.forall_mem_map.2 harguments')

/-- What begins with one region, ends with a mark, and has arguments in between. -/
theorem Node.fits_arguments {node : Node} {arguments : List Expression} {a b : Span}
    {first m₁ m₂ m₃ last : Nat} (ha : a.Lies first m₁) (hle : m₁ ≤ m₂)
    (harguments : ∀ e ∈ arguments, (expression e).Fits m₂ m₃) (hle' : m₂ ≤ m₃)
    (hb : b.Lies m₃ last) (hspan : node.span = a.cover b) (hcast : node.isQualifiedCast = false)
    (hchildren : node.children = arguments.map expression) : node.Fits first last := by
  refine fits_cover (ha.mono (Nat.le_refl _) (by omega)) (hb.mono (by omega) (Nat.le_refl _))
    hspan hcast ?_
  rw [hchildren]
  exact List.forall_mem_map.2 fun e he => (harguments e he).inside (by omega) (by omega)

/-- What begins with a keyword, ends with a mark, and has a type and arguments in between. -/
theorem Node.fits_make {node : Node} {c : TypeClause} {arguments : List Expression} {a b : Span}
    {first m₁ m₂ m₃ m₄ last : Nat} (ha : a.Lies first m₁) (htype : (type c).Fits m₁ m₂)
    (hle : m₂ ≤ m₃) (harguments : ∀ e ∈ arguments, (expression e).Fits m₃ m₄) (hle' : m₃ ≤ m₄)
    (hb : b.Lies m₄ last) (hspan : node.span = a.cover b) (hcast : node.isQualifiedCast = false)
    (hchildren : node.children = type c :: arguments.map expression) : node.Fits first last := by
  have hlies := htype.1
  refine fits_cover (ha.mono (Nat.le_refl _) (by omega)) (hb.mono (by omega) (Nat.le_refl _))
    hspan hcast ?_
  rw [hchildren]
  exact List.forall_mem_cons.2 ⟨htype.inside (by omega) (by omega),
    List.forall_mem_map.2 fun e he => (harguments e he).inside (by omega) (by omega)⟩

/-- What begins with one region and ends with the last of the nodes below it. -/
theorem Node.fits_behind {node child : Node} {before : List Node} {a : Span}
    {first m₁ m₂ last : Nat} (ha : a.Lies first m₁) (hle : m₁ ≤ m₂)
    (hbefore : ∀ other ∈ before, other.Fits m₁ m₂) (hchild : child.Fits m₂ last)
    (hspan : node.span = a.cover child.span) (hcast : node.isQualifiedCast = false)
    (hchildren : node.children = before ++ [child]) : node.Fits first last := by
  obtain ⟨hlies, hbelow⟩ := hchild
  refine fits_cover (ha.mono (Nat.le_refl _) (by omega)) (hlies.mono (by omega) (Nat.le_refl _))
    hspan hcast ?_
  rw [hchildren]
  refine List.forall_mem_append.2
    ⟨?_, List.forall_mem_singleton.2 ⟨by omega, Nat.le_refl _, hbelow⟩⟩
  exact fun other hother => (hbefore other hother).inside (by omega) (by omega)

/-- What begins with one region and ends with the one node below it. -/
theorem Node.fits_last {node child : Node} {a : Span} {first m₁ m₂ last : Nat}
    (ha : a.Lies first m₁) (hle : m₁ ≤ m₂) (hchild : child.Fits m₂ last)
    (hspan : node.span = a.cover child.span) (hcast : node.isQualifiedCast = false)
    (hchildren : node.children = [child]) : node.Fits first last :=
  fits_behind ha hle (List.forall_mem_nil _) hchild hspan hcast hchildren

theorem Node.fits_arrayAccess {array index : Expression} {closing : Span}
    {first m₁ m₂ m₃ last : Nat} (harray : (expression array).Fits first m₁) (hle : m₁ ≤ m₂)
    (hindex : (expression index).Fits m₂ m₃) (hle' : m₂ ≤ m₃) (hclosing : closing.Lies m₃ last) :
    (expression (.arrayAccess array index closing)).Fits first last := by
  obtain ⟨harray, hbelow⟩ := harray
  obtain ⟨hindex, hbelow'⟩ := hindex
  refine fits_cover (harray.mono (Nat.le_refl _) (by omega))
    (hclosing.mono (by omega) (Nat.le_refl _)) rfl rfl ?_
  exact List.forall_mem_cons.2 ⟨⟨Nat.le_refl _, by omega, hbelow⟩,
    List.forall_mem_singleton.2 ⟨by omega, by omega, hbelow'⟩⟩

theorem Node.fits_arrayAssignment {array index value : Expression}
    {first m₁ m₂ m₃ m₄ last : Nat} (harray : (expression array).Fits first m₁) (hle : m₁ ≤ m₂)
    (hindex : (expression index).Fits m₂ m₃) (hle' : m₃ ≤ m₄)
    (hvalue : (expression value).Fits m₄ last) :
    (expression (.arrayAssignment array index value)).Fits first last := by
  obtain ⟨harray, hbelow⟩ := harray
  obtain ⟨hindex, hbelow'⟩ := hindex
  obtain ⟨hvalue, hbelow''⟩ := hvalue
  refine fits_cover (harray.mono (Nat.le_refl _) (by omega))
    (hvalue.mono (by omega) (Nat.le_refl _)) rfl rfl ?_
  exact List.forall_mem_cons.2 ⟨⟨Nat.le_refl _, by omega, hbelow⟩,
    List.forall_mem_cons.2 ⟨⟨by omega, by omega, hbelow'⟩,
      List.forall_mem_singleton.2 ⟨by omega, Nat.le_refl _, hbelow''⟩⟩⟩

/-- The cases follow the grammar: each cuts the run where the form does, and the pieces say in
which order the regions of the node lie. -/
theorem SpellsExpression.fits {part : ExpressionPart} {tokens : List Token}
    (h : SpellsExpression part tokens) {first last : Nat} (hrun : Run first last tokens) :
    part.Fits first last := by
  induction h generalizing first last with
  | assignment htarget _ _ ih | edit htarget _ _ _ ih =>
    obtain ⟨m₂, hrun, hback, _, _⟩ := hrun.split
    obtain ⟨m₁, hfront, _, _, _⟩ := hrun.split
    exact Node.fits_last (htarget.lies hfront) (by omega) (ih hback) rfl rfl rfl
  | step htarget _ _ _ _ =>
    obtain ⟨m₁, hfront, ⟨hstart, hlt, hback⟩, _, _⟩ := hrun.split
    have htarget := htarget.lies hfront
    have hsecond := hback.lies
    refine Node.fits_cover (htarget.mono (Nat.le_refl _) (by omega))
      (b := Span.cover _ _) ?_ rfl rfl (by simp [Node.children, Node.belowExpression])
    simp only [Span.Lies, Span.cover_start, Span.cover_stop]
    omega
  | operation _ ih | operand _ ih | accessed _ ih | primary _ ih => exact ih hrun
  | unary hoperator _ _ _ ih =>
    obtain ⟨m₁, hfront, hback, _, _⟩ := hrun.split
    exact Node.fits_last (hoperator.lies hfront) (Nat.le_refl _) (ih hback) rfl rfl rfl
  | binary _ _ _ _ ihleft ihright =>
    obtain ⟨m₂, hrun, hback, _, _⟩ := hrun.split
    obtain ⟨m₁, hfront, _, _, _⟩ := hrun.split
    obtain ⟨hleft, hbelow⟩ := ihleft hfront
    obtain ⟨hright, hbelow'⟩ := ihright hback
    refine Node.fits_cover (hleft.mono (Nat.le_refl _) (by omega))
      (hright.mono (by omega) (Nat.le_refl _)) rfl rfl ?_
    exact List.forall_mem_cons.2 ⟨⟨Nat.le_refl _, by omega, hbelow⟩,
      List.forall_mem_singleton.2 ⟨by omega, Nat.le_refl _, hbelow'⟩⟩
  | arrayAssignment _ _ _ _ _ _ iharray ihindex ihvalue =>
    obtain ⟨m₅, hrun, hback, _, _⟩ := hrun.split
    obtain ⟨m₄, hrun, _, _, _⟩ := hrun.split
    obtain ⟨m₃, hrun, _, _, _⟩ := hrun.split
    obtain ⟨m₂, hrun, hinside, _, _⟩ := hrun.split
    obtain ⟨m₁, hfront, _, _, _⟩ := hrun.split
    exact Node.fits_arrayAssignment (iharray hfront) (by omega) (ihindex hinside) (by omega)
      (ihvalue hback)
  | arrayAccess _ _ _ hclosing iharray ihindex =>
    obtain ⟨m₃, hrun, hclosed, _, _⟩ := hrun.split
    obtain ⟨m₂, hrun, hinside, _, _⟩ := hrun.split
    obtain ⟨m₁, hfront, _, _, _⟩ := hrun.split
    exact Node.fits_arrayAccess (iharray hfront) (by omega) (ihindex hinside) (by omega)
      (hclosing.lies hclosed)
  | literal _ => exact Node.fits_leaf rfl rfl hrun.lies
  | parenthesized hopening _ hclosing ih =>
    obtain ⟨m₂, hrun, hclosed, _, _⟩ := hrun.split
    obtain ⟨m₁, hopened, hinside, _, _⟩ := hrun.split
    have hinner : ∀ e ∈ [_], (Node.expression e).Fits m₁ m₂ :=
      List.forall_mem_singleton.2 (ih hinside)
    exact Node.fits_arguments (hopening.lies hopened) (Nat.le_refl _) hinner (by omega)
      (hclosing.lies hclosed) rfl rfl rfl
  | this h => exact Node.fits_leaf rfl rfl (h.lies hrun)
  | reference hampersand hname =>
    obtain ⟨m₁, hfront, hback, _, _⟩ := hrun.split
    refine Node.fits_cover ((hampersand.lies hfront).mono (Nat.le_refl _) (by omega))
      ((hname.lies hback).mono (by omega) (Nat.le_refl _)) rfl rfl ?_
    simp [Node.children, Node.belowExpression]
  | dereference hstar _ ih =>
    obtain ⟨m₁, hfront, hback, _, _⟩ := hrun.split
    exact Node.fits_last (hstar.lies hfront) (Nat.le_refl _) (ih hback) rfl rfl rfl
  | name h | ownName h => exact Node.fits_leaf rfl rfl (h.lies hrun)
  | call hcallee _ _ hclosing ih =>
    obtain ⟨m₃, hrun, hclosed, _, _⟩ := hrun.split
    obtain ⟨m₂, hrun, hinside, _, _⟩ := hrun.split
    obtain ⟨m₁, hfront, _, _, _⟩ := hrun.split
    exact Node.fits_arguments (hcallee.lies hfront) (by omega) (ih hinside) (by omega)
      (hclosing.lies hclosed) rfl rfl rfl
  | cast htype _ _ _ hclosing ih =>
    obtain ⟨m₃, hrun, hclosed, _, _⟩ := hrun.split
    obtain ⟨m₂, hrun, hinside, _, _⟩ := hrun.split
    obtain ⟨m₁, hfront, _, _, _⟩ := hrun.split
    exact Node.fits_cast (SpellsType.fits htype hfront) (by omega) (ih hinside) (by omega)
      (hclosing.lies hclosed)
  | packageCall hname _ _ _ _ hclosing ih | typeCall hname _ _ _ _ hclosing ih =>
    obtain ⟨m₅, hrun, hclosed, _, _⟩ := hrun.split
    obtain ⟨m₄, hrun, hinside, _, _⟩ := hrun.split
    obtain ⟨m₃, hrun, _, _, _⟩ := hrun.split
    obtain ⟨m₂, hrun, _, _, _⟩ := hrun.split
    obtain ⟨m₁, hfront, _, _, _⟩ := hrun.split
    exact Node.fits_arguments (hname.lies hfront) (by omega) (ih hinside) (by omega)
      (hclosing.lies hclosed) rfl rfl rfl
  | fieldAccess hobject _ hfield =>
    obtain ⟨m₂, hrun, hback, _, _⟩ := hrun.split
    obtain ⟨m₁, hfront, _, _, _⟩ := hrun.split
    refine Node.fits_cover ((hobject.lies hfront).mono (Nat.le_refl _) (by omega))
      ((hfield.lies hback).mono (by omega) (Nat.le_refl _)) rfl rfl ?_
    simp [Node.children, Node.belowExpression]
  | fieldAssignment hobject _ _ _ _ ih =>
    obtain ⟨m₄, hrun, hback, _, _⟩ := hrun.split
    obtain ⟨m₃, hrun, _, _, _⟩ := hrun.split
    obtain ⟨m₂, hrun, _, _, _⟩ := hrun.split
    obtain ⟨m₁, hfront, _, _, _⟩ := hrun.split
    exact Node.fits_last (hobject.lies hfront) (by omega) (ih hback) rfl rfl rfl
  | element harray _ _ hclosing ih =>
    obtain ⟨m₃, hrun, hclosed, _, _⟩ := hrun.split
    obtain ⟨m₂, hrun, hinside, _, _⟩ := hrun.split
    obtain ⟨m₁, hfront, _, _, _⟩ := hrun.split
    have harray : (Node.expression (.name _)).Fits first m₁ :=
      Node.fits_leaf rfl rfl (harray.lies hfront)
    exact Node.fits_arrayAccess harray (by omega) (ih hinside) (by omega)
      (hclosing.lies hclosed)
  | elementAssignment harray _ _ _ _ _ ihindex ihvalue =>
    obtain ⟨m₅, hrun, hback, _, _⟩ := hrun.split
    obtain ⟨m₄, hrun, _, _, _⟩ := hrun.split
    obtain ⟨m₃, hrun, _, _, _⟩ := hrun.split
    obtain ⟨m₂, hrun, hinside, _, _⟩ := hrun.split
    obtain ⟨m₁, hfront, _, _, _⟩ := hrun.split
    have harray : (Node.expression (.name _)).Fits first m₁ :=
      Node.fits_leaf rfl rfl (harray.lies hfront)
    exact Node.fits_arrayAssignment harray (by omega) (ihindex hinside) (by omega)
      (ihvalue hback)
  | make hkeyword htype _ _ _ hclosing ih | makeArray hkeyword htype _ _ _ hclosing ih
  | makeStruct hkeyword htype _ _ _ hclosing ih =>
    obtain ⟨m₄, hrun, hclosed, _, _⟩ := hrun.split
    obtain ⟨m₃, hrun, hinside, _, _⟩ := hrun.split
    obtain ⟨m₂, hrun, _, _, _⟩ := hrun.split
    obtain ⟨m₁, hword, hfront, _, _⟩ := hrun.split
    exact Node.fits_make (hkeyword.lies hword) (htype.fits hfront) (by omega) (ih hinside)
      (by omega) (hclosing.lies hclosed) rfl rfl rfl
  | makeSized hkeyword htype _ _ _ hclosing ih =>
    obtain ⟨m₄, hrun, hclosed, _, _⟩ := hrun.split
    obtain ⟨m₃, hrun, hinside, _, _⟩ := hrun.split
    obtain ⟨m₂, hrun, _, _, _⟩ := hrun.split
    obtain ⟨m₁, hword, hfront, _, _⟩ := hrun.split
    have hlength : ∀ e ∈ [_], (Node.expression e).Fits m₃ m₄ :=
      List.forall_mem_singleton.2 (ih hinside)
    exact Node.fits_make (hkeyword.lies hword) (htype.fits hfront) (by omega) hlength
      (by omega) (hclosing.lies hclosed) rfl rfl rfl
  | main _ _ _ _ _ ih =>
    obtain ⟨hstart, hlt, hback⟩ := hrun
    exact Node.fits_last ⟨hstart, hlt, Nat.le_refl _⟩ (Nat.le_refl _) (ih hback) rfl rfl rfl
  | ownCall _ ih | ownAssignment _ ih => exact ih hrun
  | none => exact List.forall_mem_nil _
  | last _ ih => exact List.forall_mem_singleton.2 (ih hrun)
  | more _ _ _ ih ihothers =>
    obtain ⟨m₂, hrun, hback, _, _⟩ := hrun.split
    obtain ⟨m₁, hfront, _, _, _⟩ := hrun.split
    have hfirst : (Node.expression _).Fits first last := (ih hfront).mono (Nat.le_refl _) (by omega)
    exact List.forall_mem_cons.2 ⟨hfirst, fun e he =>
      (ihothers hback e he).mono (by omega) (Nat.le_refl _)⟩

theorem ExpressionSpelling.fits {e : Expression} {tokens : List Token}
    (h : ExpressionSpelling e tokens) {first last : Nat} (hrun : Run first last tokens) :
    (Node.expression e).Fits first last :=
  SpellsExpression.fits h hrun

/-! ### Statements -/

theorem Optionally.fits {α : Type} {spells : α → List Token → Prop} {node : α → Node}
    {value : Option α} {tokens : List Token} {first last : Nat} (h : Optionally spells value tokens)
    (hspells : ∀ value, spells value tokens → (node value).Fits first last) :
    ∀ other ∈ (value.map node).toList, other.Fits first last := by
  cases h with
  | missing => simp
  | present h => simpa using hspells _ h

theorem InitialSpelling.fits {value : Expression} {tokens : List Token} {first last : Nat}
    (h : InitialSpelling value tokens) (hrun : Run first last tokens) :
    (Node.expression value).Fits first last := by
  cases h with
  | intro _ hvalue =>
    obtain ⟨m₁, _, hback, _, _⟩ := hrun.split
    exact (hvalue.fits hback).mono (by omega) (Nat.le_refl _)

theorem ConditionSpelling.fits {condition : Expression} {tokens : List Token} {first last : Nat}
    (h : ConditionSpelling condition tokens) (hrun : Run first last tokens) :
    (Node.expression condition).Fits first last := by
  cases h with
  | intro _ hcondition _ =>
    obtain ⟨m₂, hrun, _, _, _⟩ := hrun.split
    obtain ⟨m₁, _, hinside, _, _⟩ := hrun.split
    exact (hcondition.fits hinside).mono (by omega) (by omega)

theorem VariableWordSpelling.lies {word : Span × Bool} {tokens : List Token} {first last : Nat}
    (h : VariableWordSpelling word tokens) (hrun : Run first last tokens) :
    word.1.Lies first last := by
  cases h with
  | var h | set h => exact h.lies hrun

theorem DeclarationSpelling.fits {d : VariableDeclaration} {tokens : List Token}
    {first last : Nat} (h : DeclarationSpelling d tokens) (hrun : Run first last tokens) :
    (Node.declaration d).Fits first last := by
  cases h with
  | intro hkeyword htype hname hvalue =>
    obtain ⟨m₃, hrun, hback, _, _⟩ := hrun.split
    obtain ⟨m₂, hrun, hfront, _, _⟩ := hrun.split
    obtain ⟨m₁, hword, hclause, _, _⟩ := hrun.split
    have hkeyword := hkeyword.lies hword
    have hname := hname.lies hfront
    have htype := htype.fits fun _ h => TypeSpelling.fits h hclause
    cases hvalue with
    | missing =>
      refine Node.fits_cover (hkeyword.mono (Nat.le_refl _) (by omega))
        (hname.mono (by omega) (by omega)) rfl rfl (List.forall_mem_append.2 ⟨?_, by simp⟩)
      exact fun other hother => (htype other hother).inside (by omega) (by omega)
    | present hvalue =>
      refine Node.fits_behind hkeyword (by omega) ?_ (hvalue.fits hback) rfl rfl rfl
      exact fun other hother => (htype other hother).mono (Nat.le_refl _) (by omega)

/-- What fits of a part of a statement. -/
def StatementPart.Fits (first last : Nat) : StatementPart → Prop
  | statement s | bare s => (Node.statement s).Fits first last
  | statements ss => ∀ s ∈ ss, (Node.statement s).Fits first last

/-- What begins and ends with a mark, and has statements in between. -/
theorem Node.fits_block {opening closing : Span} {ss : List Statement}
    {opened inside closed : List Token} {first last : Nat}
    (hopening : Marks (.sign .lbrace) opening opened)
    (hstatements : ∀ {first last}, Run first last inside →
      (StatementPart.statements ss).Fits first last)
    (hclosing : Marks (.sign .rbrace) closing closed)
    (hrun : Run first last (opened ++ inside ++ closed)) :
    (statement (.block opening ss closing)).Fits first last := by
  obtain ⟨m₂, hrun, hclosed, _, _⟩ := hrun.split
  obtain ⟨m₁, hopened, hinside, _, _⟩ := hrun.split
  have hopening := hopening.lies hopened
  have hclosing := hclosing.lies hclosed
  refine fits_cover (hopening.mono (Nat.le_refl _) (by omega))
    (hclosing.mono (by omega) (Nat.le_refl _)) rfl rfl ?_
  exact List.forall_mem_map.2 fun s hs =>
    (hstatements hinside s hs).inside (by omega) (by omega)

theorem SpellsStatement.fits {part : StatementPart} {tokens : List Token}
    (h : SpellsStatement part tokens) {first last : Nat} (hrun : Run first last tokens) :
    part.Fits first last := by
  induction h generalizing first last with
  | statement _ _ ih =>
    obtain ⟨m₁, hfront, _, _, _⟩ := hrun.split
    exact (ih hfront).mono (Nat.le_refl _) (by omega)
  | declaration h => exact Node.fits_same rfl rfl rfl (h.fits hrun)
  | block hopening _ hclosing ih => exact Node.fits_block hopening ih hclosing hrun
  | ifThen hkeyword hcondition _ ih | «while» hkeyword hcondition _ ih =>
    obtain ⟨m₂, hrun, hback, _, _⟩ := hrun.split
    obtain ⟨m₁, hword, hfront, _, _⟩ := hrun.split
    have hcondition := List.forall_mem_singleton.2 (hcondition.fits hfront)
    exact Node.fits_behind (hkeyword.lies hword) (by omega) hcondition (ih hback) rfl rfl rfl
  | ifElse hkeyword hcondition _ helse _ ihbody ihalternative =>
    obtain ⟨m₄, hrun, hback, _, _⟩ := hrun.split
    obtain ⟨m₃, hrun, hotherwise, _, _⟩ := hrun.split
    obtain ⟨m₂, hrun, hmiddle, _, _⟩ := hrun.split
    obtain ⟨m₁, hword, hfront, _, _⟩ := hrun.split
    have hcondition := (hcondition.fits hfront).mono (Nat.le_refl _) (by omega : _ ≤ m₃)
    have hbody : (Node.statement _).Fits m₁ m₃ := (ihbody hmiddle).mono (by omega) (Nat.le_refl _)
    have halternative : (Node.alternative _ _).Fits m₃ last :=
      Node.fits_last (helse.lies hotherwise) (Nat.le_refl _) (ihalternative hback) rfl rfl rfl
    exact Node.fits_behind (hkeyword.lies hword) (by omega)
      (List.forall_mem_cons.2 ⟨hcondition, List.forall_mem_singleton.2 hbody⟩) halternative
      rfl rfl rfl
  | «return» hkeyword hvalue =>
    obtain ⟨m₁, hword, hback, _, _⟩ := hrun.split
    have hkeyword := hkeyword.lies hword
    cases hvalue with
    | missing => exact Node.fits_leaf rfl rfl (hkeyword.mono (Nat.le_refl _) (by omega))
    | present hvalue =>
      exact Node.fits_last hkeyword (Nat.le_refl _) (hvalue.fits hback) rfl rfl rfl
  | «for» hkeyword _ hinit _ hcondition _ _ _ _ ihstep ihbody =>
    obtain ⟨m₈, hrun, hback, _, _⟩ := hrun.split
    obtain ⟨m₇, hrun, _, _, _⟩ := hrun.split
    obtain ⟨m₆, hrun, hinside, _, _⟩ := hrun.split
    obtain ⟨m₅, hrun, _, _, _⟩ := hrun.split
    obtain ⟨m₄, hrun, hmiddle, _, _⟩ := hrun.split
    obtain ⟨m₃, hrun, _, _, _⟩ := hrun.split
    obtain ⟨m₂, hrun, hfront, _, _⟩ := hrun.split
    obtain ⟨m₁, hword, _, _, _⟩ := hrun.split
    have hinit := (hinit.fits hfront).mono (by omega : m₁ ≤ _) (by omega : _ ≤ m₈)
    have hcondition := (hcondition.fits hmiddle).mono (by omega : m₁ ≤ _) (by omega : _ ≤ m₈)
    have hstep : (Node.statement _).Fits m₁ m₈ := (ihstep hinside).mono (by omega) (by omega)
    exact Node.fits_behind (hkeyword.lies hword) (by omega)
      (List.forall_mem_cons.2 ⟨hinit, List.forall_mem_cons.2 ⟨hcondition,
        List.forall_mem_singleton.2 hstep⟩⟩) (ihbody hback) rfl rfl rfl
  | «break» h | «continue» h => exact Node.fits_leaf rfl rfl (h.lies hrun)
  | expression h => exact Node.fits_same rfl rfl rfl (h.fits hrun)
  | none => exact List.forall_mem_nil _
  | cons _ _ ih ihothers =>
    obtain ⟨m₁, hfront, hback, _, _⟩ := hrun.split
    have hfirst : (Node.statement _).Fits first last := (ih hfront).mono (Nat.le_refl _) (by omega)
    exact List.forall_mem_cons.2 ⟨hfirst, fun s hs =>
      (ihothers hback s hs).mono (by omega) (Nat.le_refl _)⟩

theorem BlockSpelling.fits {b : Block} {tokens : List Token} {first last : Nat}
    (h : BlockSpelling b tokens) (hrun : Run first last tokens) :
    (Node.statement b.toStatement).Fits first last := by
  cases h with
  | intro hopening h hclosing => exact Node.fits_block hopening h.fits hclosing hrun

/-! ### Members -/

theorem ParameterSpelling.fits {p : Parameter} {tokens : List Token} {first last : Nat}
    (h : ParameterSpelling p tokens) (hrun : Run first last tokens) :
    (Node.parameter p).Fits first last := by
  cases h with
  | intro hname htype =>
    obtain ⟨m₁, hfront, hback, _, _⟩ := hrun.split
    exact Node.fits_last (hname.lies hfront) (Nat.le_refl _) (htype.fits hback) rfl rfl rfl

theorem Separated.fits {parameters : List Parameter} {tokens : List Token} {first last : Nat}
    (h : Separated ParameterSpelling parameters tokens) (hrun : Run first last tokens) :
    ∀ p ∈ parameters, (Node.parameter p).Fits first last := by
  induction h generalizing first last with
  | last h => exact List.forall_mem_singleton.2 (h.fits hrun)
  | more h _ _ ih =>
    obtain ⟨m₂, hrun, hback, _, _⟩ := hrun.split
    obtain ⟨m₁, hfront, _, _, _⟩ := hrun.split
    exact List.forall_mem_cons.2 ⟨(h.fits hfront).mono (Nat.le_refl _) (by omega),
      fun p hp => (ih hback p hp).mono (by omega) (Nat.le_refl _)⟩

theorem Listed.fits {parameters : List Parameter} {tokens : List Token} {first last : Nat}
    (h : Listed ParameterSpelling parameters tokens) (hrun : Run first last tokens) :
    ∀ p ∈ parameters, (Node.parameter p).Fits first last := by
  induction h generalizing first last with
  | none => exact List.forall_mem_nil _
  | last h => exact List.forall_mem_singleton.2 (h.fits hrun)
  | more h _ _ ih =>
    obtain ⟨m₂, hrun, hback, _, _⟩ := hrun.split
    obtain ⟨m₁, hfront, _, _, _⟩ := hrun.split
    exact List.forall_mem_cons.2 ⟨(h.fits hfront).mono (Nat.le_refl _) (by omega),
      fun p hp => (ih hback p hp).mono (by omega) (Nat.le_refl _)⟩

theorem ParameterListSpelling.fits {list : List Parameter × Span} {tokens : List Token}
    {first last : Nat} (h : ParameterListSpelling list tokens) (hrun : Run first last tokens) :
    ∃ middle, first ≤ middle ∧ (∀ p ∈ list.1, (Node.parameter p).Fits first middle) ∧
      list.2.Lies middle last := by
  cases h with
  | none _ hclosing =>
    obtain ⟨m₁, _, hclosed, hle, _⟩ := hrun.split
    exact ⟨m₁, hle, List.forall_mem_nil _, hclosing.lies hclosed⟩
  | some _ hparameters hclosing =>
    obtain ⟨m₂, hrun, hclosed, hle, _⟩ := hrun.split
    obtain ⟨m₁, _, hinside, _, _⟩ := hrun.split
    exact ⟨m₂, hle, fun p hp => (hparameters.fits hinside p hp).mono (by omega) (Nat.le_refl _),
      hclosing.lies hclosed⟩

theorem FunctionSpelling.fits {f : FunctionDeclaration} {tokens : List Token} {first last : Nat}
    (h : FunctionSpelling f tokens) (hrun : Run first last tokens) :
    (Node.member (.function f)).Fits first last := by
  cases h with
  | intro hvisibility hkeyword hname hparameters hreturn hbody =>
    obtain ⟨m₅, hrun, hback, _, _⟩ := hrun.split
    obtain ⟨m₄, hrun, hclause, _, _⟩ := hrun.split
    obtain ⟨m₃, hrun, hlist, _, _⟩ := hrun.split
    obtain ⟨m₂, hrun, _, _, _⟩ := hrun.split
    obtain ⟨m₁, hfront, hword, _, _⟩ := hrun.split
    have hkeyword := hkeyword.lies hword
    obtain ⟨m, hle, hparameters, hclosing⟩ := hparameters.fits hlist
    have hreturn := hreturn.fits fun _ h => TypeSpelling.fits h hclause
    have hbefore : ∀ other ∈ (_ ++ _ : List Node), other.Fits m₂ m₅ := List.forall_mem_append.2
      ⟨List.forall_mem_map.2 fun p hp => (hparameters p hp).mono (by omega) (by omega),
        fun other hother => (hreturn other hother).mono (by omega) (Nat.le_refl _)⟩
    cases hvisibility with
    | missing =>
      exact Node.fits_behind (hkeyword.mono (by omega) (Nat.le_refl _)) (by omega) hbefore
        (hbody.fits hback) rfl rfl rfl
    | present hvisibility =>
      exact Node.fits_behind ((hvisibility.lies hfront).mono (Nat.le_refl _) (by omega))
        (by omega) hbefore (hbody.fits hback) rfl rfl rfl

theorem MemberSpelling.fits {member : Member} {tokens : List Token} {first last : Nat}
    (h : MemberSpelling member tokens) (hrun : Run first last tokens) :
    (Node.member member).Fits first last := by
  cases h with
  | statement h => exact Node.fits_same rfl rfl rfl (SpellsStatement.fits h hrun)
  | function h => exact h.fits hrun
  | external hkeyword _ _ hparameters hreturn _ =>
    obtain ⟨m₅, hrun, _, _, _⟩ := hrun.split
    obtain ⟨m₄, hrun, hclause, _, _⟩ := hrun.split
    obtain ⟨m₃, hrun, hlist, _, _⟩ := hrun.split
    obtain ⟨m₂, hrun, _, _, _⟩ := hrun.split
    obtain ⟨m₁, hword, _, _, _⟩ := hrun.split
    have hkeyword := hkeyword.lies hword
    obtain ⟨m, hle, hparameters, hclosing⟩ := hparameters.fits hlist
    cases hreturn with
    | missing =>
      refine Node.fits_cover (hkeyword.mono (Nat.le_refl _) (by omega))
        (hclosing.mono (by omega) (by omega)) rfl rfl (List.forall_mem_append.2 ⟨?_, by simp⟩)
      exact List.forall_mem_map.2 fun p hp => (hparameters p hp).inside (by omega) (by omega)
    | present htype =>
      refine Node.fits_behind hkeyword (by omega) ?_
        ((htype.fits hclause).mono (Nat.le_refl _) (by omega)) rfl rfl rfl
      exact List.forall_mem_map.2 fun p hp => (hparameters p hp).mono (by omega) (by omega)
  | struct hkeyword _ _ hfields hclosing _ =>
    obtain ⟨m₅, hrun, _, _, _⟩ := hrun.split
    obtain ⟨m₄, hrun, hclosed, _, _⟩ := hrun.split
    obtain ⟨m₃, hrun, hinside, _, _⟩ := hrun.split
    obtain ⟨m₂, hrun, _, _, _⟩ := hrun.split
    obtain ⟨m₁, hword, _, _, _⟩ := hrun.split
    have hkeyword := hkeyword.lies hword
    have hclosing := hclosing.lies hclosed
    refine Node.fits_cover (hkeyword.mono (Nat.le_refl _) (by omega))
      (hclosing.mono (by omega) (by omega)) rfl rfl ?_
    exact List.forall_mem_map.2 fun p hp =>
      (hfields.fits hinside p hp).inside (by omega) (by omega)
  | packageReference hkeyword hname _ | packageUse hkeyword hname _ =>
    obtain ⟨m₂, hrun, _, _, _⟩ := hrun.split
    obtain ⟨m₁, hword, hfront, _, _⟩ := hrun.split
    exact Node.fits_cover ((hkeyword.lies hword).mono (Nat.le_refl _) (by omega))
      ((hname.lies hfront).mono (by omega) (by omega)) rfl rfl (List.forall_mem_nil _)

theorem ProgramSpelling.fits {members : List Member} {tokens : List Token} {first last : Nat}
    (h : ProgramSpelling members tokens) (hrun : Run first last tokens) :
    ∀ member ∈ members, (Node.member member).Fits first last := by
  induction h generalizing first last with
  | nil => exact List.forall_mem_nil _
  | cons h _ ih =>
    obtain ⟨m₁, hfront, hback, _, _⟩ := hrun.split
    exact List.forall_mem_cons.2 ⟨(h.fits hfront).mono (Nat.le_refl _) (by omega),
      fun member hmember => (ih hback member hmember).mono (by omega) (Nat.le_refl _)⟩

/-- In the tree of a source, the region of a node contains the regions of the nodes directly below
it, unless the node is a cast to a type that is written with its package. -/
theorem spans_nest_iff {file : Nat} {hashComments : Bool} {source : String} {tokens : List Token}
    {members : List Member} (htokens : tokenize file hashComments source = .ok tokens)
    (hparse : parseProgram tokens = .ok members) {member : Member} (hmember : member ∈ members)
    {node : Node} (hwithin : Node.Within node (.member member)) :
    (∀ child ∈ node.children, node.span.contains child.span = true) ↔
      node.isQualifiedCast = false := by
  have hrun := (laid_tokenize htokens).run
  have hspelling := parseProgram_spelling hparse
  obtain ⟨-, heverywhere⟩ := hspelling.fits hrun member hmember
  exact heverywhere node hwithin

/-- A cast to a type without a package, directly in a statement. -/
theorem spans_nest_iff_cast :
    let tokens : List Token :=
      [⟨.identifier, "a", none, ⟨0, 0, 1, 1, 1, 1, 2⟩, false⟩,
       ⟨.sign .lbrack, "[", none, ⟨0, 1, 2, 1, 2, 1, 3⟩, false⟩,
       ⟨.identifier, "int", none, ⟨0, 2, 5, 1, 3, 1, 6⟩, false⟩,
       ⟨.sign .rbrack, "]", none, ⟨0, 5, 6, 1, 6, 1, 7⟩, false⟩,
       ⟨.sign .lparen, "(", none, ⟨0, 6, 7, 1, 7, 1, 8⟩, false⟩,
       ⟨.identifier, "x", none, ⟨0, 7, 8, 1, 8, 1, 9⟩, false⟩,
       ⟨.sign .rparen, ")", none, ⟨0, 8, 9, 1, 9, 1, 10⟩, true⟩,
       Token.ending ⟨0, 9, 9, 1, 10, 1, 10⟩]
    let cast : Expression :=
      .cast
        ⟨none, ⟨"a", ⟨0, 0, 1, 1, 1, 1, 2⟩⟩, [⟨none, ⟨"int", ⟨0, 2, 5, 1, 3, 1, 6⟩⟩, [], none⟩],
          some ⟨0, 5, 6, 1, 6, 1, 7⟩⟩
        [.name ⟨"x", ⟨0, 7, 8, 1, 8, 1, 9⟩⟩] ⟨0, 8, 9, 1, 9, 1, 10⟩
    tokenize 0 true "a[int](x)" = .ok tokens ∧
      parseProgram tokens = .ok [.statement (.expression cast)] ∧
      ∀ child ∈ (Node.expression cast).children,
        (Node.expression cast).span.contains child.span = true := by
  intro tokens cast
  have htokens : tokenize 0 true "a[int](x)" = .ok tokens := by
    decide +kernel
  have hparse : parseProgram tokens = .ok [.statement (.expression cast)] := by
    dsimp only [tokens, cast]
    cbv
  have hwithin : Node.Within (.expression cast) (.member (.statement (.expression cast))) :=
    .under List.mem_cons_self (.under List.mem_cons_self .self)
  exact ⟨htokens, hparse, (spans_nest_iff htokens hparse List.mem_cons_self hwithin).2 rfl⟩

/-- The type of this cast starts before the cast does. -/
theorem not_nests_qualified_cast :
    ∃ tokens members member node child, tokenize 0 true "io::a[int](x)" = .ok tokens ∧
      parseProgram tokens = .ok members ∧ member ∈ members ∧
      Node.Within node (.member member) ∧ child ∈ node.children ∧
      node.span.contains child.span = false := by
  let tokens : List Token :=
      [⟨.identifier, "io", none, ⟨0, 0, 2, 1, 1, 1, 3⟩, false⟩,
       ⟨.sign .pathSep, "::", none, ⟨0, 2, 4, 1, 3, 1, 5⟩, false⟩,
       ⟨.identifier, "a", none, ⟨0, 4, 5, 1, 5, 1, 6⟩, false⟩,
       ⟨.sign .lbrack, "[", none, ⟨0, 5, 6, 1, 6, 1, 7⟩, false⟩,
       ⟨.identifier, "int", none, ⟨0, 6, 9, 1, 7, 1, 10⟩, false⟩,
       ⟨.sign .rbrack, "]", none, ⟨0, 9, 10, 1, 10, 1, 11⟩, false⟩,
       ⟨.sign .lparen, "(", none, ⟨0, 10, 11, 1, 11, 1, 12⟩, false⟩,
       ⟨.identifier, "x", none, ⟨0, 11, 12, 1, 12, 1, 13⟩, false⟩,
       ⟨.sign .rparen, ")", none, ⟨0, 12, 13, 1, 13, 1, 14⟩, true⟩,
       Token.ending ⟨0, 13, 13, 1, 14, 1, 14⟩]
  let cast : Expression :=
      .cast
        ⟨some ⟨"io", ⟨0, 0, 2, 1, 1, 1, 3⟩⟩, ⟨"a", ⟨0, 4, 5, 1, 5, 1, 6⟩⟩,
          [⟨none, ⟨"int", ⟨0, 6, 9, 1, 7, 1, 10⟩⟩, [], none⟩],
          some ⟨0, 9, 10, 1, 10, 1, 11⟩⟩
        [.name ⟨"x", ⟨0, 11, 12, 1, 12, 1, 13⟩⟩] ⟨0, 12, 13, 1, 13, 1, 14⟩
  refine ⟨tokens, [.statement (.expression cast)], _, .expression cast, _, ?_, ?_,
    List.mem_cons_self, .under List.mem_cons_self (.under List.mem_cons_self .self),
    List.mem_cons_self, ?_⟩
  · decide +kernel
  · dsimp only [tokens, cast]
    cbv
  · rfl

end TodLang
