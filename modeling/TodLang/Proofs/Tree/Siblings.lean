import TodLang.Proofs.Tree.Nesting
/-!
How the regions of siblings in a syntax tree lie to each other. The nodes directly below a node are
spelled by runs of tokens that stand one behind the other, so each of their regions stops before
the next one starts, and none of them is empty. The members of a program stand in the same way. The
main result is `siblings_disjoint`.
-/

namespace TodLang

/-! ### Rows of nodes -/

namespace Node

/-- The region of a node is not empty, and the nodes directly below it stand one behind the other
without overlap. -/
def Orderly (node : Node) : Prop :=
  node.span.start < node.span.stop ∧
    node.children.Pairwise fun a b => a.span.stop ≤ b.span.start

/-- Nodes stand one behind the other between two offsets, and they and all nodes below them are
orderly. -/
def Row (first last : Nat) : List Node → Prop
  | [] => first ≤ last
  | node :: others =>
    first ≤ node.span.start ∧ node.Everywhere Orderly ∧ Row node.span.stop last others

section

variable {first last : Nat} {nodes others : List Node} {node : Node}

theorem Everywhere.self {holds : Node → Prop} (h : node.Everywhere holds) : holds node :=
  h node Within.self

theorem Row.mono {low high : Nat} (h : Row first last nodes) (hlow : low ≤ first)
    (hhigh : last ≤ high) : Row low high nodes := by
  induction nodes generalizing first low with
  | nil => exact Nat.le_trans hlow (Nat.le_trans h hhigh)
  | cons node others ih =>
    obtain ⟨hstart, horderly, hothers⟩ := h
    exact ⟨Nat.le_trans hlow hstart, horderly, ih hothers (Nat.le_refl _)⟩

/-- A row behind another one makes one row with it. -/
theorem Row.append {middle next : Nat} (h : Row first middle nodes) (hle : middle ≤ next)
    (hothers : Row next last others) : Row first last (nodes ++ others) := by
  induction nodes generalizing first with
  | nil => exact hothers.mono (Nat.le_trans h hle) (Nat.le_refl _)
  | cons node nodes ih =>
    obtain ⟨hstart, horderly, hrest⟩ := h
    exact ⟨hstart, horderly, ih hrest⟩

theorem Row.everywhere (h : Row first last nodes) : ∀ node ∈ nodes, node.Everywhere Orderly := by
  induction nodes generalizing first with
  | nil => exact List.forall_mem_nil _
  | cons node others ih =>
    obtain ⟨-, horderly, hothers⟩ := h
    exact List.forall_mem_cons.2 ⟨horderly, ih hothers⟩

/-- No node of a row starts before the row does. -/
theorem Row.le_start (h : Row first last nodes) : ∀ node ∈ nodes, first ≤ node.span.start := by
  induction nodes generalizing first with
  | nil => exact List.forall_mem_nil _
  | cons node others ih =>
    obtain ⟨hstart, horderly, hothers⟩ := h
    have hlt := horderly.self.1
    refine List.forall_mem_cons.2 ⟨hstart, ?_⟩
    intro other hother
    have hbehind := ih hothers other hother
    omega

theorem Row.pairwise (h : Row first last nodes) :
    nodes.Pairwise fun a b => a.span.stop ≤ b.span.start := by
  induction nodes generalizing first with
  | nil => exact List.Pairwise.nil
  | cons node others ih =>
    obtain ⟨-, -, hothers⟩ := h
    exact List.Pairwise.cons hothers.le_start (ih hothers)

/-- A node stands where it fits, if the nodes directly below it are a row. -/
theorem row_of_fits {low high : Nat} (hfits : node.Fits first last)
    (hchildren : Row low high node.children) : Row first last [node] := by
  obtain ⟨⟨hstart, hlt, hstop⟩, -⟩ := hfits
  have horderly : node.Everywhere Orderly :=
    everywhere_iff.2 ⟨⟨hlt, hchildren.pairwise⟩, hchildren.everywhere⟩
  exact ⟨hstart, horderly, hstop⟩

/-- A node with nothing below it stands where it fits. -/
theorem row_leaf (hfits : node.Fits first last) (hchildren : node.children = []) :
    Row first last [node] := by
  have hrow : Row 0 0 node.children := by
    rw [hchildren]
    exact Nat.le_refl 0
  exact row_of_fits hfits hrow

end

end Node

open Node

section

variable {first last : Nat} {tokens : List Token}

/-! ### Written types -/

/-- The nodes of a part of a written type. -/
def TypePart.nodes : TypePart → List Node
  | clause c => [type c]
  | clauses cs => cs.map type

theorem SpellsType.row {part : TypePart} (h : SpellsType part tokens)
    (hrun : Run first last tokens) : Row first last part.nodes := by
  induction h generalizing first last with
  | plain hname => exact row_leaf (SpellsType.plain hname |>.fits hrun).1 rfl
  | generic hname hopening harguments hclosing ih =>
    have hfits := (SpellsType.generic hname hopening harguments hclosing).fits hrun
    obtain ⟨m₂, hrun, -, -, -⟩ := hrun.split
    obtain ⟨m₁, -, hinside, -, -⟩ := hrun.split
    exact row_of_fits hfits.1 (ih hinside)
  | last _ ih => exact ih hrun
  | more _ _ _ ih ihothers =>
    obtain ⟨m₂, hrun, hback, -, -⟩ := hrun.split
    obtain ⟨m₁, hfront, -, -, hle⟩ := hrun.split
    exact (ih hfront).append hle (ihothers hback)

theorem TypeSpelling.row {c : TypeClause} (h : TypeSpelling c tokens)
    (hrun : Run first last tokens) : Row first last [type c] :=
  SpellsType.row h hrun

/-! ### Expressions -/

/-- The nodes of a part of an expression. -/
def ExpressionPart.nodes : ExpressionPart → List Node
  | expression e | operation _ e | operand e | accessed e | primary e | own e => [.expression e]
  | arguments es => es.map .expression

/-- Of what is made with a keyword, the type and what is written between the signs behind it. -/
theorem row_typed {c : TypeClause} {nodes : List Node}
    {word front opened inside closed : List Token} (htype : TypeSpelling c front)
    (hinside : ∀ {first last}, Run first last inside → Row first last nodes)
    (hrun : Run first last (word ++ front ++ opened ++ inside ++ closed)) :
    Row first last (type c :: nodes) := by
  obtain ⟨m₄, hrun, -, -, hle₄⟩ := hrun.split
  obtain ⟨m₃, hrun, hmiddle, -, -⟩ := hrun.split
  obtain ⟨m₂, hrun, -, -, hle⟩ := hrun.split
  obtain ⟨m₁, -, hfront, hle₁, -⟩ := hrun.split
  exact ((htype.row hfront).append hle (hinside hmiddle)).mono hle₁ hle₄

/-- The cases follow the grammar: each takes those pieces of the run that spell nodes below. -/
theorem SpellsExpression.row {part : ExpressionPart} (h : SpellsExpression part tokens)
    (hrun : Run first last tokens) : Row first last part.nodes := by
  induction h generalizing first last with
  | operation _ ih | operand _ ih | accessed _ ih | primary _ ih | ownCall _ ih
  | ownAssignment _ ih => exact ih hrun
  | step htarget hfirst hsecond hstep hclose =>
    have hfits := (SpellsExpression.step htarget hfirst hsecond hstep hclose).fits hrun
    exact row_leaf hfits rfl
  | literal ht => exact row_leaf ((SpellsExpression.literal ht).fits hrun) rfl
  | this hword => exact row_leaf ((SpellsExpression.this hword).fits hrun) rfl
  | name hname => exact row_leaf ((SpellsExpression.name hname).fits hrun) rfl
  | ownName hname => exact row_leaf ((SpellsExpression.ownName hname).fits hrun) rfl
  | reference hampersand hname =>
    exact row_leaf ((SpellsExpression.reference hampersand hname).fits hrun) rfl
  | fieldAccess hobject hperiod hfield =>
    exact row_leaf ((SpellsExpression.fieldAccess hobject hperiod hfield).fits hrun) rfl
  | assignment htarget hsign hvalue ih =>
    have hfits := (SpellsExpression.assignment htarget hsign hvalue).fits hrun
    obtain ⟨m₂, -, hback, -, -⟩ := hrun.split
    exact row_of_fits hfits (ih hback)
  | edit htarget hoperator hedit hvalue ih =>
    have hfits := (SpellsExpression.edit htarget hoperator hedit hvalue).fits hrun
    obtain ⟨m₂, -, hback, -, -⟩ := hrun.split
    exact row_of_fits hfits (ih hback)
  | fieldAssignment hobject hperiod hfield hsign hvalue ih =>
    have hfits := (SpellsExpression.fieldAssignment hobject hperiod hfield hsign hvalue).fits hrun
    obtain ⟨m₄, -, hback, -, -⟩ := hrun.split
    exact row_of_fits hfits (ih hback)
  | @unary level _ _ _ _ hoperator hunary hlevel hoperand ih =>
    have hfits := (SpellsExpression.unary hoperator hunary hlevel hoperand).fits hrun
    obtain ⟨m₁, -, hback, -, -⟩ := hrun.split
    exact row_of_fits hfits (ih hback)
  | dereference hstar hoperand ih =>
    have hfits := (SpellsExpression.dereference hstar hoperand).fits hrun
    obtain ⟨m₁, -, hback, -, -⟩ := hrun.split
    exact row_of_fits hfits (ih hback)
  | main hkeyword hliteral hkind hline hinner ih =>
    have hfits := (SpellsExpression.main hkeyword hliteral hkind hline hinner).fits hrun
    exact row_of_fits hfits (ih hrun.2.2)
  | parenthesized hopening hinner hclosing ih =>
    have hfits := (SpellsExpression.parenthesized hopening hinner hclosing).fits hrun
    obtain ⟨m₂, hrun, -, -, -⟩ := hrun.split
    obtain ⟨m₁, -, hinside, -, -⟩ := hrun.split
    exact row_of_fits hfits (ih hinside)
  | binary hlevel hleft hoperator hright ihleft ihright =>
    have hfits := (SpellsExpression.binary hlevel hleft hoperator hright).fits hrun
    obtain ⟨m₂, hrun, hback, -, -⟩ := hrun.split
    obtain ⟨m₁, hfront, -, -, hle⟩ := hrun.split
    exact row_of_fits hfits ((ihleft hfront).append hle (ihright hback))
  | arrayAccess harray hopening hindex hclosing iharray ihindex =>
    have hfits := (SpellsExpression.arrayAccess harray hopening hindex hclosing).fits hrun
    obtain ⟨m₃, hrun, -, -, -⟩ := hrun.split
    obtain ⟨m₂, hrun, hinside, -, -⟩ := hrun.split
    obtain ⟨m₁, hfront, -, -, hle⟩ := hrun.split
    exact row_of_fits hfits ((iharray hfront).append hle (ihindex hinside))
  | element harray hopening hindex hclosing ih =>
    have hfits := (SpellsExpression.element harray hopening hindex hclosing).fits hrun
    obtain ⟨m₃, hrun, -, -, -⟩ := hrun.split
    obtain ⟨m₂, hrun, hinside, -, -⟩ := hrun.split
    obtain ⟨m₁, hfront, -, -, hle⟩ := hrun.split
    have hname := row_leaf ((SpellsExpression.name harray).fits hfront) rfl
    exact row_of_fits hfits (hname.append hle (ih hinside))
  | arrayAssignment harray hopening hindex hclosing hsign hvalue iharray ihindex ihvalue =>
    have hfits :=
      (SpellsExpression.arrayAssignment harray hopening hindex hclosing hsign hvalue).fits hrun
    obtain ⟨m₅, hrun, hback, -, -⟩ := hrun.split
    obtain ⟨m₄, hrun, -, -, hle₅⟩ := hrun.split
    obtain ⟨m₃, hrun, -, -, hle₄⟩ := hrun.split
    obtain ⟨m₂, hrun, hinside, -, hle₃⟩ := hrun.split
    obtain ⟨m₁, hfront, -, -, hle⟩ := hrun.split
    have hindex := (ihindex hinside).append (by omega) (ihvalue hback)
    exact row_of_fits hfits ((iharray hfront).append hle hindex)
  | elementAssignment harray hopening hindex hclosing hsign hvalue ihindex ihvalue =>
    have hfits :=
      (SpellsExpression.elementAssignment harray hopening hindex hclosing hsign hvalue).fits hrun
    obtain ⟨m₅, hrun, hback, -, -⟩ := hrun.split
    obtain ⟨m₄, hrun, -, -, hle₅⟩ := hrun.split
    obtain ⟨m₃, hrun, -, -, hle₄⟩ := hrun.split
    obtain ⟨m₂, hrun, hinside, -, hle₃⟩ := hrun.split
    obtain ⟨m₁, hfront, -, -, hle⟩ := hrun.split
    have hname := row_leaf ((SpellsExpression.name harray).fits hfront) rfl
    have hindex := (ihindex hinside).append (by omega) (ihvalue hback)
    exact row_of_fits hfits (hname.append hle hindex)
  | call hcallee hopening harguments hclosing ih =>
    have hfits := (SpellsExpression.call hcallee hopening harguments hclosing).fits hrun
    obtain ⟨m₃, hrun, -, -, -⟩ := hrun.split
    obtain ⟨m₂, -, hinside, -, -⟩ := hrun.split
    exact row_of_fits hfits (ih hinside)
  | packageCall hpackage hseparator hcallee hopening harguments hclosing ih =>
    have hfits := (SpellsExpression.packageCall hpackage hseparator hcallee hopening harguments
      hclosing).fits hrun
    obtain ⟨m₅, hrun, -, -, -⟩ := hrun.split
    obtain ⟨m₄, -, hinside, -, -⟩ := hrun.split
    exact row_of_fits hfits (ih hinside)
  | typeCall hreceiver hperiod hcallee hopening harguments hclosing ih =>
    have hfits := (SpellsExpression.typeCall hreceiver hperiod hcallee hopening harguments
      hclosing).fits hrun
    obtain ⟨m₅, hrun, -, -, -⟩ := hrun.split
    obtain ⟨m₄, -, hinside, -, -⟩ := hrun.split
    exact row_of_fits hfits (ih hinside)
  | cast htype hgeneric hopening harguments hclosing ih =>
    have hfits := (SpellsExpression.cast htype hgeneric hopening harguments hclosing).fits hrun
    obtain ⟨m₃, hrun, -, -, -⟩ := hrun.split
    obtain ⟨m₂, hrun, hinside, -, -⟩ := hrun.split
    obtain ⟨m₁, hfront, -, -, hle⟩ := hrun.split
    exact row_of_fits hfits ((htype.row hfront).append hle (ih hinside))
  | make hkeyword htype hgeneric hopening harguments hclosing ih =>
    have hfits :=
      (SpellsExpression.make hkeyword htype hgeneric hopening harguments hclosing).fits hrun
    exact row_of_fits hfits (row_typed htype ih hrun)
  | makeSized hkeyword htype hgeneric hopening hlength hclosing ih =>
    have hfits :=
      (SpellsExpression.makeSized hkeyword htype hgeneric hopening hlength hclosing).fits hrun
    exact row_of_fits hfits (row_typed htype ih hrun)
  | makeArray hkeyword htype hgeneric hopening helements hclosing ih =>
    have hfits :=
      (SpellsExpression.makeArray hkeyword htype hgeneric hopening helements hclosing).fits hrun
    exact row_of_fits hfits (row_typed htype ih hrun)
  | makeStruct hkeyword htype hgeneric hopening hfields hclosing ih =>
    have hfits :=
      (SpellsExpression.makeStruct hkeyword htype hgeneric hopening hfields hclosing).fits hrun
    exact row_of_fits hfits (row_typed htype ih hrun)
  | none => exact hrun
  | last _ ih => exact ih hrun
  | more _ _ _ ih ihothers =>
    obtain ⟨m₂, hrun, hback, -, -⟩ := hrun.split
    obtain ⟨m₁, hfront, -, -, hle⟩ := hrun.split
    exact (ih hfront).append hle (ihothers hback)

theorem ExpressionSpelling.row {e : Expression} (h : ExpressionSpelling e tokens)
    (hrun : Run first last tokens) : Row first last [.expression e] :=
  SpellsExpression.row h hrun

/-! ### Statements -/

theorem Optionally.row {α : Type} {spells : α → List Token → Prop} {node : α → Node}
    {value : Option α} (h : Optionally spells value tokens) (hrun : Run first last tokens)
    (hspells : ∀ value, spells value tokens → Row first last [node value]) :
    Row first last (value.map node).toList := by
  cases h with
  | missing => exact hrun.le
  | present h => exact hspells _ h

theorem InitialSpelling.row {value : Expression} (h : InitialSpelling value tokens)
    (hrun : Run first last tokens) : Row first last [.expression value] := by
  cases h with
  | intro _ hvalue =>
    obtain ⟨m₁, -, hback, hle, -⟩ := hrun.split
    exact (hvalue.row hback).mono hle (Nat.le_refl _)

theorem ConditionSpelling.row {condition : Expression} (h : ConditionSpelling condition tokens)
    (hrun : Run first last tokens) : Row first last [.expression condition] := by
  cases h with
  | intro _ hcondition _ =>
    obtain ⟨m₂, hrun, -, -, hle₂⟩ := hrun.split
    obtain ⟨m₁, -, hinside, hle₁, -⟩ := hrun.split
    exact (hcondition.row hinside).mono hle₁ hle₂

theorem DeclarationSpelling.row {d : VariableDeclaration} (h : DeclarationSpelling d tokens)
    (hrun : Run first last tokens) : Row first last [declaration d] := by
  have hfits := h.fits hrun
  cases h with
  | intro _ htype _ hvalue =>
    obtain ⟨m₃, hrun, hback, -, -⟩ := hrun.split
    obtain ⟨m₂, hrun, -, -, hle⟩ := hrun.split
    obtain ⟨m₁, -, hclause, -, -⟩ := hrun.split
    have htype := htype.row hclause fun _ h => TypeSpelling.row h hclause
    have hvalue := hvalue.row hback fun _ h => InitialSpelling.row h hback
    exact row_of_fits hfits (htype.append hle hvalue)

/-- The nodes of a part of a statement. -/
def StatementPart.nodes : StatementPart → List Node
  | statement s | bare s => [.statement s]
  | statements ss => ss.map .statement

theorem SpellsStatement.row {part : StatementPart} (h : SpellsStatement part tokens)
    (hrun : Run first last tokens) : Row first last part.nodes := by
  induction h generalizing first last with
  | statement _ _ ih =>
    obtain ⟨m₁, hfront, -, -, hle⟩ := hrun.split
    exact (ih hfront).mono (Nat.le_refl _) hle
  | declaration h =>
    exact row_of_fits ((SpellsStatement.declaration h).fits hrun) (h.row hrun)
  | expression h =>
    exact row_of_fits ((SpellsStatement.expression h).fits hrun) (h.row hrun)
  | «break» h => exact row_leaf ((SpellsStatement.break h).fits hrun) rfl
  | «continue» h => exact row_leaf ((SpellsStatement.continue h).fits hrun) rfl
  | «return» hkeyword hvalue =>
    have hfits := (SpellsStatement.return hkeyword hvalue).fits hrun
    obtain ⟨m₁, -, hback, -, -⟩ := hrun.split
    have hchildren := hvalue.row hback fun _ h => ExpressionSpelling.row h hback
    cases hvalue with
    | missing => exact row_leaf hfits rfl
    | present _ => exact row_of_fits hfits hchildren
  | block hopening h hclosing ih =>
    have hfits := (SpellsStatement.block hopening h hclosing).fits hrun
    obtain ⟨m₂, hrun, -, -, -⟩ := hrun.split
    obtain ⟨m₁, -, hinside, -, -⟩ := hrun.split
    exact row_of_fits hfits (ih hinside)
  | ifThen hkeyword hcondition hbody ih =>
    have hfits := (SpellsStatement.ifThen hkeyword hcondition hbody).fits hrun
    obtain ⟨m₂, hrun, hback, -, -⟩ := hrun.split
    obtain ⟨m₁, -, hfront, -, -⟩ := hrun.split
    exact row_of_fits hfits ((hcondition.row hfront).append (Nat.le_refl _) (ih hback))
  | «while» hkeyword hcondition hbody ih =>
    have hfits := (SpellsStatement.while hkeyword hcondition hbody).fits hrun
    obtain ⟨m₂, hrun, hback, -, -⟩ := hrun.split
    obtain ⟨m₁, -, hfront, -, -⟩ := hrun.split
    exact row_of_fits hfits ((hcondition.row hfront).append (Nat.le_refl _) (ih hback))
  | ifElse hkeyword hcondition hbody helse halternative ihbody ihalternative =>
    have hfits :=
      (SpellsStatement.ifElse hkeyword hcondition hbody helse halternative).fits hrun
    obtain ⟨m₄, hrun, hback, -, -⟩ := hrun.split
    obtain ⟨m₃, hrun, hotherwise, -, -⟩ := hrun.split
    obtain ⟨m₂, hrun, hmiddle, -, -⟩ := hrun.split
    obtain ⟨m₁, -, hfront, -, -⟩ := hrun.split
    -- The part from `else` on is a node of its own, with the other statement below it.
    have hother : (alternative _ _).Fits m₃ last := fits_last (helse.lies hotherwise)
      (Nat.le_refl _) (SpellsStatement.fits halternative hback) rfl rfl rfl
    have hbehind := (ihbody hmiddle).append (Nat.le_refl _)
      (row_of_fits hother (ihalternative hback))
    exact row_of_fits hfits ((hcondition.row hfront).append (Nat.le_refl _) hbehind)
  | «for» hkeyword hopening hinit hfirst hcondition hsecond hstep hclosing hbody ihstep ihbody =>
    have hfits := (SpellsStatement.for hkeyword hopening hinit hfirst hcondition hsecond hstep
      hclosing hbody).fits hrun
    obtain ⟨m₈, hrun, hback, -, -⟩ := hrun.split
    obtain ⟨m₇, hrun, -, -, hle₈⟩ := hrun.split
    obtain ⟨m₆, hrun, hinside, -, -⟩ := hrun.split
    obtain ⟨m₅, hrun, -, -, hle₆⟩ := hrun.split
    obtain ⟨m₄, hrun, hmiddle, -, -⟩ := hrun.split
    obtain ⟨m₃, hrun, -, -, hle₄⟩ := hrun.split
    obtain ⟨m₂, -, hfront, -, -⟩ := hrun.split
    have hbehind := (ihstep hinside).append hle₈ (ihbody hback)
    have hbehind := (hcondition.row hmiddle).append hle₆ hbehind
    exact row_of_fits hfits ((hinit.row hfront).append hle₄ hbehind)
  | none => exact hrun
  | cons _ _ ih ihothers =>
    obtain ⟨m₁, hfront, hback, -, -⟩ := hrun.split
    exact (ih hfront).append (Nat.le_refl _) (ihothers hback)

theorem BlockSpelling.row {b : Block} (h : BlockSpelling b tokens) (hrun : Run first last tokens) :
    Row first last [statement b.toStatement] := by
  cases h with
  | intro hopening h hclosing => exact (SpellsStatement.block hopening h hclosing).row hrun

/-! ### Members -/

theorem ParameterSpelling.row {p : Parameter} (h : ParameterSpelling p tokens)
    (hrun : Run first last tokens) : Row first last [parameter p] := by
  have hfits := h.fits hrun
  cases h with
  | intro _ htype =>
    obtain ⟨m₁, -, hback, -, -⟩ := hrun.split
    exact row_of_fits hfits (htype.row hback)

theorem Separated.row {parameters : List Parameter}
    (h : Separated ParameterSpelling parameters tokens) (hrun : Run first last tokens) :
    Row first last (parameters.map parameter) := by
  induction h generalizing first last with
  | last h => exact h.row hrun
  | more h _ _ ih =>
    obtain ⟨m₂, hrun, hback, -, -⟩ := hrun.split
    obtain ⟨m₁, hfront, -, -, hle⟩ := hrun.split
    exact (h.row hfront).append hle (ih hback)

theorem Listed.row {parameters : List Parameter} (h : Listed ParameterSpelling parameters tokens)
    (hrun : Run first last tokens) : Row first last (parameters.map parameter) := by
  induction h generalizing first last with
  | none => exact hrun
  | last h => exact h.row hrun
  | more h _ _ ih =>
    obtain ⟨m₂, hrun, hback, -, -⟩ := hrun.split
    obtain ⟨m₁, hfront, -, -, hle⟩ := hrun.split
    exact (h.row hfront).append hle (ih hback)

theorem ParameterListSpelling.row {list : List Parameter × Span}
    (h : ParameterListSpelling list tokens) (hrun : Run first last tokens) :
    Row first last (list.1.map parameter) := by
  cases h with
  | none _ _ => exact hrun.le
  | some _ hparameters _ =>
    obtain ⟨m₂, hrun, -, -, hle₂⟩ := hrun.split
    obtain ⟨m₁, -, hinside, hle₁, -⟩ := hrun.split
    exact (hparameters.row hinside).mono hle₁ hle₂

theorem FunctionSpelling.row {f : FunctionDeclaration} (h : FunctionSpelling f tokens)
    (hrun : Run first last tokens) : Row first last [member (.function f)] := by
  have hfits := h.fits hrun
  cases h with
  | intro _ _ _ hparameters hreturn hbody =>
    obtain ⟨m₅, hrun, hback, -, -⟩ := hrun.split
    obtain ⟨m₄, hrun, hclause, -, -⟩ := hrun.split
    obtain ⟨m₃, -, hlist, -, -⟩ := hrun.split
    have hreturn := hreturn.row hclause fun _ h => TypeSpelling.row h hclause
    have hsignature := (hparameters.row hlist).append (Nat.le_refl _) hreturn
    exact row_of_fits hfits (hsignature.append (Nat.le_refl _) (hbody.row hback))

theorem MemberSpelling.row {m : Member} (h : MemberSpelling m tokens)
    (hrun : Run first last tokens) : Row first last [member m] := by
  have hfits := h.fits hrun
  cases h with
  | statement h => exact row_of_fits hfits (SpellsStatement.row h hrun)
  | function h => exact h.row hrun
  | external _ _ _ hparameters hreturn _ =>
    obtain ⟨m₅, hrun, -, -, -⟩ := hrun.split
    obtain ⟨m₄, hrun, hclause, -, -⟩ := hrun.split
    obtain ⟨m₃, -, hlist, -, -⟩ := hrun.split
    have hreturn := hreturn.row hclause fun _ h => TypeSpelling.row h hclause
    exact row_of_fits hfits ((hparameters.row hlist).append (Nat.le_refl _) hreturn)
  | struct _ _ _ hfields _ _ =>
    obtain ⟨m₅, hrun, -, -, -⟩ := hrun.split
    obtain ⟨m₄, hrun, -, -, -⟩ := hrun.split
    obtain ⟨m₃, -, hinside, -, -⟩ := hrun.split
    exact row_of_fits hfits (hfields.row hinside)
  | packageReference _ _ _ | packageUse _ _ _ => exact row_leaf hfits rfl

theorem ProgramSpelling.row {members : List Member} (h : ProgramSpelling members tokens)
    (hrun : Run first last tokens) : Row first last (members.map member) := by
  induction h generalizing first last with
  | nil => exact hrun
  | cons h _ ih =>
    obtain ⟨m₁, hfront, hback, -, -⟩ := hrun.split
    exact (h.row hfront).append (Nat.le_refl _) (ih hback)

end

/-- In the tree of a source, each member stops before the next one starts, and so do the nodes
directly below every node, in the order of the grammar. No node has an empty region. -/
theorem siblings_disjoint {file : Nat} {hashComments : Bool} {source : String}
    {tokens : List Token} {members : List Member}
    (htokens : tokenize file hashComments source = .ok tokens)
    (hparse : parseProgram tokens = .ok members) :
    members.Pairwise (fun a b => a.span.stop ≤ b.span.start) ∧
      ∀ m ∈ members, ∀ node, Node.Within node (.member m) →
        node.span.start < node.span.stop ∧
          node.children.Pairwise fun a b => a.span.stop ≤ b.span.start := by
  have hrow := (parseProgram_spelling hparse).row (laid_tokenize htokens).run
  refine ⟨List.pairwise_map.1 hrow.pairwise, ?_⟩
  intro m hm node hwithin
  exact hrow.everywhere _ (List.mem_map_of_mem hm) node hwithin

/-- Two members, the first of them a cast that starts behind the package of its own type. -/
theorem siblings_disjoint_cast :
    let tokens : List Token :=
      [⟨.identifier, "p", none, ⟨0, 0, 1, 1, 1, 1, 2⟩, false⟩,
       ⟨.sign .pathSep, "::", none, ⟨0, 1, 3, 1, 2, 1, 4⟩, false⟩,
       ⟨.identifier, "a", none, ⟨0, 3, 4, 1, 4, 1, 5⟩, false⟩,
       ⟨.sign .lbrack, "[", none, ⟨0, 4, 5, 1, 5, 1, 6⟩, false⟩,
       ⟨.identifier, "int", none, ⟨0, 5, 8, 1, 6, 1, 9⟩, false⟩,
       ⟨.sign .rbrack, "]", none, ⟨0, 8, 9, 1, 9, 1, 10⟩, false⟩,
       ⟨.sign .lparen, "(", none, ⟨0, 9, 10, 1, 10, 1, 11⟩, false⟩,
       ⟨.identifier, "x", none, ⟨0, 10, 11, 1, 11, 1, 12⟩, false⟩,
       ⟨.sign .comma, ",", none, ⟨0, 11, 12, 1, 12, 1, 13⟩, false⟩,
       ⟨.identifier, "y", none, ⟨0, 12, 13, 1, 13, 1, 14⟩, false⟩,
       ⟨.sign .rparen, ")", none, ⟨0, 13, 14, 1, 14, 1, 15⟩, false⟩,
       ⟨.identifier, "z", none, ⟨0, 14, 15, 1, 15, 1, 16⟩, true⟩,
       Token.ending ⟨0, 15, 15, 1, 16, 1, 16⟩]
    let clause : TypeClause :=
      ⟨some ⟨"p", ⟨0, 0, 1, 1, 1, 1, 2⟩⟩, ⟨"a", ⟨0, 3, 4, 1, 4, 1, 5⟩⟩,
        [⟨none, ⟨"int", ⟨0, 5, 8, 1, 6, 1, 9⟩⟩, [], none⟩], some ⟨0, 8, 9, 1, 9, 1, 10⟩⟩
    let cast : Expression :=
      .cast clause
        [.name ⟨"x", ⟨0, 10, 11, 1, 11, 1, 12⟩⟩, .name ⟨"y", ⟨0, 12, 13, 1, 13, 1, 14⟩⟩]
        ⟨0, 13, 14, 1, 14, 1, 15⟩
    let members : List Member :=
      [.statement (.expression cast),
       .statement (.expression (.name ⟨"z", ⟨0, 14, 15, 1, 15, 1, 16⟩⟩))]
    tokenize 0 true "p::a[int](x,y)z" = .ok tokens ∧ parseProgram tokens = .ok members ∧
      members.Pairwise (fun a b => a.span.stop ≤ b.span.start) ∧
      ∀ m ∈ members, ∀ node, Node.Within node (.member m) →
        node.span.start < node.span.stop ∧
          node.children.Pairwise fun a b => a.span.stop ≤ b.span.start := by
  intro tokens clause cast members
  have htokens : tokenize 0 true "p::a[int](x,y)z" = .ok tokens := by
    decide +kernel
  have hparse : parseProgram tokens = .ok members := by
    dsimp only [tokens, members, cast, clause]
    cbv
  exact ⟨htokens, hparse, siblings_disjoint htokens hparse⟩

end TodLang
