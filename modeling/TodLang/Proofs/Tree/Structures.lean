import TodLang.Proofs.Tree.Nesting
/-!
Where structures are made with their fields. Such an expression begins with one token and ends with
another, so that its region is not the one of a single token (`Spanning.ne_span`).
-/

namespace TodLang

mutual

/-- The regions of the expressions that make a structure with its fields, in an expression. -/
def Expression.structures : Expression → List Span
  | .literal _ | .this _ | .name _ | .step _ _ | .fieldAccess _ _ | .reference _ _ => []
  | .parenthesized _ e _ | .assignment _ e | .unary _ e | .edit _ _ e | .fieldAssignment _ _ e
  | .dereference _ e | .makeSized _ _ e _ | .main _ e => e.structures
  | .binary left _ right => left.structures ++ right.structures
  | .arrayAccess array index _ => array.structures ++ index.structures
  | .arrayAssignment array index value =>
    array.structures ++ index.structures ++ value.structures
  | .call _ es _ | .cast _ es _ | .packageCall _ _ es _ | .typeCall _ _ es _ | .make _ _ es _
  | .makeArray _ _ es _ => Expression.structuresAll es
  | .makeStruct keyword _ fields closing =>
    Expression.structuresAll fields ++ [keyword.cover closing]

/-- The regions where structures are made in expressions one after another. -/
def Expression.structuresAll : List Expression → List Span
  | [] => []
  | e :: others => e.structures ++ Expression.structuresAll others

end

/-- The regions where structures are made in the value of a variable's declaration. -/
def VariableDeclaration.structures (d : VariableDeclaration) : List Span :=
  d.value.elim [] Expression.structures

mutual

/-- The regions where structures are made in a statement. -/
def Statement.structures : Statement → List Span
  | .block _ statements _ => Statement.structuresAll statements
  | .declaration d => d.structures
  | .ifThen _ condition body | .while _ condition body =>
    condition.structures ++ body.structures
  | .ifElse _ condition body _ alternative =>
    condition.structures ++ body.structures ++ alternative.structures
  | .return _ value => value.elim [] Expression.structures
  | .for _ init condition step body =>
    init.structures ++ condition.structures ++ step.structures ++ body.structures
  | .break _ | .continue _ => []
  | .expression e => e.structures

/-- The regions where structures are made in statements one after another. -/
def Statement.structuresAll : List Statement → List Span
  | [] => []
  | s :: others => s.structures ++ Statement.structuresAll others

end

/-- The regions where structures are made in a member. -/
def Member.structures : Member → List Span
  | .function f => Statement.structuresAll f.body.statements
  | .statement s => s.structures
  | _ => []

/-! ### Regions of more than one token -/

/-- Whether a region goes from one token to another one behind it. -/
def Spanning (tokens : List Token) (span : Span) : Prop :=
  ∃ t u, List.Sublist [t, u] tokens ∧ span = t.span.cover u.span

/-- Whether all regions go from one token to another one. -/
def Spanned (tokens : List Token) (spans : List Span) : Prop :=
  ∀ span ∈ spans, Spanning tokens span

namespace Spanned

variable {tokens front back : List Token} {spans others : List Span}

theorem none : Spanned tokens [] :=
  List.forall_mem_nil _

theorem both (h : Spanned tokens spans) (hothers : Spanned tokens others) :
    Spanned tokens (spans ++ others) :=
  List.forall_mem_append.2 ⟨h, hothers⟩

theorem mono (h : Spanned front spans) (htokens : List.Sublist front tokens) :
    Spanned tokens spans := by
  intro span hspan
  obtain ⟨t, u, hsublist, hcover⟩ := h span hspan
  exact ⟨t, u, hsublist.trans htokens, hcover⟩

/-- Before other tokens. -/
theorem before (h : Spanned front spans) (back : List Token) : Spanned (front ++ back) spans :=
  h.mono (List.sublist_append_left front back)

/-- After other tokens. -/
theorem after (h : Spanned back spans) (front : List Token) : Spanned (front ++ back) spans :=
  h.mono (List.sublist_append_right front back)

theorem append (h : Spanned front spans) (hothers : Spanned back others) :
    Spanned (front ++ back) (spans ++ others) :=
  (h.before back).both (hothers.after front)

end Spanned

/-- What goes from one mark to another one. -/
theorem Marks.spanning {kind kind' : TokenKind} {a b : Span} {front back : List Token}
    (ha : Marks kind a front) (middle : List Token) (hb : Marks kind' b back) :
    Spanning (front ++ (middle ++ back)) (a.cover b) := by
  cases ha with
  | @token t _ =>
    cases hb with
    | @token u _ =>
      have hbehind : List.Sublist [u] (middle ++ [u]) := List.sublist_append_right middle [u]
      exact ⟨t, u, hbehind.cons_cons t, rfl⟩

/-- The regions where structures are made in a piece of an expression. -/
def ExpressionPart.structures : ExpressionPart → List Span
  | expression e | operation _ e | operand e | accessed e | primary e | own e => e.structures
  | arguments es => Expression.structuresAll es

/-- An expression that makes a structure begins with a word and ends with a brace. -/
theorem SpellsExpression.spanned {part : ExpressionPart} {tokens : List Token}
    (h : SpellsExpression part tokens) : Spanned tokens part.structures := by
  induction h with
  | assignment _ _ _ ih | edit _ _ _ _ ih => exact ih.after _
  | step _ _ _ _ _ => exact .none
  | operation _ ih | operand _ ih | accessed _ ih | primary _ ih => exact ih
  | unary _ _ _ _ ih => exact ih.after _
  | binary _ _ _ _ ihleft ihright => exact (ihleft.before _).append ihright
  | arrayAssignment _ _ _ _ _ _ iharray ihindex ihvalue =>
    exact (((iharray.before _).append ihindex).before _ |>.before _).append ihvalue
  | arrayAccess _ _ _ _ iharray ihindex => exact ((iharray.before _).append ihindex).before _
  | literal _ | this _ | reference _ _ | name _ | ownName _ | fieldAccess _ _ _ => exact .none
  | parenthesized _ _ _ ih => exact (ih.after _).before _
  | dereference _ _ ih => exact ih.after _
  | call _ _ _ _ ih | packageCall _ _ _ _ _ _ ih | typeCall _ _ _ _ _ _ ih
  | cast _ _ _ _ _ ih | make _ _ _ _ _ _ ih | makeSized _ _ _ _ _ _ ih
  | makeArray _ _ _ _ _ _ ih | element _ _ _ _ ih => exact (ih.after _).before _
  | fieldAssignment _ _ _ _ _ ih => exact ih.after _
  | elementAssignment _ _ _ _ _ _ ihindex ihvalue =>
    exact ((ihindex.after _).before _ |>.before _).append ihvalue
  | @makeStruct keyword closing _ _ _ front opened inside _ hkeyword _ _ _ _ hclosing ih =>
    apply ((ih.after _).before _).both
    intro span hspan
    rw [List.mem_singleton.1 hspan, List.append_assoc, List.append_assoc, List.append_assoc,
      ← List.append_assoc opened, ← List.append_assoc front]
    exact hkeyword.spanning (front ++ (opened ++ inside)) hclosing
  | main _ _ _ _ _ ih => exact ih.after [_]
  | ownCall _ ih | ownAssignment _ ih => exact ih
  | last _ ih => exact ih.both Spanned.none
  | none => exact .none
  | more _ _ _ ih ihothers => exact (ih.before _).append ihothers

theorem ExpressionSpelling.spanned {e : Expression} {tokens : List Token}
    (h : ExpressionSpelling e tokens) : Spanned tokens e.structures :=
  SpellsExpression.spanned h

theorem ConditionSpelling.spanned {condition : Expression} {tokens : List Token}
    (h : ConditionSpelling condition tokens) : Spanned tokens condition.structures := by
  cases h with
  | intro _ hcondition _ => exact (hcondition.spanned.after _).before _

/-- A value that may be missing. -/
theorem Optionally.spanned {value : Option Expression} {tokens : List Token}
    {spells : Expression → List Token → Prop}
    (hspells : ∀ e front, spells e front → Spanned front e.structures)
    (h : Optionally spells value tokens) :
    Spanned tokens (value.elim [] Expression.structures) := by
  cases h with
  | missing => exact .none
  | present h => exact hspells _ _ h

theorem DeclarationSpelling.spanned {d : VariableDeclaration} {tokens : List Token}
    (h : DeclarationSpelling d tokens) : Spanned tokens d.structures := by
  cases h with
  | intro _ _ _ hvalue =>
    apply Spanned.after
    apply hvalue.spanned
    intro e front hinitial
    cases hinitial with
    | intro _ hvalue => exact hvalue.spanned.after _

/-- The regions where structures are made in a piece of the statements. -/
def StatementPart.structures : StatementPart → List Span
  | statement s | bare s => s.structures
  | statements ss => Statement.structuresAll ss

theorem SpellsStatement.spanned {part : StatementPart} {tokens : List Token}
    (h : SpellsStatement part tokens) : Spanned tokens part.structures := by
  induction h with
  | statement _ _ ih => exact ih.before _
  | declaration h => exact h.spanned
  | block _ _ _ ih => exact (ih.after _).before _
  | ifThen _ hcondition _ ih | «while» _ hcondition _ ih =>
    exact (hcondition.spanned.after _).append ih
  | ifElse _ hcondition _ _ _ ihbody ihalternative =>
    exact (((hcondition.spanned.after _).append ihbody).before _).append ihalternative
  | «return» _ hvalue => exact (hvalue.spanned fun _ _ => ExpressionSpelling.spanned).after _
  | @«for» _ _ _ _ _ word opened _ first _ second _ closed _ _ _ hinit _ hcondition _ _ _ _
      ihstep ihbody =>
    have hinit := (hinit.spanned.after (word ++ opened)).before first
    have hstep := ((hinit.append hcondition.spanned).before second).append ihstep
    exact (hstep.before closed).append ihbody
  | «break» _ | «continue» _ => exact .none
  | expression h => exact h.spanned
  | none => exact .none
  | cons _ _ ih ihothers => exact ih.append ihothers

theorem MemberSpelling.spanned {member : Member} {tokens : List Token}
    (h : MemberSpelling member tokens) : Spanned tokens member.structures := by
  cases h with
  | statement h => exact SpellsStatement.spanned h
  | function h =>
    cases h with
    | intro _ _ _ _ _ hbody =>
      cases hbody with
      | intro _ h _ => exact ((h.spanned.after _).before _).after _
  | external _ _ _ _ _ _ | struct _ _ _ _ _ _ | packageReference _ _ _ | packageUse _ _ _ =>
    exact .none

theorem ProgramSpelling.spanned {members : List Member} {tokens : List Token}
    (h : ProgramSpelling members tokens) :
    ∀ member ∈ members, Spanned tokens member.structures := by
  induction h with
  | nil => exact List.forall_mem_nil _
  | cons h _ ih =>
    exact List.forall_mem_cons.2
      ⟨h.spanned.before _, fun member hmember => (ih member hmember).after _⟩

/-! ### Regions that are no token's -/

section

variable {tokens : List Token} {first last : Nat}

theorem Run.lies_of_mem (h : Run first last tokens) {t : Token} (ht : t ∈ tokens) :
    t.span.Lies first last := by
  obtain ⟨front, back, rfl⟩ := List.append_of_mem ht
  obtain ⟨middle, -, ⟨hstart, hlt, hback⟩, hle, -⟩ := h.split
  have hlast := hback.le
  omega

theorem Run.pairwise (h : Run first last tokens) :
    tokens.Pairwise fun t u => t.span.stop ≤ u.span.start := by
  induction tokens generalizing first with
  | nil => exact .nil
  | cons t others ih =>
    obtain ⟨-, -, hothers⟩ := h
    exact List.pairwise_cons.2 ⟨fun u hu => (hothers.lies_of_mem hu).1, ih hothers⟩

/-- A region that goes from one token to another one is not that of a token. -/
theorem Spanning.ne_span {span : Span} (h : Spanning tokens span) (hrun : Run first last tokens)
    {v : Token} (hv : v ∈ tokens) : v.span ≠ span := by
  obtain ⟨t, u, hsublist, rfl⟩ := h
  intro hspan
  have hstart := Span.cover_start t.span u.span
  have hstop := Span.cover_stop t.span u.span
  rw [← hspan] at hstart hstop
  have ht : t ∈ tokens := hsublist.subset List.mem_cons_self
  have hnonempty := hrun.lies_of_mem ht
  have hnonempty' := hrun.lies_of_mem (hsublist.subset (List.mem_cons_of_mem t List.mem_cons_self))
  have hbehind : t.span.stop ≤ u.span.start :=
    List.rel_of_pairwise_cons (hrun.pairwise.sublist hsublist) List.mem_cons_self
  obtain ⟨front, back, rfl⟩ := List.append_of_mem hv
  obtain ⟨-, hback, hfront⟩ := List.pairwise_append.1 hrun.pairwise
  rcases List.mem_append.1 ht with ht | ht
  · have hbefore := hfront t ht v List.mem_cons_self
    omega
  · rcases List.mem_cons.1 ht with rfl | ht
    · omega
    · have hafter := List.rel_of_pairwise_cons hback ht
      omega

end

end TodLang
