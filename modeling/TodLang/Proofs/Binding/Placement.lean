import Mathlib.Data.List.Perm.Subperm
import TodLang.Proofs.Binding.References
import TodLang.Proofs.Grammar.Spelling
/-!
Where the names of references stand among the tokens. Every name of a reference is a token of its
own, and references are bound in the order in which they are written, but for those that stand in
front of something that is bound first: the name in front of arguments or of an assigned value, and
the type in front of a local variable's value. `InOrder` says for which names this makes no
difference.
-/

namespace TodLang

/-- The names of references, one after another. -/
def namesOf (references : List Reference) : List Ident :=
  references.flatMap Reference.names

theorem namesOf_append (front back : List Reference) :
    namesOf (front ++ back) = namesOf front ++ namesOf back :=
  List.flatMap_append

theorem namesOf_single (r : Reference) : namesOf [r] = r.names :=
  List.flatMap_singleton ..

theorem namesOf_flatMap {α : Type} (f : α → List Reference) (l : List α) :
    namesOf (l.flatMap f) = l.flatMap fun x => namesOf (f x) :=
  List.flatMap_assoc

/-- Behind `main`, the names are the same. -/
theorem namesOf_main (keyword : Span) (inner : Expression) :
    namesOf (Expression.main keyword inner).references = namesOf inner.references := by
  have hown : ∀ references : List Reference,
      namesOf (references.map .own) = namesOf references := by
    intro references
    exact List.flatMap_map ..
  cases inner with
  | call callee arguments closing =>
    rw [Expression.references, Expression.references, namesOf_append, namesOf_append,
      namesOf_single, namesOf_single]
    rfl
  | assignment target value =>
    rw [Expression.references, Expression.references, namesOf_append, namesOf_append,
      namesOf_single, namesOf_single]
    rfl
  | _ => exact hown _

/-- Whether not both of two lists have one of the names that count. -/
def Apart (among : Ident → Prop) (front back : List Ident) : Prop :=
  ∀ a ∈ front, ∀ b ∈ back, ¬ (among a ∧ among b)

/-! ### Where the order of binding is that of the source -/

section

variable (among : Ident → Prop)

mutual

/-- Whether no name that counts is bound before another one that is written before it: a name that
is called or assigned to counts for itself only if none does in its arguments or its value. -/
def Expression.InOrder : Expression → Prop
  | .literal _ | .this _ | .name _ | .step _ _ | .fieldAccess _ _ | .reference _ _ => True
  | .parenthesized _ inner _ | .unary _ inner | .dereference _ inner | .main _ inner =>
    inner.InOrder
  | .assignment target value | .edit target _ value =>
    value.InOrder ∧ Apart among [target] (namesOf value.references)
  | .call callee arguments _ =>
    Expression.AllInOrder arguments ∧
      Apart among [callee] (namesOf (Expression.referencesAll arguments))
  | .cast type arguments _ =>
    Expression.AllInOrder arguments ∧
      Apart among [type.name] (namesOf (Expression.referencesAll arguments))
  | .packageCall package callee arguments _ =>
    Expression.AllInOrder arguments ∧
      Apart among [package, callee] (namesOf (Expression.referencesAll arguments))
  | .typeCall receiver callee arguments _ =>
    Expression.AllInOrder arguments ∧
      Apart among [receiver, callee] (namesOf (Expression.referencesAll arguments))
  | .binary left _ right => left.InOrder ∧ right.InOrder
  | .fieldAssignment object field value =>
    value.InOrder ∧ Apart among [object, field] (namesOf value.references)
  | .arrayAccess array index _ => array.InOrder ∧ index.InOrder
  | .arrayAssignment array index value => (array.InOrder ∧ index.InOrder) ∧ value.InOrder
  | .make _ _ arguments _ | .makeArray _ _ arguments _ | .makeStruct _ _ arguments _ =>
    Expression.AllInOrder arguments
  | .makeSized _ _ length _ => length.InOrder

def Expression.AllInOrder : List Expression → Prop
  | [] => True
  | e :: others => e.InOrder ∧ Expression.AllInOrder others

end

/-- A local variable's type is written before its value and bound behind it. -/
def VariableDeclaration.InOrder (d : VariableDeclaration) : Prop :=
  d.value.elim True (Expression.InOrder among) ∧
    Apart among (namesOf d.typeReferences) (namesOf d.valueReferences)

mutual

def Statement.InOrder : Statement → Prop
  | .block _ statements _ => Statement.AllInOrder statements
  | .declaration d => d.InOrder among
  | .ifThen _ condition body | .while _ condition body =>
    condition.InOrder among ∧ body.InOrder
  | .ifElse _ condition body _ alternative =>
    (condition.InOrder among ∧ body.InOrder) ∧ alternative.InOrder
  | .return _ value => value.elim True (Expression.InOrder among)
  | .for _ init condition step body =>
    ((init.InOrder among ∧ condition.InOrder among) ∧ step.InOrder) ∧ body.InOrder
  | .break _ => True
  | .continue _ => True
  | .expression e => e.InOrder among

def Statement.AllInOrder : List Statement → Prop
  | [] => True
  | s :: others => s.InOrder ∧ Statement.AllInOrder others

end

/-- The type of a global variable is bound in an earlier stage than its value. -/
def Member.InOrder : Member → Prop
  | .function f => Statement.AllInOrder among f.body.statements
  | .statement (.declaration d) => d.value.elim True (Expression.InOrder among)
  | .statement s => s.InOrder among
  | _ => True

/-- In a program, the names that count must also be apart where a member has one that is bound in a
later stage than one of a member behind it. -/
def ProgramInOrder (accepted : StructDeclaration → Bool) (members : List Member) : Prop :=
  (∀ member ∈ members, member.InOrder among) ∧
    Stage.all.Pairwise fun stage later => members.Pairwise fun member other =>
      Apart among (namesOf (member.references accepted later))
        (namesOf (other.references accepted stage))

end

/-! ### References among tokens -/

/-- Two rows of lists that are taken by turns: in order if each row is and what comes of the second
row is in order with what comes of the first row later on. -/
theorem pairwise_flatMap_append {α β : Type} {R : β → β → Prop} {f g : α → List β} {l : List α}
    (hacross : ∀ x ∈ l, ∀ y ∈ l, ∀ a ∈ f x, ∀ b ∈ g y, R a b) :
    (l.flatMap fun x => f x ++ g x).Pairwise R ↔
      ((l.flatMap f).Pairwise R ∧ (l.flatMap g).Pairwise R) ∧
        l.Pairwise fun x y => ∀ b ∈ g x, ∀ a ∈ f y, R b a := by
  simp only [List.pairwise_flatMap, List.pairwise_append, List.mem_append]
  constructor
  · rintro ⟨heach, hlater⟩
    refine ⟨⟨⟨fun x hx => (heach x hx).1, ?_⟩, fun x hx => (heach x hx).2.1, ?_⟩, ?_⟩
    · exact hlater.imp fun hxy a ha b hb => hxy a (.inl ha) b (.inl hb)
    · exact hlater.imp fun hxy a ha b hb => hxy a (.inr ha) b (.inr hb)
    · exact hlater.imp fun hxy b hb a ha => hxy b (.inr hb) a (.inl ha)
  · rintro ⟨⟨⟨hfeach, hflater⟩, hgeach, hglater⟩, hturn⟩
    constructor
    · intro x hx
      exact ⟨hfeach x hx, hgeach x hx, hacross x hx x hx⟩
    · apply ((hflater.and hglater).and hturn).imp_of_mem
      rintro x y hx hy ⟨⟨hfxy, hgxy⟩, hxy⟩ a (ha | ha) b (hb | hb)
      · exact hfxy a ha b hb
      · exact hacross x hx y hy a ha b hb
      · exact hxy a ha b hb
      · exact hgxy a ha b hb

/-- Whether the names of references are tokens, each of them another one, and where the tokens are
in their order, the names that count stand in theirs exactly under a condition. -/
structure Placed (among : Ident → Prop) (tokens : List Token) (references : List Reference)
    (ordered : Prop) : Prop where
  names : List.Subperm (namesOf references) (tokens.map Token.ident)
  ordered : tokens.Pairwise (fun t u => t.span.start < u.span.start) →
    ((namesOf references).Pairwise
      (fun a b => among a → among b → a.span.start ≤ b.span.start) ↔ ordered)

namespace Placed

variable {among : Ident → Prop} {front back tokens : List Token}
  {references others : List Reference} {ok ok' : Prop}

/-- Names that are tokens in their order. -/
theorem ofSublist (h : List.Sublist (namesOf references) (tokens.map Token.ident)) :
    Placed among tokens references True := by
  refine ⟨h.subperm, ?_⟩
  intro hordered
  have hidents : (tokens.map Token.ident).Pairwise (·.span.start < ·.span.start) :=
    List.pairwise_map.2 hordered
  have hnames : (namesOf references).Pairwise (·.span.start < ·.span.start) := hidents.sublist h
  exact iff_true_intro (hnames.imp fun hlt _ _ => Nat.le_of_lt hlt)

theorem none : Placed among tokens [] True :=
  ofSublist (List.nil_sublist _)

/-- What stands in front is before what stands behind. -/
theorem start_lt (h : Placed among front references ok) (h' : Placed among back others ok')
    (hordered : (front ++ back).Pairwise (fun t u => t.span.start < u.span.start)) {a b : Ident}
    (ha : a ∈ namesOf references) (hb : b ∈ namesOf others) : a.span.start < b.span.start := by
  obtain ⟨t, ht, rfl⟩ := List.mem_map.1 (h.names.subset ha)
  obtain ⟨u, hu, rfl⟩ := List.mem_map.1 (h'.names.subset hb)
  exact (List.pairwise_append.1 hordered).2.2 t ht u hu

theorem append (h : Placed among front references ok) (h' : Placed among back others ok') :
    Placed among (front ++ back) (references ++ others) (ok ∧ ok') := by
  constructor
  · rw [namesOf_append, List.map_append]
    exact h.names.append h'.names
  · intro hordered
    rcases List.pairwise_append.1 hordered with ⟨hfront, hback, -⟩
    have hacross : ∀ a ∈ namesOf references, ∀ b ∈ namesOf others,
        among a → among b → a.span.start ≤ b.span.start := by
      intro a ha b hb _ _
      exact Nat.le_of_lt (h.start_lt h' hordered ha hb)
    rw [namesOf_append, List.pairwise_append, h.ordered hfront, h'.ordered hback]
    constructor
    · rintro ⟨hok, hok', -⟩
      exact ⟨hok, hok'⟩
    · rintro ⟨hok, hok'⟩
      exact ⟨hok, hok', hacross⟩

/-- What stands in front is bound behind. -/
theorem behind (h : Placed among front references True) (h' : Placed among back others ok') :
    Placed among (front ++ back) (others ++ references)
      (ok' ∧ Apart among (namesOf references) (namesOf others)) := by
  constructor
  · rw [namesOf_append, List.map_append]
    exact List.perm_append_comm.subperm.trans (h.names.append h'.names)
  · intro hordered
    rcases List.pairwise_append.1 hordered with ⟨hfront, hback, -⟩
    rw [namesOf_append, List.pairwise_append, h'.ordered hback, h.ordered hfront]
    constructor
    · rintro ⟨hok', -, hacross⟩
      refine ⟨hok', ?_⟩
      rintro a ha b hb ⟨hamong, hamong'⟩
      have hlt := h.start_lt h' hordered ha hb
      have hle := hacross b hb a ha hamong' hamong
      omega
    · rintro ⟨hok', hapart⟩
      refine ⟨hok', trivial, ?_⟩
      intro b hb a ha hamong' hamong
      exact absurd ⟨hamong, hamong'⟩ (hapart a ha b hb)

theorem congr (h : Placed among tokens references ok) (hok : ok ↔ ok') :
    Placed among tokens references ok' :=
  ⟨h.names, fun hordered => (h.ordered hordered).trans hok⟩

/-- Two pieces that are bound in the same steps, each step in one piece before the other: the names
that count must be apart where the front piece is bound in a later step than the back piece. -/
theorem interleave {α : Type} {steps : List α} {f g : α → List Reference}
    (h : Placed among front (steps.flatMap f) ok) (h' : Placed among back (steps.flatMap g) ok') :
    Placed among (front ++ back) (steps.flatMap fun x => f x ++ g x)
      ((ok ∧ ok') ∧ steps.Pairwise fun x y => Apart among (namesOf (f y)) (namesOf (g x))) := by
  constructor
  · have hperm : List.Perm (steps.flatMap fun x => f x ++ g x)
        (steps.flatMap f ++ steps.flatMap g) := (List.flatMap_append_perm steps f g).symm
    have hnames := h.names.append h'.names
    rw [← namesOf_append, ← List.map_append] at hnames
    exact (hperm.flatMap_right Reference.names).subperm.trans hnames
  · intro hordered
    rcases List.pairwise_append.1 hordered with ⟨hfront, hback, -⟩
    have hacross : ∀ x ∈ steps, ∀ y ∈ steps, ∀ a ∈ namesOf (f x), ∀ b ∈ namesOf (g y),
        a.span.start < b.span.start := by
      intro x hx y hy a ha b hb
      apply h.start_lt h' hordered
      · rw [namesOf_flatMap]
        exact List.mem_flatMap.2 ⟨x, hx, ha⟩
      · rw [namesOf_flatMap]
        exact List.mem_flatMap.2 ⟨y, hy, hb⟩
    have hbefore : ∀ x ∈ steps, ∀ y ∈ steps, ∀ a ∈ namesOf (f x), ∀ b ∈ namesOf (g y),
        among a → among b → a.span.start ≤ b.span.start := by
      intro x hx y hy a ha b hb _ _
      exact Nat.le_of_lt (hacross x hx y hy a ha b hb)
    have hapart : (steps.Pairwise fun x y => ∀ b ∈ namesOf (g x), ∀ a ∈ namesOf (f y),
          among b → among a → b.span.start ≤ a.span.start) ↔
        steps.Pairwise fun x y => Apart among (namesOf (f y)) (namesOf (g x)) := by
      apply List.Pairwise.iff_of_mem
      intro x y hx hy
      constructor
      · rintro hle a ha b hb ⟨hamong, hamong'⟩
        have hlt := hacross y hy x hx a ha b hb
        have hle := hle b hb a ha hamong' hamong
        omega
      · intro hapart b hb a ha hamong hamong'
        exact absurd ⟨hamong', hamong⟩ (hapart a ha b hb)
    rw [← hapart, ← h.ordered hfront, ← h'.ordered hback, namesOf_flatMap, namesOf_flatMap,
      namesOf_flatMap]
    simp only [namesOf_append]
    exact pairwise_flatMap_append hbefore

theorem ofNames (h : Placed among tokens references ok)
    (hnames : namesOf others = namesOf references) : Placed among tokens others ok := by
  constructor
  · rw [hnames]
    exact h.names
  · rw [hnames]
    exact h.ordered

/-- Before other tokens. -/
theorem before (h : Placed among front references ok) (back : List Token) :
    Placed among (front ++ back) references ok := by
  have hall := (h.append (none : Placed among back [] True)).congr (iff_of_eq (and_true ok))
  rwa [List.append_nil] at hall

/-- After other tokens. -/
theorem after (h : Placed among back references ok) (front : List Token) :
    Placed among (front ++ back) references ok :=
  ((none : Placed among front [] True).append h).congr (iff_of_eq (true_and ok))

/-- What stands in front is bound in front, and its own order is no question. -/
theorem beside (h : Placed among front references True) (h' : Placed among back others ok) :
    Placed among (front ++ back) (references ++ others) ok :=
  (h.append h').congr (iff_of_eq (true_and ok))

end Placed

variable {among : Ident → Prop}

theorem NameSpelling.map_ident {n : Ident} {tokens : List Token} (h : NameSpelling n tokens) :
    tokens.map Token.ident = [n] := by
  cases h with
  | token _ => rfl

/-- A reference of one name. -/
theorem NameSpelling.placed {n : Ident} {tokens : List Token} (h : NameSpelling n tokens)
    {r : Reference} (hnames : r.names = [n]) : Placed among tokens [r] True := by
  apply Placed.ofSublist
  rw [namesOf_single, hnames, h.map_ident]

/-- A reference of two names, with a sign between them. -/
theorem NameSpelling.placed_pair {n m : Ident} {front sign back : List Token}
    (h : NameSpelling n front) (h' : NameSpelling m back) {r : Reference}
    (hnames : r.names = [n, m]) : Placed among (front ++ sign ++ back) [r] True := by
  apply Placed.ofSublist
  rw [namesOf_single, hnames, List.map_append, List.map_append, h.map_ident, h'.map_ident]
  exact List.Sublist.cons_cons n (List.sublist_append_right _ [m])

theorem QualifiedSpelling.placed {package : Option Ident} {name : Ident} {tokens : List Token}
    (h : QualifiedSpelling package name tokens) {r : Reference} (hnames : r.names = [name]) :
    Placed among tokens [r] True := by
  cases h with
  | plain hname => exact hname.placed hnames
  | qualified _ _ hname => exact (hname.placed hnames).after _

/-- Of a written type, the outermost name is a reference. -/
theorem TypeSpelling.placed {type : TypeClause} {tokens : List Token}
    (h : TypeSpelling type tokens) : Placed among tokens [.type type] True := by
  cases h with
  | plain hname => exact hname.placed rfl
  | generic hname _ _ _ =>
    rw [List.append_assoc, List.append_assoc]
    exact (hname.placed rfl).before _

namespace ExpressionPart

/-- The references in a piece of an expression. -/
def references : ExpressionPart → List Reference
  | expression e | operation _ e | operand e | accessed e | primary e | own e => e.references
  | arguments es => Expression.referencesAll es

def InOrder (among : Ident → Prop) : ExpressionPart → Prop
  | expression e | operation _ e | operand e | accessed e | primary e | own e => e.InOrder among
  | arguments es => Expression.AllInOrder among es

end ExpressionPart

/-- The names in an expression are placed among its tokens. -/
theorem SpellsExpression.placed {part : ExpressionPart} {tokens : List Token}
    (h : SpellsExpression part tokens) :
    Placed among tokens part.references (part.InOrder among) := by
  induction h with
  | assignment htarget _ _ ih | edit htarget _ _ _ ih =>
    exact ((htarget.placed rfl).before _).behind ih
  | step htarget _ _ _ _ => exact (htarget.placed rfl).before _
  | operation _ ih | operand _ ih | accessed _ ih | primary _ ih => exact ih
  | unary _ _ _ _ ih => exact ih.after _
  | binary _ _ _ _ ihleft ihright => exact (ihleft.before _).append ihright
  | arrayAssignment _ _ _ _ _ _ iharray ihindex ihvalue =>
    exact (((iharray.before _).append ihindex).before _ |>.before _).append ihvalue
  | arrayAccess _ _ _ _ iharray ihindex => exact ((iharray.before _).append ihindex).before _
  | literal _ => exact .none
  | parenthesized _ _ _ ih => exact (ih.after _).before _
  | this _ => exact .none
  | reference _ hname => exact (hname.placed rfl).after _
  | dereference _ _ ih => exact ih.after _
  | name h | ownName h => exact h.placed rfl
  | call hcallee _ _ _ ih =>
    exact (((hcallee.placed rfl).before _).behind ih).before _
  | cast htype _ _ _ _ ih => exact ((htype.placed.before _).behind ih).before _
  | packageCall hpackage _ hcallee _ _ _ ih =>
    exact (((hpackage.placed_pair hcallee rfl).before _).behind ih).before _
  | typeCall hreceiver _ hcallee _ _ _ ih =>
    exact (((hreceiver.placed_pair hcallee rfl).before _).behind ih).before _
  | fieldAccess hobject _ hfield => exact hobject.placed_pair hfield rfl
  | fieldAssignment hobject _ hfield _ _ ih =>
    exact ((hobject.placed_pair hfield rfl).before _).behind ih
  | element harray _ _ _ ih =>
    exact (((harray.placed rfl).before _).append ih).before _
  | elementAssignment harray _ _ _ _ _ ihindex ihvalue =>
    exact ((((harray.placed rfl).before _).append ihindex).before _ |>.before _).append ihvalue
  | make _ htype _ _ _ _ ih | makeSized _ htype _ _ _ _ ih | makeArray _ htype _ _ _ _ ih
  | makeStruct _ htype _ _ _ _ ih =>
    exact (((htype.placed.after _).before _).beside ih).before _
  | @main keyword _ e _ _ _ _ _ _ ih =>
    exact (ih.after [keyword]).ofNames (namesOf_main keyword.span e)
  | ownCall _ ih | ownAssignment _ ih => exact ih
  | last _ ih =>
    have hall := ih.append (.none : Placed among [] [] True)
    rwa [List.append_nil] at hall
  | none => exact .none
  | more _ _ _ ih ihothers => exact (ih.before _).append ihothers

theorem ExpressionSpelling.placed {e : Expression} {tokens : List Token}
    (h : ExpressionSpelling e tokens) : Placed among tokens e.references (e.InOrder among) :=
  SpellsExpression.placed h

theorem ConditionSpelling.placed {condition : Expression} {tokens : List Token}
    (h : ConditionSpelling condition tokens) :
    Placed among tokens condition.references (condition.InOrder among) := by
  cases h with
  | intro _ hcondition _ => exact (hcondition.placed.after _).before _

/-- A value that may be missing. -/
theorem Optionally.placed {value : Option Expression} {tokens : List Token}
    {spells : Expression → List Token → Prop}
    (hspells : ∀ e front, spells e front → Placed among front e.references (e.InOrder among))
    (h : Optionally spells value tokens) :
    Placed among tokens (value.elim [] Expression.references)
      (value.elim True (Expression.InOrder among)) := by
  cases h with
  | missing => exact .none
  | present h => exact hspells _ _ h

theorem InitialSpelling.placed {value : Expression} {tokens : List Token}
    (h : InitialSpelling value tokens) :
    Placed among tokens value.references (value.InOrder among) := by
  cases h with
  | intro _ hvalue => exact hvalue.placed.after _

/-- A type that may be missing. -/
theorem Optionally.placed_type {type : Option TypeClause} {tokens : List Token}
    (h : Optionally TypeSpelling type tokens) :
    Placed among tokens (type.map Reference.type).toList True := by
  cases h with
  | missing => exact .none
  | present h => exact h.placed

/-- A local variable's type is bound behind its value. -/
theorem DeclarationSpelling.placed {d : VariableDeclaration} {tokens : List Token}
    (h : DeclarationSpelling d tokens) :
    Placed among tokens (d.valueReferences ++ d.typeReferences) (d.InOrder among) := by
  cases h with
  | intro _ htype _ hvalue =>
    have hclause : Placed among _ _ True := htype.placed_type
    have hback : Placed among _ _ _ := hvalue.placed fun _ _ => InitialSpelling.placed
    exact ((hclause.after _).before _).behind hback

/-- A global variable's type is bound before its value. -/
theorem DeclarationSpelling.placed_global {d : VariableDeclaration} {tokens : List Token}
    (h : DeclarationSpelling d tokens) :
    Placed among tokens (d.typeReferences ++ d.valueReferences)
      (d.value.elim True (Expression.InOrder among)) := by
  cases h with
  | intro _ htype _ hvalue =>
    have hclause : Placed among _ _ True := htype.placed_type
    have hback : Placed among _ _ _ := hvalue.placed fun _ _ => InitialSpelling.placed
    exact ((hclause.after _).before _).beside hback

namespace StatementPart

/-- The references in a piece of the statements. -/
def references : StatementPart → List Reference
  | statement s | bare s => s.references
  | statements ss => Statement.referencesAll ss

def InOrder (among : Ident → Prop) : StatementPart → Prop
  | statement s | bare s => s.InOrder among
  | statements ss => Statement.AllInOrder among ss

end StatementPart

/-- The names in a statement are placed among its tokens. -/
theorem SpellsStatement.placed {part : StatementPart} {tokens : List Token}
    (h : SpellsStatement part tokens) :
    Placed among tokens part.references (part.InOrder among) := by
  induction h with
  | statement _ _ ih => exact ih.before _
  | declaration h => exact h.placed
  | block _ _ _ ih => exact (ih.after _).before _
  | ifThen _ hcondition _ ih | «while» _ hcondition _ ih =>
    exact (hcondition.placed.after _).append ih
  | ifElse _ hcondition _ _ _ ihbody ihalternative =>
    exact (((hcondition.placed.after _).append ihbody).before _).append ihalternative
  | «return» _ hvalue => exact (hvalue.placed fun _ _ => ExpressionSpelling.placed).after _
  | @«for» _ _ _ _ _ word opened _ first _ second _ closed _ _ _ hinit _ hcondition _ _ _ _
      ihstep ihbody =>
    have hinit : Placed among _ _ _ := (hinit.placed.after (word ++ opened)).before first
    have hstep := ((hinit.append hcondition.placed).before second).append ihstep
    exact (hstep.before closed).append ihbody
  | «break» _ | «continue» _ => exact .none
  | expression h => exact h.placed
  | none => exact .none
  | cons _ _ ih ihothers => exact ih.append ihothers

theorem BlockSpelling.placed {b : Block} {tokens : List Token} (h : BlockSpelling b tokens) :
    Placed among tokens (Statement.referencesAll b.statements)
      (Statement.AllInOrder among b.statements) := by
  cases h with
  | intro _ h _ => exact (h.placed.after _).before _

theorem ParameterSpelling.placed {p : Parameter} {tokens : List Token}
    (h : ParameterSpelling p tokens) : Placed among tokens [.type p.type] True := by
  cases h with
  | intro _ htype => exact htype.placed.after _

theorem Separated.placed {ps : List Parameter} {tokens : List Token}
    (h : Separated ParameterSpelling ps tokens) :
    Placed among tokens (parameterReferences ps) True := by
  induction h with
  | last h => exact h.placed
  | more h _ _ ih => exact (h.placed.before _).beside ih

theorem Listed.placed {ps : List Parameter} {tokens : List Token}
    (h : Listed ParameterSpelling ps tokens) :
    Placed among tokens (parameterReferences ps) True := by
  induction h with
  | none => exact .none
  | last h => exact h.placed
  | more h _ _ ih => exact (h.placed.before _).beside ih

theorem ParameterListSpelling.placed {parameters : List Parameter × Span} {tokens : List Token}
    (h : ParameterListSpelling parameters tokens) :
    Placed among tokens (parameterReferences parameters.1) True := by
  cases h with
  | none _ _ => exact .none
  | some _ hparameters _ => exact (hparameters.placed.after _).before _

/-! ### Members and programs -/

/-- The types in the head of a function. -/
theorem placed_head {parameters : List Parameter × Span} {returnType : Option TypeClause}
    {front back : List Token} (word : List Token)
    (hparameters : ParameterListSpelling parameters front)
    (hreturn : Optionally TypeSpelling returnType back) :
    Placed among (word ++ front ++ back) (headReferences parameters.1 returnType) True :=
  (hparameters.placed.after word).beside hreturn.placed_type

variable {accepted : StructDeclaration → Bool}

/-- The references in a member, stage by stage. -/
def Member.allReferences (accepted : StructDeclaration → Bool) (member : Member) :
    List Reference :=
  Stage.all.flatMap fun stage => member.references accepted stage

theorem Member.allReferences_function (f : FunctionDeclaration) :
    (Member.function f).allReferences accepted =
      headReferences f.parameters f.returnType ++
        Statement.referencesAll f.body.statements := by
  simp [allReferences, Stage.all, references, Member.signatureReferences, bodyReferences]

theorem Member.allReferences_external (e : ExternalDeclaration) :
    (Member.external e).allReferences accepted = headReferences e.parameters e.returnType := by
  simp [allReferences, Stage.all, references, Member.signatureReferences, bodyReferences]

theorem Member.allReferences_struct (d : StructDeclaration) :
    (Member.struct d).allReferences accepted =
      if accepted d then parameterReferences d.fields else [] := by
  simp [allReferences, Stage.all, references, Member.signatureReferences, bodyReferences]

theorem Member.allReferences_declaration (d : VariableDeclaration) :
    (Member.statement (.declaration d)).allReferences accepted =
      d.typeReferences ++ d.valueReferences := by
  simp [allReferences, Stage.all, references, Member.signatureReferences, bodyReferences]

theorem Member.allReferences_statement {s : Statement} (h : ∀ d, s ≠ .declaration d) :
    (Member.statement s).allReferences accepted = s.references := by
  cases s with
  | declaration d => exact absurd rfl (h d)
  | _ => simp [allReferences, Stage.all, references, Member.signatureReferences, bodyReferences]

theorem MemberSpelling.placed {member : Member} {tokens : List Token}
    (h : MemberSpelling member tokens) :
    Placed among tokens (member.allReferences accepted) (member.InOrder among) := by
  cases h with
  | @statement s _ h =>
    have hstatement : Placed among _ (StatementPart.statement s).references
        ((StatementPart.statement s).InOrder among) := SpellsStatement.placed h
    cases s with
    | declaration d =>
      rw [Member.allReferences_declaration]
      cases h with
      | statement h _ =>
        cases h with
        | declaration h => exact h.placed_global.before _
    | _ =>
      rw [Member.allReferences_statement (by simp)]
      exact hstatement
  | function h =>
    cases h with
    | intro _ _ _ hparameters hreturn hbody =>
      rw [Member.allReferences_function]
      exact (placed_head _ hparameters hreturn).beside hbody.placed
  | external _ _ _ hparameters hreturn _ =>
    rw [Member.allReferences_external]
    exact (placed_head _ hparameters hreturn).before _
  | struct _ _ _ hfields _ _ =>
    rw [Member.allReferences_struct]
    split
    · exact ((hfields.placed.after _).before _).before _
    · exact .none
  | packageReference hkeyword hname hsemicolon => exact .none
  | packageUse hkeyword hname hsemicolon => exact ((hname.placed rfl).after _).before _

theorem apart_flatMap {α : Type} {front : List Ident} {l : List α} {f : α → List Reference} :
    Apart among front (namesOf (l.flatMap f)) ↔ ∀ x ∈ l, Apart among front (namesOf (f x)) := by
  rw [namesOf_flatMap]
  constructor
  · intro h x hx a ha b hb
    exact h a ha b (List.mem_flatMap.2 ⟨x, hx, hb⟩)
  · intro h a ha b hb
    obtain ⟨x, hx, hb⟩ := List.mem_flatMap.1 hb
    exact h x hx a ha b hb

/-- In a program, the front member is in order and those behind it are, and none of the later stages
of the front member is mixed up with an earlier stage of one behind it. -/
theorem programInOrder_cons {member : Member} {others : List Member} :
    ProgramInOrder among accepted (member :: others) ↔
      (member.InOrder among ∧ ProgramInOrder among accepted others) ∧
        Stage.all.Pairwise fun stage later =>
          Apart among (namesOf (member.references accepted later))
            (namesOf (others.flatMap (Member.references accepted stage))) := by
  unfold ProgramInOrder
  simp only [List.forall_mem_cons, List.pairwise_cons, List.pairwise_and_iff, apart_flatMap]
  constructor
  · rintro ⟨⟨hmember, hothers⟩, hfirst, hrest⟩
    exact ⟨⟨hmember, hothers, hrest⟩, hfirst⟩
  · rintro ⟨⟨hmember, hothers, hrest⟩, hfirst⟩
    exact ⟨⟨hmember, hothers⟩, hfirst, hrest⟩

/-- The names in a program are placed among its tokens. -/
theorem ProgramSpelling.placed {members : List Member} {tokens : List Token}
    (h : ProgramSpelling members tokens) :
    Placed among tokens (programReferences accepted members)
      (ProgramInOrder among accepted members) := by
  induction h with
  | nil =>
    have hnone : Placed among [] (programReferences accepted []) True := .none
    apply hnone.congr
    simp [ProgramInOrder, Stage.all]
  | cons h _ ih =>
    have hmember : Placed among _ (Member.allReferences accepted _) _ := h.placed
    exact (hmember.interleave ih).congr programInOrder_cons.symm

/-! ### Structures -/

/-- A structure starts where one of its tokens does. -/
theorem MemberSpelling.struct_start {d : StructDeclaration} {tokens : List Token}
    (h : MemberSpelling (.struct d) tokens) :
    ∃ t ∈ tokens, (Member.struct d).span.start = t.span.start := by
  cases h with
  | struct hkeyword _ _ _ hclosing _ =>
    cases hkeyword with
    | @token t _ =>
      cases hclosing with
      | @token u _ =>
        have hstart : (t.span.cover u.span).start = min t.span.start u.span.start :=
          Span.cover_start ..
        rcases Nat.le_total t.span.start u.span.start with hle | hle
        · exact ⟨t, by simp, hstart.trans (Nat.min_eq_left hle)⟩
        · exact ⟨u, by simp, hstart.trans (Nat.min_eq_right hle)⟩

theorem ProgramSpelling.struct_start {members : List Member} {tokens : List Token}
    (h : ProgramSpelling members tokens) :
    ∀ d ∈ structDeclarations members,
      ∃ t ∈ tokens, (Member.struct d).span.start = t.span.start := by
  induction h with
  | nil => exact List.forall_mem_nil _
  | @cons member others front back h _ ih =>
    intro d hd
    obtain ⟨other, hother, hstruct⟩ := List.mem_filterMap.1 hd
    rcases List.mem_cons.1 hother with rfl | hother
    · cases other with
      | struct e =>
        obtain rfl : e = d := Option.some.inj hstruct
        obtain ⟨t, ht, hstart⟩ := h.struct_start
        exact ⟨t, List.mem_append_left _ ht, hstart⟩
      | _ => cases hstruct
    · obtain ⟨t, ht, hstart⟩ := ih d (List.mem_filterMap.2 ⟨other, hother, hstruct⟩)
      exact ⟨t, List.mem_append_right _ ht, hstart⟩

/-- No two structures of a source are declared at one place. -/
theorem ProgramSpelling.structs_distinct {members : List Member} {tokens : List Token}
    (h : ProgramSpelling members tokens)
    (hordered : tokens.Pairwise fun t u => t.span.start < u.span.start) :
    (structDeclarations members).Pairwise fun a b =>
      (Member.struct a).span ≠ (Member.struct b).span := by
  induction h with
  | nil => exact .nil
  | @cons member others front back h hothers ih =>
    rcases List.pairwise_append.1 hordered with ⟨-, hback, hacross⟩
    cases member with
    | struct d =>
      refine List.pairwise_cons.2 ⟨?_, ih hback⟩
      intro e he hspan
      obtain ⟨t, ht, hstart⟩ := h.struct_start
      obtain ⟨u, hu, hstart'⟩ := hothers.struct_start e he
      have hlt := hacross t ht u hu
      rw [hspan] at hstart
      omega
    | _ => exact ih hback

end TodLang
