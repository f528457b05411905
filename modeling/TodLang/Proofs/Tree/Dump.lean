import TodLang.Proofs.Grammar.Everywhere
import TodLang.Proofs.Grammar.TypeText
import TodLang.Proofs.Tree.Render
/-!
What the dump of a tree tells of it. A line names a node: its label tells what kind of node it is,
and its detail the names, the sign, the literal and the type that stand in it. Such texts end where
they must, since no name goes on with a sign or a blank. With the nodes on the lines below, this is
the node, but for its places. The main result is `treeText_injective`.
-/

namespace TodLang

/-! ### Lines of nodes -/

/-- The detail in the line of an expression. -/
def Expression.detail : Expression → String
  | literal token => token.literal
  | name n | reference _ n => n.name
  | assignment target _ => target.name
  | call callee _ _ => callee.name
  | cast type _ _ => "cast " ++ type.text
  | packageCall package callee _ _ => package.name ++ "::" ++ callee.name
  | typeCall receiver callee _ _ => receiver.name ++ "." ++ callee.name
  | unary operator _ | binary _ operator _ => operator.sign.text
  | edit target operator _ => target.name ++ " " ++ operator.sign.text
  | step target operator => target.name ++ operator.sign.text ++ operator.sign.text
  | fieldAccess object field | fieldAssignment object field _ => object.name ++ "." ++ field.name
  | make _ type _ _ | makeStruct _ type _ _ => type.text
  | makeSized _ type _ _ => type.text ++ " sized"
  | makeArray _ type _ _ => type.text ++ " literal"
  | parenthesized .. | arrayAccess .. | arrayAssignment .. | dereference .. | this _ | main .. => ""

/-- The detail in the line of a declaration. -/
def VariableDeclaration.detail (d : VariableDeclaration) : String :=
  d.word ++ " " ++ d.name.name

/-- The detail in the line of a member. -/
def Member.detail : Member → String
  | statement _ => ""
  | function f => (if f.visibility.isSome then "public " else "") ++ f.name.name
  | external e => e.name.name
  | struct d => d.name.name
  | packageReference _ name | packageUse _ name => name.name

open Node

namespace Node

/-- The label in the line of a node. -/
def label : Node → String
  | member m => m.label
  | statement s => s.label
  | alternative _ _ => "Else Clause"
  | declaration _ => VariableDeclaration.label
  | parameter _ => "Parameter"
  | type _ => "Type Clause"
  | expression e => e.label

/-- The detail in the line of a node. -/
def detail : Node → String
  | member m => m.detail
  | statement (.declaration d) | declaration d => d.detail
  | statement _ | alternative _ _ => ""
  | parameter p => p.name.name ++ " " ++ p.type.text
  | type c => c.text
  | expression e => e.detail

/-- The nodes in the lines below that of a node. A declaration has the line of its statement, and
the types of parameters and expressions have no lines of their own. -/
def shown : Node → List Node
  | statement (.declaration d) => (declaration d).children
  | parameter _ | type _ => []
  | expression e => e.parts.map expression
  | node => node.children

/-- The outline of a node. -/
def outline : Node → Outline
  | member m => m.outline
  | statement s => s.outline
  | alternative _ s => .node "Else Clause" "" [s.outline]
  | declaration d => d.outline
  | parameter p => p.outline
  | type c => c.outline
  | expression e => e.outline

end Node

theorem Expression.outlines_eq_map (es : List Expression) : outlines es = es.map outline := by
  induction es with
  | nil => rfl
  | cons e es ih => rw [outlines, ih, List.map_cons]

theorem Statement.outlines_eq_map (ss : List Statement) : outlines ss = ss.map outline := by
  induction ss with
  | nil => rfl
  | cons s ss ih => rw [outlines, ih, List.map_cons]

theorem Expression.outline_eq (e : Expression) :
    e.outline = .node e.label e.detail (e.parts.map outline) := by
  cases e <;> simp [outline, detail, parts, Outline.leaf, outlines_eq_map]

/-- The outline of a node is its line, and the outlines of the nodes that are shown below it. -/
theorem Node.outline_eq (node : Node) :
    node.outline = .node node.label node.detail (node.shown.map outline) := by
  cases node with
  | member m =>
    cases m <;> simp [outline, label, detail, shown, Member.outline, Member.detail, children,
      belowMember, Outline.leaf, Option.toList_map, Function.comp_def]
  | statement s =>
    cases s <;> simp [outline, label, detail, shown, Statement.outline, Statement.label, children,
      belowStatement, Outline.leaf, Statement.outlines_eq_map, VariableDeclaration.outline,
      VariableDeclaration.detail, Option.toList_map, Function.comp_def]
  | declaration d =>
    simp [outline, label, detail, shown, children, VariableDeclaration.outline,
      VariableDeclaration.detail, Option.toList_map, Function.comp_def]
  | alternative _ _ | parameter _ | type _ => rfl
  | expression e => simp [outline, label, detail, shown, e.outline_eq, Function.comp_def]

/-! ### Kinds of lines -/

/-- The place of an expression's label among those of a dump. -/
def Expression.form : Expression → Nat
  | literal _ => 18
  | parenthesized .. => 19
  | name _ => 20
  | assignment .. => 21
  | call .. | cast .. => 22
  | packageCall .. => 23
  | typeCall .. => 24
  | unary .. => 25
  | binary .. => 26
  | edit .. | step .. => 27
  | fieldAccess .. => 28
  | fieldAssignment .. => 29
  | arrayAccess .. => 30
  | arrayAssignment .. => 31
  | reference .. => 32
  | dereference .. => 33
  | make .. => 34
  | makeSized .. | makeArray .. => 35
  | makeStruct .. => 36
  | this _ => 37
  | main .. => 38

/-- The place of a statement's label among those of a dump. -/
def Statement.form : Statement → Nat
  | block .. => 6
  | declaration _ => 7
  | ifThen .. | ifElse .. => 8
  | .return .. => 9
  | .for .. => 10
  | .while .. => 11
  | .break _ => 12
  | .continue _ => 13
  | expression _ => 14

/-- The place of a member's label among those of a dump. -/
def Member.form : Member → Nat
  | statement _ => 0
  | function _ => 1
  | external _ => 2
  | struct _ => 3
  | packageReference .. => 4
  | packageUse .. => 5

namespace Node

/-- The place of a node's label among those of a dump. -/
def form : Node → Nat
  | member m => m.form
  | statement s => s.form
  | declaration _ => 7
  | alternative _ _ => 15
  | parameter _ => 16
  | type _ => 17
  | expression e => e.form

theorem getElem?_labels (node : Node) : Outline.labels[node.form]? = some node.label := by
  cases node with
  | member m => cases m <;> rfl
  | statement s => cases s <;> rfl
  | expression e => cases e <;> rfl
  | _ => rfl

theorem label_mem_labels (node : Node) : node.label ∈ Outline.labels :=
  List.mem_of_getElem? node.getElem?_labels

theorem form_eq_of_label_eq {a b : Node} (h : a.label = b.label) : a.form = b.form := by
  have hlt : a.form < Outline.labels.length := by
    by_contra hge
    have hnone := List.getElem?_eq_none (Nat.le_of_not_lt hge)
    rw [a.getElem?_labels] at hnone
    cases hnone
  refine (List.getElem?_inj hlt Outline.labels_nodup).1 ?_
  rw [a.getElem?_labels, b.getElem?_labels, h]

/-- What sort of node it is. -/
def sort : Node → Nat
  | member _ => 0
  | statement _ | declaration _ => 1
  | alternative _ _ => 2
  | parameter _ => 3
  | type _ => 4
  | expression _ => 5

/-- What sort of node has a label at some place. -/
def sortAt (place : Nat) : Nat :=
  if place < 6 then 0 else if place < 15 then 1 else if place < 18 then place - 13 else 5

theorem sortAt_form (node : Node) : sortAt node.form = node.sort := by
  cases node with
  | member m => cases m <;> rfl
  | statement s => cases s <;> rfl
  | expression e => cases e <;> rfl
  | _ => rfl

end Node

/-! ### Details -/

/-- A name goes up to where the name parts end. -/
theorem IsName.takeWhile_append {name : String} (h : IsName name) {rest : List Char}
    (hrest : Parted rest) : (name.toList ++ rest).takeWhile isNamePart = name.toList := by
  have hall : ∀ c ∈ name.toList, isNamePart c = true := by
    intro c hc
    by_contra hpart
    exact h.1.notMem (eq_false_of_ne_true hpart) hc
  exact (span_append hall hrest).1

/-- Names are told by texts that begin with them and do not go on with them. -/
theorem IsName.append_inj {a b x y : String} (ha : IsName a) (hb : IsName b)
    (hx : Parted x.toList) (hy : Parted y.toList) (h : a ++ x = b ++ y) : a = b ∧ x = y := by
  have htext : a.toList ++ x.toList = b.toList ++ y.toList := by
    rw [← String.toList_append, h, String.toList_append]
  have hname : a = b := by
    apply String.toList_injective
    rw [← ha.takeWhile_append hx, htext, hb.takeWhile_append hy]
  subst hname
  exact ⟨rfl, String.toList_injective (List.append_cancel_left htext)⟩

/-- A name has no character in it that is no part of names. -/
theorem IsName.ne_of_mem {name text : String} (h : IsName name) {mark : Char}
    (hmark : isNamePart mark = false) (hmem : mark ∈ text.toList) : name ≠ text := by
  rintro rfl
  exact h.1.notMem hmark hmem

theorem Sign.text_injective {s t : Sign} (h : s.text = t.text) : s = t :=
  Sign.spelling_injective (congrArg String.toList h)

theorem Sign.text_twice_injective {s t : Sign} (h : s.text ++ s.text = t.text ++ t.text) :
    s = t := by
  have htexts : s.spelling ++ s.spelling = t.spelling ++ t.spelling := by
    simpa [Sign.spelling] using congrArg String.toList h
  have hlength : s.spelling.length = t.spelling.length := by
    have hlengths := congrArg List.length htexts
    simp only [List.length_append] at hlengths
    omega
  exact Sign.spelling_injective (List.append_inj htexts hlength).1

theorem Ident.bare_eq {a b : Ident} (h : a.name = b.name) : a.bare = b.bare := by
  simp [Ident.bare, h]

theorem Operator.bare_eq {a b : Operator} (h : a.sign = b.sign) : a.bare = b.bare := by
  simp [Operator.bare, h]

theorem Expression.bareAll_eq_map (es : List Expression) : bareAll es = es.map bare := by
  induction es with
  | nil => rfl
  | cons e es ih => rw [bareAll, ih, List.map_cons]

/-- Two names with a mark between them. -/
theorem names_inj {a a' b b' : Ident} {mark : String} (hnames : AreNames [a, b])
    (hnames' : AreNames [a', b']) (hmark : ∀ text : String, Parted (mark ++ text).toList)
    (h : a.name ++ mark ++ b.name = a'.name ++ mark ++ b'.name) :
    a.bare = a'.bare ∧ b.bare = b'.bare := by
  rw [String.append_assoc, String.append_assoc] at h
  obtain ⟨hfirst, hrest⟩ := (hnames a (by simp)).append_inj (hnames' a' (by simp))
    (hmark _) (hmark _) h
  have hsecond : b.name = b'.name := by
    apply String.toList_injective
    have htext := congrArg String.toList hrest
    rw [String.toList_append, String.toList_append] at htext
    exact List.append_cancel_left htext
  exact ⟨Ident.bare_eq hfirst, Ident.bare_eq hsecond⟩

theorem parted_append {mark : String} {c : Char} {tail : List Char}
    (htext : mark.toList = c :: tail) (hc : isNamePart c = false) (text : String) :
    Parted (mark ++ text).toList := by
  rw [String.toList_append, htext]
  rintro _ ⟨⟩
  exact hc

theorem Sign.parted_text (s : Sign) (text : String) : Parted (s.text ++ text).toList := by
  rw [String.toList_append]
  exact parted_sign s text.toList

/-- A type that is made with a number of elements is not taken for one that is made of elements. -/
theorem sized_ne_literal (x y : String) : x ++ " sized" ≠ y ++ " literal" := by
  intro h
  have hlast := congrArg (fun s => s.toList.getLast?) h
  simp at hlast

/-! ### What a line tells of an expression -/

theorem Node.Everywhere.type {c : TypeClause} {node : Node} (h : node.Everywhere Lexical)
    (hchild : Node.type c ∈ node.children) : (Node.type c).Everywhere Lexical :=
  (everywhere_iff.1 h).2 _ hchild

theorem Expression.bare_eq_of_line {e e' : Expression}
    (h : (Node.expression e).Everywhere Lexical) (h' : (Node.expression e').Everywhere Lexical)
    (hform : e.form = e'.form) (hdetail : e.detail = e'.detail)
    (hparts : e.parts.map bare = e'.parts.map bare) : e.bare = e'.bare := by
  have hnames : AreNames e.ownNames := h.self.names
  have hnames' : AreNames e'.ownNames := h'.self.names
  cases e with
  | literal t => cases e' with
    | literal t' =>
      have htext : t.literal.toList ++ ['\n'] = t'.literal.toList ++ ['\n'] := by
        rw [show t.literal = t'.literal from hdetail]
      obtain ⟨hbare, -⟩ := Outline.literal_inj h.self.consistent h'.self.consistent htext
      simp [bare, hbare]
    | _ => cases hform
  | name n => cases e' with
    | name n' => simp [bare, Ident.bare_eq hdetail]
    | _ => cases hform
  | reference _ n => cases e' with
    | reference _ n' => simp [bare, Ident.bare_eq hdetail]
    | _ => cases hform
  | this _ => cases e' with
    | this _ => rfl
    | _ => cases hform
  | parenthesized _ inner _ => cases e' with
    | parenthesized _ inner' _ => simpa [bare, parts] using hparts
    | _ => cases hform
  | dereference _ inner => cases e' with
    | dereference _ inner' => simpa [bare, parts] using hparts
    | _ => cases hform
  | main _ inner => cases e' with
    | main _ inner' => simpa [bare, parts] using hparts
    | _ => cases hform
  | assignment target value => cases e' with
    | assignment target' value' => simpa [bare, parts, Ident.bare_eq hdetail] using hparts
    | _ => cases hform
  | unary operator _ => cases e' with
    | unary operator' _ =>
      simpa [bare, parts, Operator.bare_eq (Sign.text_injective hdetail)] using hparts
    | _ => cases hform
  | binary left operator right => cases e' with
    | binary left' operator' right' =>
      simpa [bare, parts, Operator.bare_eq (Sign.text_injective hdetail)] using hparts
    | _ => cases hform
  | arrayAccess array index _ => cases e' with
    | arrayAccess array' index' _ => simpa [bare, parts] using hparts
    | _ => cases hform
  | arrayAssignment array index value => cases e' with
    | arrayAssignment array' index' value' => simpa [bare, parts] using hparts
    | _ => cases hform
  | call callee arguments _ =>
    have hcallee := hnames callee List.mem_cons_self
    cases e' with
    | call callee' arguments' _ =>
      simpa [bare, parts, bareAll_eq_map, Ident.bare_eq hdetail] using hparts
    | cast type' arguments' _ =>
      have hblank : ' ' ∈ ("cast " ++ type'.text).toList := by simp
      exact absurd hdetail (hcallee.ne_of_mem (by decide) hblank)
    | _ => cases hform
  | cast type arguments _ => cases e' with
    | call callee' arguments' _ =>
      have hblank : ' ' ∈ ("cast " ++ type.text).toList := by simp
      have hcallee := hnames' callee' List.mem_cons_self
      exact absurd hdetail.symm (hcallee.ne_of_mem (by decide) hblank)
    | cast type' arguments' _ =>
      have htext : type.text = type'.text := by simpa [detail] using hdetail
      have htype := bare_eq_of_typeText (h.type List.mem_cons_self) (h'.type List.mem_cons_self)
        htext
      simpa [bare, parts, bareAll_eq_map, htype] using hparts
    | _ => cases hform
  | packageCall package callee arguments _ => cases e' with
    | packageCall package' callee' arguments' _ =>
      obtain ⟨hpackage, hcallee⟩ := names_inj hnames hnames' (Sign.parted_text .pathSep) hdetail
      simpa [bare, parts, bareAll_eq_map, hpackage, hcallee] using hparts
    | _ => cases hform
  | typeCall receiver callee arguments _ => cases e' with
    | typeCall receiver' callee' arguments' _ =>
      obtain ⟨hreceiver, hcallee⟩ := names_inj hnames hnames' (Sign.parted_text .period) hdetail
      simpa [bare, parts, bareAll_eq_map, hreceiver, hcallee] using hparts
    | _ => cases hform
  | fieldAccess object field => cases e' with
    | fieldAccess object' field' =>
      obtain ⟨hobject, hfield⟩ := names_inj hnames hnames' (Sign.parted_text .period) hdetail
      simp [bare, hobject, hfield]
    | _ => cases hform
  | fieldAssignment object field value => cases e' with
    | fieldAssignment object' field' value' =>
      obtain ⟨hobject, hfield⟩ := names_inj hnames hnames' (Sign.parted_text .period) hdetail
      simpa [bare, parts, hobject, hfield] using hparts
    | _ => cases hform
  | edit target operator value => cases e' with
    | edit target' operator' value' =>
      simp only [detail, String.append_assoc] at hdetail
      obtain ⟨htarget, hrest⟩ := (hnames target List.mem_cons_self).append_inj
        (hnames' target' List.mem_cons_self) (parted_append rfl (by decide) _)
        (parted_append rfl (by decide) _) hdetail
      have hsign : operator.sign.text = operator'.sign.text := by simpa using hrest
      simpa [bare, parts, Ident.bare_eq htarget, Operator.bare_eq (Sign.text_injective hsign)]
        using hparts
    | step target' operator' => cases hparts
    | _ => cases hform
  | step target operator => cases e' with
    | edit target' operator' value' => cases hparts
    | step target' operator' =>
      simp only [detail, String.append_assoc] at hdetail
      obtain ⟨htarget, hrest⟩ := (hnames target List.mem_cons_self).append_inj
        (hnames' target' List.mem_cons_self) (operator.sign.parted_text _)
        (operator'.sign.parted_text _) hdetail
      simp [bare, Ident.bare_eq htarget, Operator.bare_eq (Sign.text_twice_injective hrest)]
    | _ => cases hform
  | make _ type arguments _ => cases e' with
    | make _ type' arguments' _ =>
      have htype := bare_eq_of_typeText (h.type List.mem_cons_self) (h'.type List.mem_cons_self)
        hdetail
      simpa [bare, parts, bareAll_eq_map, htype] using hparts
    | _ => cases hform
  | makeStruct _ type fields _ => cases e' with
    | makeStruct _ type' fields' _ =>
      have htype := bare_eq_of_typeText (h.type List.mem_cons_self) (h'.type List.mem_cons_self)
        hdetail
      simpa [bare, parts, bareAll_eq_map, htype] using hparts
    | _ => cases hform
  | makeSized _ type length _ => cases e' with
    | makeSized _ type' length' _ =>
      have htext : type.text = type'.text := by simpa [detail] using hdetail
      have htype := bare_eq_of_typeText (h.type List.mem_cons_self) (h'.type List.mem_cons_self)
        htext
      simpa [bare, parts, htype] using hparts
    | makeArray _ type' elements' _ => exact absurd hdetail (sized_ne_literal _ _)
    | _ => cases hform
  | makeArray _ type elements _ => cases e' with
    | makeSized _ type' length' _ => exact absurd hdetail.symm (sized_ne_literal _ _)
    | makeArray _ type' elements' _ =>
      have htext : type.text = type'.text := by simpa [detail] using hdetail
      have htype := bare_eq_of_typeText (h.type List.mem_cons_self) (h'.type List.mem_cons_self)
        htext
      simpa [bare, parts, bareAll_eq_map, htype] using hparts
    | _ => cases hform

/-! ### What a line and the nodes below it tell of a node -/

theorem map_eq_of_map_eq {α β γ : Type} {f : α → β} {g : α → γ} {as bs : List α}
    (h : as.map f = bs.map f) (heq : ∀ a ∈ as, ∀ b ∈ bs, f a = f b → g a = g b) :
    as.map g = bs.map g := by
  induction as generalizing bs with
  | nil => cases bs with
    | nil => rfl
    | cons b bs => cases h
  | cons a as ih => cases bs with
    | nil => cases h
    | cons b bs =>
      obtain ⟨hfirst, hothers⟩ := List.cons.inj h
      have hrest := ih hothers fun a' ha' b' hb' =>
        heq a' (List.mem_cons_of_mem _ ha') b' (List.mem_cons_of_mem _ hb')
      rw [List.map_cons, List.map_cons, hrest,
        heq a List.mem_cons_self b List.mem_cons_self hfirst]

theorem Statement.bareAll_eq_map (ss : List Statement) : bareAll ss = ss.map bare := by
  induction ss with
  | nil => rfl
  | cons s ss ih => rw [bareAll, ih, List.map_cons]

namespace Node

/-- The node at no place. A declaration is taken for the statement that it is. -/
def bare : Node → Node
  | member m => member m.bare
  | statement s => statement s.bare
  | alternative _ s => alternative Span.none s.bare
  | declaration d => statement (.declaration d.bare)
  | parameter p => parameter p.bare
  | type c => type c.bare
  | expression e => expression e.bare

def statement? : Node → Option Statement
  | statement s => some s
  | _ => none

def parameter? : Node → Option Parameter
  | parameter p => some p
  | _ => none

def type? : Node → Option TypeClause
  | type c => some c
  | _ => none

def expression? : Node → Option Expression
  | expression e => some e
  | _ => none

/-- The nodes of a declaration are its type and its value. -/
theorem declaration_inj {d d' : VariableDeclaration}
    (h : (declaration d).children.map bare = (declaration d').children.map bare) :
    d.type.map TypeClause.bare = d'.type.map TypeClause.bare ∧
      d.value.map Expression.bare = d'.value.map Expression.bare := by
  rcases d with ⟨_, _, type, _, value⟩
  rcases d' with ⟨_, _, type', _, value'⟩
  cases type <;> cases value <;> cases type' <;> cases value' <;>
    simp [children, bare] at h ⊢ <;> exact h

end Node

theorem VariableDeclaration.detail_inj {d d' : VariableDeclaration} (h : d.detail = d'.detail) :
    d.readOnly = d'.readOnly ∧ d.name.bare = d'.name.bare := by
  have htext := congrArg String.toList h
  rcases d with ⟨_, readOnly, _, name, _⟩
  rcases d' with ⟨_, readOnly', _, name', _⟩
  cases readOnly <;> cases readOnly' <;> simp [detail, word] at htext
  · exact ⟨rfl, Ident.bare_eq (String.toList_injective htext)⟩
  · exact ⟨rfl, Ident.bare_eq (String.toList_injective htext)⟩

theorem Statement.bare_eq_of_line {s s' : Statement} (hform : s.form = s'.form)
    (hdetail : (Node.statement s).detail = (Node.statement s').detail)
    (hshown : (Node.statement s).shown.map Node.bare = (Node.statement s').shown.map Node.bare) :
    s.bare = s'.bare := by
  cases s with
  | block _ statements _ => cases s' with
    | block _ statements' _ =>
      have hstatements := congrArg (List.filterMap statement?) hshown
      simp [shown, children, belowStatement, Node.bare, statement?, Function.comp_def]
        at hstatements
      simp [bare, bareAll_eq_map, hstatements]
    | _ => cases hform
  | declaration d => cases s' with
    | declaration d' =>
      obtain ⟨hreadOnly, hname⟩ := VariableDeclaration.detail_inj hdetail
      obtain ⟨htype, hvalue⟩ := declaration_inj hshown
      simp [bare, VariableDeclaration.bare, hreadOnly, hname, htype, hvalue]
    | _ => cases hform
  | ifThen _ condition body => cases s' with
    | ifThen _ condition' body' =>
      simpa [shown, children, belowStatement, Node.bare, bare] using hshown
    | ifElse _ condition' body' _ other' => cases congrArg List.length hshown
    | _ => cases hform
  | ifElse _ condition body _ other => cases s' with
    | ifThen _ condition' body' => cases congrArg List.length hshown
    | ifElse _ condition' body' _ other' =>
      simpa [shown, children, belowStatement, Node.bare, bare] using hshown
    | _ => cases hform
  | «return» _ value => cases s' with
    | «return» _ value' =>
      cases value <;> cases value' <;>
        simp_all [shown, children, belowStatement, Node.bare, bare]
    | _ => cases hform
  | «for» _ init condition step body => cases s' with
    | «for» _ init' condition' step' body' =>
      simpa [shown, children, belowStatement, Node.bare, bare] using hshown
    | _ => cases hform
  | «while» _ condition body => cases s' with
    | «while» _ condition' body' =>
      simpa [shown, children, belowStatement, Node.bare, bare] using hshown
    | _ => cases hform
  | «break» _ => cases s' with
    | «break» _ => rfl
    | _ => cases hform
  | «continue» _ => cases s' with
    | «continue» _ => rfl
    | _ => cases hform
  | expression e => cases s' with
    | expression e' => simpa [shown, children, belowStatement, Node.bare, bare] using hshown
    | _ => cases hform

theorem Block.bare_eq {b b' : Block} (h : b.toStatement.bare = b'.toStatement.bare) :
    b.bare = b'.bare := by
  simpa [toStatement, Statement.bare, bare] using h

/-- The nodes below a function: parameters, perhaps a type, and statements. -/
def functionRow (ps : List Parameter) (c : Option TypeClause) (ss : List Statement) : List Node :=
  ps.map parameter ++ (c.map type).toList ++ ss.map statement

theorem map_bare_functionRow (ps : List Parameter) (c : Option TypeClause) (ss : List Statement) :
    (functionRow ps c ss).map Node.bare =
      functionRow (ps.map Parameter.bare) (c.map TypeClause.bare) (ss.map Statement.bare) := by
  cases c <;> simp [functionRow, Node.bare, Function.comp_def]

theorem functionRow_inj {ps ps' : List Parameter} {c c' : Option TypeClause}
    {ss ss' : List Statement} (h : functionRow ps c ss = functionRow ps' c' ss') :
    ps = ps' ∧ c = c' ∧ ss = ss' := by
  have hparameters : ∀ ps c ss, (functionRow ps c ss).filterMap parameter? = ps := by
    intro ps c ss
    cases c <;> simp [functionRow, parameter?, Function.comp_def]
  have htype : ∀ ps c ss, (functionRow ps c ss).filterMap type? = c.toList := by
    intro ps c ss
    cases c <;> simp [functionRow, type?, Function.comp_def]
  have hstatements : ∀ ps c ss, (functionRow ps c ss).filterMap statement? = ss := by
    intro ps c ss
    cases c <;> simp [functionRow, statement?, List.filterMap_cons, Function.comp_def]
  refine ⟨?_, ?_, ?_⟩
  · rw [← hparameters ps c ss, h, hparameters]
  · have hlists : c.toList = c'.toList := by rw [← htype ps c ss, h, htype]
    simpa using congrArg List.head? hlists
  · rw [← hstatements ps c ss, h, hstatements]

theorem FunctionDeclaration.detail_inj {f f' : FunctionDeclaration} (hname : IsName f.name.name)
    (hname' : IsName f'.name.name)
    (h : (Member.function f).detail = (Member.function f').detail) :
    f.visibility.map (fun _ => Span.none) = f'.visibility.map (fun _ => Span.none) ∧
      f.name.name = f'.name.name := by
  have hblank : ∀ name : String, ' ' ∈ ("public " ++ name).toList := by simp
  unfold Member.detail at h
  cases hvisibility : f.visibility with
  | none => cases hvisibility' : f'.visibility with
    | none => simpa [hvisibility, hvisibility'] using h
    | some _ =>
      simp only [hvisibility, hvisibility'] at h
      exact absurd h (hname.ne_of_mem (by decide) (hblank _))
  | some _ => cases hvisibility' : f'.visibility with
    | none =>
      simp only [hvisibility, hvisibility'] at h
      exact absurd h.symm (hname'.ne_of_mem (by decide) (hblank _))
    | some _ => simpa [hvisibility, hvisibility'] using h

theorem Member.bare_eq_of_line {m m' : Member} (h : (Node.member m).Everywhere Lexical)
    (h' : (Node.member m').Everywhere Lexical) (hform : m.form = m'.form)
    (hdetail : m.detail = m'.detail)
    (hshown : (belowMember m).map Node.bare = (belowMember m').map Node.bare) :
    m.bare = m'.bare := by
  have hnames : AreNames m.ownNames := h.self.names
  have hnames' : AreNames m'.ownNames := h'.self.names
  cases m with
  | statement s => cases m' with
    | statement s' => simpa [belowMember, Node.bare, bare] using hshown
    | _ => cases hform
  | function f => cases m' with
    | function f' =>
      have hrow : (functionRow f.parameters f.returnType [f.body.toStatement]).map Node.bare =
          (functionRow f'.parameters f'.returnType [f'.body.toStatement]).map Node.bare := hshown
      rw [map_bare_functionRow, map_bare_functionRow] at hrow
      obtain ⟨hparameters, htype, hbody⟩ := functionRow_inj hrow
      have hbody := Block.bare_eq (List.cons.inj hbody).1
      obtain ⟨hvisibility, hname⟩ := FunctionDeclaration.detail_inj
        (hnames f.name List.mem_cons_self) (hnames' f'.name List.mem_cons_self) hdetail
      simp [bare, hvisibility, Ident.bare_eq hname, hparameters, htype, hbody]
    | _ => cases hform
  | external e => cases m' with
    | external e' =>
      have hrow : (functionRow e.parameters e.returnType []).map Node.bare =
          (functionRow e'.parameters e'.returnType []).map Node.bare := by
        simpa only [functionRow, belowMember, List.map_nil, List.append_nil] using hshown
      rw [map_bare_functionRow, map_bare_functionRow] at hrow
      obtain ⟨hparameters, htype, -⟩ := functionRow_inj hrow
      simp [bare, Ident.bare_eq hdetail, hparameters, htype]
    | _ => cases hform
  | struct d => cases m' with
    | struct d' =>
      have hfields := congrArg (List.filterMap parameter?) hshown
      simp [belowMember, Node.bare, parameter?, Function.comp_def] at hfields
      simp [bare, Ident.bare_eq hdetail, hfields]
    | _ => cases hform
  | packageReference _ name => cases m' with
    | packageReference _ name' => simp [bare, Ident.bare_eq hdetail]
    | _ => cases hform
  | packageUse _ name => cases m' with
    | packageUse _ name' => simp [bare, Ident.bare_eq hdetail]
    | _ => cases hform

namespace Node

/-- The nodes that are shown below a lexical node are lexical. -/
theorem Everywhere.shown {node : Node} (h : node.Everywhere Lexical) :
    ∀ child ∈ node.shown, child.Everywhere Lexical := by
  have hbelow := (everywhere_iff.1 h).2
  cases node with
  | statement s => cases s with
    | declaration d => exact (everywhere_iff.1 (hbelow _ List.mem_cons_self)).2
    | _ => exact hbelow
  | expression e =>
    obtain ⟨types, htypes⟩ := belowExpression_eq e
    intro child hchild
    refine hbelow child ?_
    rw [children, htypes]
    exact List.mem_append_right _ hchild
  | parameter _ | type _ => exact List.forall_mem_nil _
  | member _ | alternative _ _ | declaration _ => exact hbelow

/-- A lexical node is told by its line and by the nodes that are shown below it. -/
theorem bare_eq_of_line {a b : Node} (ha : a.Everywhere Lexical) (hb : b.Everywhere Lexical)
    (hlabel : a.label = b.label) (hdetail : a.detail = b.detail)
    (hshown : a.shown.map bare = b.shown.map bare) : a.bare = b.bare := by
  have hform := form_eq_of_label_eq hlabel
  have hsort : a.sort = b.sort := by rw [← sortAt_form, ← sortAt_form, hform]
  cases a with
  | member m => cases b with
    | member m' => exact congrArg member (Member.bare_eq_of_line ha hb hform hdetail hshown)
    | _ => cases hsort
  | statement s => cases b with
    | statement s' => exact congrArg statement (Statement.bare_eq_of_line hform hdetail hshown)
    | declaration d' =>
      have hbare : s.bare = (Statement.declaration d').bare :=
        Statement.bare_eq_of_line hform hdetail hshown
      exact congrArg statement hbare
    | _ => cases hsort
  | declaration d => cases b with
    | statement s' =>
      have hbare : (Statement.declaration d).bare = s'.bare :=
        Statement.bare_eq_of_line hform hdetail hshown
      exact congrArg statement hbare
    | declaration d' =>
      have hbare : (Statement.declaration d).bare = (Statement.declaration d').bare :=
        Statement.bare_eq_of_line hform hdetail hshown
      exact congrArg statement hbare
    | _ => cases hsort
  | alternative _ s => cases b with
    | alternative _ s' => simpa [shown, children, bare] using hshown
    | _ => cases hsort
  | parameter p => cases b with
    | parameter p' =>
      simp only [detail, String.append_assoc] at hdetail
      obtain ⟨hname, hrest⟩ := (ha.self.names p.name List.mem_cons_self).append_inj
        (hb.self.names p'.name List.mem_cons_self) (parted_append rfl (by decide) _)
        (parted_append rfl (by decide) _) hdetail
      have htext : p.type.text = p'.type.text := by simpa using hrest
      have htype := bare_eq_of_typeText (ha.type List.mem_cons_self) (hb.type List.mem_cons_self)
        htext
      simp [bare, Parameter.bare, Ident.bare_eq hname, htype]
    | _ => cases hsort
  | type c => cases b with
    | type c' => exact congrArg type (bare_eq_of_typeText ha hb hdetail)
    | _ => cases hsort
  | expression e => cases b with
    | expression e' =>
      have hparts : e.parts.map Expression.bare = e'.parts.map Expression.bare := by
        simpa [shown, expression?, Function.comp_def, bare] using
          congrArg (List.filterMap expression?) hshown
      exact congrArg expression (Expression.bare_eq_of_line ha hb hform hdetail hparts)
    | _ => cases hsort

/-- Lexical nodes with the same outline are the same but for their places. -/
theorem bare_eq_of_outline {a b : Node} (ha : a.Everywhere Lexical) (hb : b.Everywhere Lexical)
    (h : a.outline = b.outline) : a.bare = b.bare := by
  -- The induction is on the outline that both have, since neither node gives the other's shape.
  have hall : ∀ (o : Outline) (a b : Node), a.Everywhere Lexical → b.Everywhere Lexical →
      a.outline = o → b.outline = o → a.bare = b.bare := by
    intro o
    induction o using Outline.induction with
    | node label detail lines ih =>
      intro a b ha hb hoa hob
      rw [outline_eq, Outline.node.injEq] at hoa hob
      obtain ⟨hlabel, hdetail, hlines⟩ := hoa
      obtain ⟨hlabel', hdetail', hlines'⟩ := hob
      refine bare_eq_of_line ha hb (hlabel.trans hlabel'.symm) (hdetail.trans hdetail'.symm) ?_
      refine map_eq_of_map_eq (hlines.trans hlines'.symm) ?_
      intro x hx y hy hxy
      have hmem : x.outline ∈ lines := by
        rw [← hlines]
        exact List.mem_map_of_mem hx
      exact ih x.outline hmem x y (ha.shown x hx) (hb.shown y hy) rfl hxy.symm
  exact hall a.outline a b ha hb rfl h.symm

end Node

/-! ### Details that can be read back -/

theorem IsName.notMem_lineFeed {name : String} (h : IsName name) : '\n' ∉ name.toList :=
  h.1.notMem (by decide)

theorem Sign.notMem_lineFeed (s : Sign) : '\n' ∉ s.text.toList := by
  intro hmem
  cases s.isBlank_spelling '\n' hmem

theorem qualified_notMem_lineFeed {package : Option Ident} {name : Ident}
    (h : AreNames (package.toList ++ [name])) :
    '\n' ∉ (qualified (package.map Ident.name) name.name).toList := by
  have hname := (h name (by simp)).notMem_lineFeed
  cases package with
  | none => exact hname
  | some package =>
    have hpackage := (h package (by simp)).notMem_lineFeed
    simp [qualified, hname, hpackage]

namespace TypeClause

mutual

/-- The text of a type stands on one line. -/
theorem notMem_text : ∀ {c : TypeClause}, (Node.type c).Everywhere Lexical → '\n' ∉ c.text.toList
  | ⟨package, name, [], closing⟩, h => by
    rw [text]
    exact qualified_notMem_lineFeed h.self.names
  | ⟨package, name, first :: others, closing⟩, h => by
    have hfirst := qualified_notMem_lineFeed h.self.names
    have hinside := notMem_textAll (everywhere_iff.1 h).2
    have hopening := Sign.lbrack.notMem_lineFeed
    have hclosing := Sign.rbrack.notMem_lineFeed
    rw [toList_text_cons]
    simp only [List.mem_append, not_or]
    exact ⟨⟨⟨hfirst, hopening⟩, hinside⟩, hclosing⟩

theorem notMem_textAll : ∀ {cs : List TypeClause}, AllLexical (cs.map type) → '\n' ∉ textAll cs
  | [], _ => nofun
  | [c], h => by
    have hfirst := notMem_text (h (type c) List.mem_cons_self)
    simpa [textAll, textTail] using hfirst
  | c :: d :: others, h => by
    obtain ⟨hfirst, hothers⟩ := List.forall_mem_cons.1 h
    have hfirst := notMem_text hfirst
    have hothers := notMem_textAll hothers
    have hcomma := Sign.comma.notMem_lineFeed
    rw [textAll_cons_cons]
    simp only [List.mem_append, not_or]
    exact ⟨⟨⟨hfirst, hcomma⟩, by decide⟩, hothers⟩

end

end TypeClause

namespace Node

theorem label_ne_literal {node : Node} (h : node.form ≠ 18) :
    node.label ≠ "Literal Expression" := by
  intro hlabel
  have hsame : node.label = (expression (.literal mainWritten)).label := hlabel
  exact h (form_eq_of_label_eq hsame)

theorem delimited_of {node : Node} (hform : node.form ≠ 18) (h : '\n' ∉ node.detail.toList) :
    Outline.Delimited node.label node.detail := by
  rw [Outline.Delimited, if_neg (label_ne_literal hform)]
  exact h

theorem delimited_expression {e : Expression} (h : (expression e).Everywhere Lexical) :
    Outline.Delimited (expression e).label (expression e).detail := by
  have hnames : ∀ n ∈ e.ownNames, '\n' ∉ n.name.toList :=
    fun n hn => (h.self.names n hn).notMem_lineFeed
  have htype : ∀ c, type c ∈ belowExpression e → '\n' ∉ c.text.toList :=
    fun c hc => TypeClause.notMem_text (h.type hc)
  cases e with
  | literal t => exact ⟨t, h.self.consistent, rfl⟩
  | name n | reference _ n | assignment n _ | call n _ _ =>
    exact delimited_of nofun (hnames n List.mem_cons_self)
  | this _ | parenthesized _ _ _ | dereference _ _ | main _ _ | arrayAccess _ _ _
  | arrayAssignment _ _ _ => exact delimited_of nofun nofun
  | unary operator _ | binary _ operator _ =>
    exact delimited_of nofun operator.sign.notMem_lineFeed
  | make _ c _ _ | makeStruct _ c _ _ => exact delimited_of nofun (htype c List.mem_cons_self)
  | cast c _ _ | makeSized _ c _ _ | makeArray _ c _ _ =>
    have hc := htype c List.mem_cons_self
    exact delimited_of nofun (by simp [detail, Expression.detail, hc])
  | packageCall first second _ _ | typeCall first second _ _ | fieldAccess first second
  | fieldAssignment first second _ =>
    have hfirst := hnames first List.mem_cons_self
    have hsecond := hnames second (List.mem_cons_of_mem _ List.mem_cons_self)
    exact delimited_of nofun (by simp [detail, Expression.detail, hfirst, hsecond])
  | edit target operator _ | step target operator =>
    have htarget := hnames target List.mem_cons_self
    have hsign := operator.sign.notMem_lineFeed
    exact delimited_of nofun (by simp [detail, Expression.detail, htarget, hsign])

theorem notMem_declaration {d : VariableDeclaration} (h : (declaration d).Lexical) :
    '\n' ∉ d.detail.toList := by
  have hname := (h.names d.name List.mem_cons_self).notMem_lineFeed
  cases hword : d.readOnly <;>
    simp [VariableDeclaration.detail, VariableDeclaration.word, hword, hname]

theorem delimited_member {m : Member} (h : (member m).Lexical) :
    Outline.Delimited (member m).label (member m).detail := by
  have hnames : ∀ n ∈ m.ownNames, '\n' ∉ n.name.toList :=
    fun n hn => (h.names n hn).notMem_lineFeed
  cases m with
  | statement _ => exact delimited_of nofun nofun
  | function f =>
    have hname := hnames f.name List.mem_cons_self
    refine delimited_of nofun ?_
    cases hvisibility : f.visibility <;> simp [detail, Member.detail, hvisibility, hname]
  | external e => exact delimited_of nofun (hnames e.name List.mem_cons_self)
  | struct d => exact delimited_of nofun (hnames d.name List.mem_cons_self)
  | packageReference _ name | packageUse _ name =>
    exact delimited_of nofun (hnames name List.mem_cons_self)

/-- The end of the detail of a lexical node can be found. -/
theorem delimited {node : Node} (h : node.Everywhere Lexical) :
    Outline.Delimited node.label node.detail := by
  have hbelow := (everywhere_iff.1 h).2
  cases node with
  | expression e => exact delimited_expression h
  | type c => exact delimited_of nofun (TypeClause.notMem_text h)
  | parameter p =>
    have hname := (h.self.names p.name List.mem_cons_self).notMem_lineFeed
    have htype := TypeClause.notMem_text (h.type List.mem_cons_self)
    exact delimited_of nofun (by simp [detail, hname, htype])
  | alternative _ _ => exact delimited_of nofun nofun
  | declaration d => exact delimited_of nofun (notMem_declaration h.self)
  | statement s => cases s with
    | declaration d =>
      exact delimited_of nofun (notMem_declaration (hbelow _ List.mem_cons_self).self)
    | _ => exact delimited_of nofun nofun
  | member m => exact delimited_member h.self

/-- The outline of a lexical node has lines of a dump. -/
theorem plain_outline {node : Node} (h : node.Everywhere Lexical) : node.outline.Plain := by
  have hall : ∀ (o : Outline) (node : Node), node.Everywhere Lexical → node.outline = o →
      o.Plain := by
    intro o
    induction o using Outline.induction with
    | node label detail lines ih =>
      intro node h ho
      rw [outline_eq, Outline.node.injEq] at ho
      obtain ⟨rfl, rfl, rfl⟩ := ho
      refine .node node.label_mem_labels (delimited h) ?_
      intro line hline
      obtain ⟨child, hchild, rfl⟩ := List.mem_map.1 hline
      exact ih child.outline hline child (h.shown child hchild) rfl
  exact hall node.outline node h rfl

end Node

/-- The dumps of two programs, each read from some source, are the same without colours only if
their trees are the same but for their places and for the white space behind their literals. -/
theorem treeText_injective {file file' : Nat} {hash hash' : Bool} {source source' : String}
    {tokens tokens' : List Token} {members members' : List Member}
    (htokens : tokenize file hash source = .ok tokens)
    (hparse : parseProgram tokens = .ok members)
    (htokens' : tokenize file' hash' source' = .ok tokens')
    (hparse' : parseProgram tokens' = .ok members')
    (htext : treeText members false = treeText members' false) :
    members.map Member.bare = members'.map Member.bare := by
  have hlexical := List.forall_mem_map.1 (parsed_lexical htokens hparse)
  have hlexical' := List.forall_mem_map.1 (parsed_lexical htokens' hparse')
  have houtlines := Outline.render_injective
    (List.forall_mem_map.2 fun m hm => plain_outline (hlexical m hm))
    (List.forall_mem_map.2 fun m hm => plain_outline (hlexical' m hm)) htext
  refine map_eq_of_map_eq houtlines ?_
  intro m hm m' hm' hsame
  exact member.inj (bare_eq_of_outline (hlexical m hm) (hlexical' m' hm') hsame)

/-- A literal with a line feed in it and what looks like another line. White space, the comma behind
the argument and the semicolon are no part of the tree. -/
theorem treeText_injective_lineFeed :
    let tokens : List Token :=
      [⟨.identifier, "f", none, ⟨0, 0, 1, 1, 1, 1, 2⟩, false⟩,
       ⟨.sign .lparen, "(", none, ⟨0, 1, 2, 1, 2, 1, 3⟩, false⟩,
       ⟨.text, "'\n- B'", some (.text "\n- B"), ⟨0, 2, 8, 1, 3, 2, 5⟩, false⟩,
       ⟨.sign .rparen, ")", none, ⟨0, 8, 9, 2, 5, 2, 6⟩, true⟩,
       Token.ending ⟨0, 9, 9, 2, 6, 2, 6⟩]
    let tokens' : List Token :=
      [⟨.identifier, "f", none, ⟨0, 0, 1, 1, 1, 1, 2⟩, true⟩,
       ⟨.sign .lparen, "(", none, ⟨0, 2, 3, 1, 3, 1, 4⟩, true⟩,
       ⟨.text, "'\n- B'", some (.text "\n- B"), ⟨0, 4, 10, 1, 5, 2, 5⟩, true⟩,
       ⟨.sign .comma, ",", none, ⟨0, 11, 12, 2, 6, 2, 7⟩, true⟩,
       ⟨.sign .rparen, ")", none, ⟨0, 13, 14, 2, 8, 2, 9⟩, true⟩,
       ⟨.sign .semicolon, ";", none, ⟨0, 15, 16, 2, 10, 2, 11⟩, true⟩,
       Token.ending ⟨0, 16, 16, 2, 11, 2, 11⟩]
    let members : List Member :=
      [.statement (.expression (.call ⟨"f", ⟨0, 0, 1, 1, 1, 1, 2⟩⟩
        [.literal ⟨.text, "'\n- B'", some (.text "\n- B"), ⟨0, 2, 8, 1, 3, 2, 5⟩, false⟩]
        ⟨0, 8, 9, 2, 5, 2, 6⟩))]
    let members' : List Member :=
      [.statement (.expression (.call ⟨"f", ⟨0, 0, 1, 1, 1, 1, 2⟩⟩
        [.literal ⟨.text, "'\n- B'", some (.text "\n- B"), ⟨0, 4, 10, 1, 5, 2, 5⟩, true⟩]
        ⟨0, 13, 14, 2, 8, 2, 9⟩))]
    tokenize 0 true "f('\n- B')" = .ok tokens ∧ parseProgram tokens = .ok members ∧
      tokenize 0 true "f ( '\n- B' , ) ;" = .ok tokens' ∧ parseProgram tokens' = .ok members' ∧
      treeText members false = treeText members' false ∧
      members.map Member.bare = members'.map Member.bare := by
  intro tokens tokens' members members'
  have htokens : tokenize 0 true "f('\n- B')" = .ok tokens := by
    decide +kernel
  have hparse : parseProgram tokens = .ok members := by
    cbv
  have htokens' : tokenize 0 true "f ( '\n- B' , ) ;" = .ok tokens' := by
    decide +kernel
  have hparse' : parseProgram tokens' = .ok members' := by
    cbv
  have htext : treeText members false = treeText members' false := by
    decide +kernel
  exact ⟨htokens, hparse, htokens', hparse', htext,
    treeText_injective htokens hparse htokens' hparse' htext⟩

end TodLang
