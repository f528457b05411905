import TodLang.Proofs.Grammar.Stability
import TodLang.Proofs.Symbol.Fingerprint
import TodLang.Proofs.Token.Dialect
import TodLang.Proofs.Tree.Siblings
/-!
What the texts in a syntax tree look like. The names in the tree of a source are written like names
and are no reserved words, and a literal is read back from its own characters. This does not depend
on whether `#` begins a comment, since neither begins with it. The main result is `parsed_lexical`.
-/

namespace TodLang

/-! ### Names and literals -/

/-- Whether a text is read as a name. -/
def IsName (text : String) : Prop :=
  IsIdentifier text ∧ Keyword.ofText? text = none
  deriving Decidable

/-- All names are written like names. -/
def AreNames (names : List Ident) : Prop :=
  ∀ n ∈ names, IsName n.name

theorem AreNames.append {front back : List Ident} (hfront : AreNames front)
    (hback : AreNames back) : AreNames (front ++ back) :=
  List.forall_mem_append.2 ⟨hfront, hback⟩

namespace Token

variable {hash : Bool} {t : Token}

/-- Whether `#` begins a comment makes a difference for no token with a meaning. -/
theorem Legible.either (ht : t.Legible hash) (hkind : t.kind ≠ .illegal) (other : Bool) :
    t.Legible other := by
  obtain ⟨c, tail, htext, hpiece⟩ := ht.exists_readPiece
  have hc : c ≠ '#' := by
    rintro rfl
    exact hkind (illegal_of_readPiece_hash hpiece)
  rw [Legible, htext, readFirst?, readPiece_of_ne hc tail other hash, hpiece]

theorem Legible.isName (ht : t.Legible hash) (hkind : t.kind = .identifier) :
    IsName t.literal := by
  obtain ⟨c, tail, htext, hpiece⟩ := ht.exists_readPiece
  rw [hkind] at hpiece
  obtain ⟨hstart, hword⟩ := wordLexeme_of_readPiece hpiece
  obtain ⟨hfree, -, hrun⟩ := wordLexeme_eq_identifier_iff.1 hword
  rw [← hrun, ← htext, String.ofList_toList] at hfree
  obtain ⟨-, hrun⟩ := List.cons.inj hrun
  have hall : ∀ d ∈ tail, isNamePart d = true := by
    rw [hrun]
    exact fun d hd => List.mem_takeWhile_imp hd
  exact ⟨⟨by simp [htext, hstart], by simpa [htext] using hall⟩, hfree⟩

end Token

/-! ### Texts in a node -/

/-- The names that an expression has beside those of the expressions and types in it. -/
def Expression.ownNames : Expression → List Ident
  | name n | reference _ n => [n]
  | assignment target _ | edit target _ _ | step target _ => [target]
  | call callee _ _ => [callee]
  | packageCall package callee _ _ => [package, callee]
  | typeCall receiver callee _ _ => [receiver, callee]
  | fieldAccess object field | fieldAssignment object field _ => [object, field]
  | _ => []

/-- The names that a member has beside those of the nodes below it. -/
def Member.ownNames : Member → List Ident
  | statement _ => []
  | function f => [f.name]
  | external e => [e.name]
  | struct d => [d.name]
  | packageReference _ name | packageUse _ name => [name]

namespace Node

/-- The names that stand in a node and not in a node below it. -/
def ownNames : Node → List Ident
  | member m => m.ownNames
  | statement _ | alternative _ _ => []
  | declaration d => [d.name]
  | parameter p => [p.name]
  | type c => c.package.toList ++ [c.name]
  | expression e => e.ownNames

/-- What a node says beside its names: a literal is read as it stands there, and a type is closed by
a bracket if it has types in brackets. -/
def Consistent : Node → Prop
  | expression (.literal t) => t.Legible false
  | type c => c.closing.isSome = c.isGeneric
  | _ => True

/-- The names of a node are written like names, and the node is consistent. -/
structure Lexical (node : Node) : Prop where
  names : AreNames node.ownNames
  consistent : node.Consistent

/-- All nodes of some trees are lexical. -/
def AllLexical (nodes : List Node) : Prop :=
  ∀ node ∈ nodes, node.Everywhere Lexical

theorem AllLexical.nil : AllLexical [] :=
  List.forall_mem_nil _

theorem AllLexical.of {node : Node} (hconsistent : node.Consistent)
    (hnames : AreNames node.ownNames) (hbelow : AllLexical node.children) :
    AllLexical [node] :=
  List.forall_mem_singleton.2 (everywhere_iff.2 ⟨⟨hnames, hconsistent⟩, hbelow⟩)

/-- A node with nothing of its own. -/
theorem AllLexical.of_below {node : Node} (hconsistent : node.Consistent)
    (hnames : node.ownNames = []) (hbelow : AllLexical node.children) : AllLexical [node] := by
  refine AllLexical.of hconsistent ?_ hbelow
  rw [hnames]
  exact List.forall_mem_nil _

/-- What holds everywhere in a tree holds everywhere in the trees inside it. -/
theorem Everywhere.within {holds : Node → Prop} {inner node : Node} (h : node.Everywhere holds)
    (hwithin : Within inner node) : inner.Everywhere holds := by
  induction hwithin with
  | self => exact h
  | under hchild _ ih => exact ih ((everywhere_iff.1 h).2 _ hchild)

theorem AllLexical.append {front back : List Node} (hfront : AllLexical front)
    (hback : AllLexical back) : AllLexical (front ++ back) :=
  List.forall_mem_append.2 ⟨hfront, hback⟩

end Node

open Node

section

variable {hash : Bool} {tokens : List Token}

/-! ### Written types -/

theorem NameSpelling.areNames {name : Ident} (h : NameSpelling name tokens)
    (hlegible : AllLegible hash tokens) : AreNames [name] := by
  cases h with
  | @token t h =>
    exact List.forall_mem_singleton.2 ((hlegible t (List.mem_singleton_self t)).isName h)

theorem QualifiedSpelling.areNames {package : Option Ident} {name : Ident}
    (h : QualifiedSpelling package name tokens) (hlegible : AllLegible hash tokens) :
    AreNames (package.toList ++ [name]) := by
  cases h with
  | plain hname => exact hname.areNames hlegible
  | qualified hpackage _ hname =>
    simp only [allLegible_append] at hlegible
    obtain ⟨⟨hfront, -⟩, hback⟩ := hlegible
    exact (hpackage.areNames hfront).append (hname.areNames hback)

theorem SpellsType.clauses_ne_nil {cs : List TypeClause} (h : SpellsType (.clauses cs) tokens) :
    cs ≠ [] := by
  rintro rfl
  cases h

theorem SpellsType.lexical {part : TypePart} (h : SpellsType part tokens)
    (hlegible : AllLegible hash tokens) : AllLexical part.nodes := by
  induction h with
  | plain hname => exact .of rfl (hname.areNames hlegible) .nil
  | @generic package name arguments _ _ _ _ _ hname _ harguments _ ih =>
    simp only [allLegible_append] at hlegible
    obtain ⟨⟨⟨hfront, -⟩, hinside⟩, -⟩ := hlegible
    refine .of ?_ (hname.areNames hfront) (ih hinside)
    simp [Consistent, TypeClause.isGeneric, harguments.clauses_ne_nil]
  | last _ ih => exact ih hlegible
  | more _ _ _ ih ihothers =>
    simp only [allLegible_append] at hlegible
    obtain ⟨⟨hfront, -⟩, hback⟩ := hlegible
    exact (ih hfront).append (ihothers hback)

theorem TypeSpelling.lexical {c : TypeClause} (h : TypeSpelling c tokens)
    (hlegible : AllLegible hash tokens) : AllLexical [type c] :=
  SpellsType.lexical h hlegible

/-! ### Expressions -/

theorem TokenKind.ne_illegal_of_isLiteral {kind : TokenKind} (h : kind.isLiteral = true) :
    kind ≠ .illegal := by
  rintro rfl
  cases h

theorem SpellsExpression.lexical {part : ExpressionPart} (h : SpellsExpression part tokens)
    (hlegible : AllLegible hash tokens) : AllLexical part.nodes := by
  induction h with
  | operation _ ih | operand _ ih | accessed _ ih | primary _ ih | ownCall _ ih
  | ownAssignment _ ih => exact ih hlegible
  | @literal t ht =>
    have hlegible := hlegible t (List.mem_singleton_self t)
    exact .of_below (hlegible.either (TokenKind.ne_illegal_of_isLiteral ht) false) rfl .nil
  | name h | ownName h =>
    exact AllLexical.of trivial (h.areNames hlegible) .nil
  | this _ => exact AllLexical.of_below trivial rfl .nil
  | none => exact .nil
  | last _ ih => exact ih hlegible
  | more _ _ _ ih ihothers =>
    simp only [allLegible_append] at hlegible
    obtain ⟨⟨hfront, -⟩, hback⟩ := hlegible
    exact (ih hfront).append (ihothers hback)
  | assignment htarget _ _ ih | edit htarget _ _ _ ih =>
    simp only [allLegible_append] at hlegible
    obtain ⟨⟨hfront, -⟩, hback⟩ := hlegible
    exact AllLexical.of trivial (htarget.areNames hfront) (ih hback)
  | step htarget _ _ _ _ =>
    simp only [allLegible_append] at hlegible
    exact AllLexical.of trivial (htarget.areNames hlegible.1) .nil
  | reference _ hname =>
    simp only [allLegible_append] at hlegible
    exact AllLexical.of trivial (hname.areNames hlegible.2) .nil
  | unary _ _ _ _ ih | dereference _ _ ih =>
    simp only [allLegible_append] at hlegible
    exact AllLexical.of_below trivial rfl (ih hlegible.2)
  | main _ _ _ _ _ ih =>
    rw [allLegible_cons] at hlegible
    exact AllLexical.of_below trivial rfl (ih hlegible.2)
  | parenthesized _ _ _ ih =>
    simp only [allLegible_append] at hlegible
    exact AllLexical.of_below trivial rfl (ih hlegible.1.2)
  | binary _ _ _ _ ihleft ihright =>
    simp only [allLegible_append] at hlegible
    obtain ⟨⟨hfront, -⟩, hback⟩ := hlegible
    exact AllLexical.of_below trivial rfl ((ihleft hfront).append (ihright hback))
  | arrayAccess _ _ _ _ iharray ihindex =>
    simp only [allLegible_append] at hlegible
    obtain ⟨⟨⟨hfront, -⟩, hinside⟩, -⟩ := hlegible
    exact AllLexical.of_below trivial rfl ((iharray hfront).append (ihindex hinside))
  | @element array _ _ _ _ _ _ harray _ _ _ ih =>
    simp only [allLegible_append] at hlegible
    obtain ⟨⟨⟨hfront, -⟩, hinside⟩, -⟩ := hlegible
    have hname : AllLexical [.expression (.name array)] :=
      .of trivial (harray.areNames hfront) .nil
    exact AllLexical.of_below trivial rfl (hname.append (ih hinside))
  | arrayAssignment _ _ _ _ _ _ iharray ihindex ihvalue =>
    simp only [allLegible_append] at hlegible
    obtain ⟨⟨⟨⟨⟨hfront, -⟩, hinside⟩, -⟩, -⟩, hback⟩ := hlegible
    have hindex := (ihindex hinside).append (ihvalue hback)
    exact AllLexical.of_below trivial rfl ((iharray hfront).append hindex)
  | @elementAssignment array _ _ _ _ _ _ _ _ harray _ _ _ _ _ ihindex ihvalue =>
    simp only [allLegible_append] at hlegible
    obtain ⟨⟨⟨⟨⟨hfront, -⟩, hinside⟩, -⟩, -⟩, hback⟩ := hlegible
    have hname : AllLexical [.expression (.name array)] :=
      .of trivial (harray.areNames hfront) .nil
    have hindex := (ihindex hinside).append (ihvalue hback)
    exact AllLexical.of_below trivial rfl (hname.append hindex)
  | call hcallee _ _ _ ih =>
    simp only [allLegible_append] at hlegible
    obtain ⟨⟨⟨hfront, -⟩, hinside⟩, -⟩ := hlegible
    exact AllLexical.of trivial (hcallee.areNames hfront) (ih hinside)
  | cast htype _ _ _ _ ih =>
    simp only [allLegible_append] at hlegible
    obtain ⟨⟨⟨hfront, -⟩, hinside⟩, -⟩ := hlegible
    exact AllLexical.of_below trivial rfl ((htype.lexical hfront).append (ih hinside))
  | packageCall hfirst _ hcallee _ _ _ ih | typeCall hfirst _ hcallee _ _ _ ih =>
    simp only [allLegible_append] at hlegible
    obtain ⟨⟨⟨⟨⟨hfront, -⟩, hmiddle⟩, -⟩, hinside⟩, -⟩ := hlegible
    have hnames := (hfirst.areNames hfront).append (hcallee.areNames hmiddle)
    exact AllLexical.of trivial hnames (ih hinside)
  | fieldAccess hobject _ hfield =>
    simp only [allLegible_append] at hlegible
    obtain ⟨⟨hfront, -⟩, hback⟩ := hlegible
    have hnames := (hobject.areNames hfront).append (hfield.areNames hback)
    exact AllLexical.of trivial hnames .nil
  | fieldAssignment hobject _ hfield _ _ ih =>
    simp only [allLegible_append] at hlegible
    obtain ⟨⟨⟨⟨hfront, -⟩, hmiddle⟩, -⟩, hback⟩ := hlegible
    have hnames := (hobject.areNames hfront).append (hfield.areNames hmiddle)
    exact AllLexical.of trivial hnames (ih hback)
  | make _ htype _ _ _ _ ih | makeSized _ htype _ _ _ _ ih | makeArray _ htype _ _ _ _ ih
  | makeStruct _ htype _ _ _ _ ih =>
    simp only [allLegible_append] at hlegible
    obtain ⟨⟨⟨⟨-, hfront⟩, -⟩, hinside⟩, -⟩ := hlegible
    exact AllLexical.of_below trivial rfl ((htype.lexical hfront).append (ih hinside))

theorem ExpressionSpelling.lexical {e : Expression} (h : ExpressionSpelling e tokens)
    (hlegible : AllLegible hash tokens) : AllLexical [.expression e] :=
  SpellsExpression.lexical h hlegible

/-! ### Statements -/

theorem Optionally.lexical {α : Type} {spells : α → List Token → Prop} {node : α → Node}
    {value : Option α} (h : Optionally spells value tokens)
    (hspells : ∀ value, spells value tokens → AllLexical [node value]) :
    AllLexical (value.map node).toList := by
  cases h with
  | missing => exact .nil
  | present h => exact hspells _ h

theorem InitialSpelling.lexical {value : Expression} (h : InitialSpelling value tokens)
    (hlegible : AllLegible hash tokens) : AllLexical [.expression value] := by
  cases h with
  | intro _ hvalue =>
    rw [allLegible_append] at hlegible
    exact hvalue.lexical hlegible.2

theorem ConditionSpelling.lexical {condition : Expression} (h : ConditionSpelling condition tokens)
    (hlegible : AllLegible hash tokens) : AllLexical [.expression condition] := by
  cases h with
  | intro _ hcondition _ =>
    simp only [allLegible_append] at hlegible
    exact hcondition.lexical hlegible.1.2

theorem DeclarationSpelling.lexical {d : VariableDeclaration} (h : DeclarationSpelling d tokens)
    (hlegible : AllLegible hash tokens) : AllLexical [declaration d] := by
  cases h with
  | intro _ htype hname hvalue =>
    simp only [allLegible_append] at hlegible
    obtain ⟨⟨⟨-, hclause⟩, hfront⟩, hback⟩ := hlegible
    have htype := htype.lexical fun _ h => TypeSpelling.lexical h hclause
    have hvalue := hvalue.lexical fun _ h => InitialSpelling.lexical h hback
    exact AllLexical.of trivial (hname.areNames hfront) (htype.append hvalue)

theorem SpellsStatement.lexical {part : StatementPart} (h : SpellsStatement part tokens)
    (hlegible : AllLegible hash tokens) : AllLexical part.nodes := by
  induction h with
  | statement _ _ ih =>
    rw [allLegible_append] at hlegible
    exact ih hlegible.1
  | declaration h => exact AllLexical.of_below trivial rfl (h.lexical hlegible)
  | expression h => exact AllLexical.of_below trivial rfl (h.lexical hlegible)
  | «break» _ | «continue» _ => exact AllLexical.of_below trivial rfl .nil
  | «return» _ hvalue =>
    rw [allLegible_append] at hlegible
    exact AllLexical.of_below trivial rfl
      (hvalue.lexical fun _ h => ExpressionSpelling.lexical h hlegible.2)
  | block _ _ _ ih =>
    simp only [allLegible_append] at hlegible
    exact AllLexical.of_below trivial rfl (ih hlegible.1.2)
  | ifThen _ hcondition _ ih | «while» _ hcondition _ ih =>
    simp only [allLegible_append] at hlegible
    obtain ⟨⟨-, hfront⟩, hback⟩ := hlegible
    exact AllLexical.of_below trivial rfl ((hcondition.lexical hfront).append (ih hback))
  | @ifElse _ elseKeyword _ _ other _ _ _ _ _ _ hcondition _ _ _ ihbody ihalternative =>
    simp only [allLegible_append] at hlegible
    obtain ⟨⟨⟨⟨-, hfront⟩, hmiddle⟩, -⟩, hback⟩ := hlegible
    have hother : AllLexical [alternative elseKeyword other] :=
      .of_below trivial rfl (ihalternative hback)
    exact AllLexical.of_below trivial rfl
      ((hcondition.lexical hfront).append ((ihbody hmiddle).append hother))
  | «for» _ _ hinit _ hcondition _ _ _ _ ihstep ihbody =>
    simp only [allLegible_append] at hlegible
    obtain ⟨⟨⟨⟨⟨⟨⟨⟨-, -⟩, hfront⟩, -⟩, hmiddle⟩, -⟩, hinside⟩, -⟩, hback⟩ := hlegible
    have hbehind := (ihstep hinside).append (ihbody hback)
    have hbehind := (hcondition.lexical hmiddle).append hbehind
    exact AllLexical.of_below trivial rfl ((hinit.lexical hfront).append hbehind)
  | none => exact .nil
  | cons _ _ ih ihothers =>
    rw [allLegible_append] at hlegible
    exact (ih hlegible.1).append (ihothers hlegible.2)

theorem BlockSpelling.lexical {b : Block} (h : BlockSpelling b tokens)
    (hlegible : AllLegible hash tokens) : AllLexical [statement b.toStatement] := by
  cases h with
  | intro hopening h hclosing => exact (SpellsStatement.block hopening h hclosing).lexical hlegible

/-! ### Members -/

theorem ParameterSpelling.lexical {p : Parameter} (h : ParameterSpelling p tokens)
    (hlegible : AllLegible hash tokens) : AllLexical [parameter p] := by
  cases h with
  | intro hname htype =>
    rw [allLegible_append] at hlegible
    exact AllLexical.of trivial (hname.areNames hlegible.1) (htype.lexical hlegible.2)

theorem Separated.lexical {parameters : List Parameter}
    (h : Separated ParameterSpelling parameters tokens) (hlegible : AllLegible hash tokens) :
    AllLexical (parameters.map parameter) := by
  induction h with
  | last h => exact h.lexical hlegible
  | more h _ _ ih =>
    simp only [allLegible_append] at hlegible
    exact (h.lexical hlegible.1.1).append (ih hlegible.2)

theorem Listed.lexical {parameters : List Parameter}
    (h : Listed ParameterSpelling parameters tokens) (hlegible : AllLegible hash tokens) :
    AllLexical (parameters.map parameter) := by
  induction h with
  | none => exact .nil
  | last h => exact h.lexical hlegible
  | more h _ _ ih =>
    simp only [allLegible_append] at hlegible
    exact (h.lexical hlegible.1.1).append (ih hlegible.2)

theorem ParameterListSpelling.lexical {list : List Parameter × Span}
    (h : ParameterListSpelling list tokens) (hlegible : AllLegible hash tokens) :
    AllLexical (list.1.map parameter) := by
  cases h with
  | none _ _ => exact .nil
  | some _ hparameters _ =>
    simp only [allLegible_append] at hlegible
    exact hparameters.lexical hlegible.1.2

theorem MemberSpelling.lexical {m : Member} (h : MemberSpelling m tokens)
    (hlegible : AllLegible hash tokens) : AllLexical [member m] := by
  cases h with
  | statement h =>
    exact AllLexical.of_below trivial rfl (SpellsStatement.lexical h hlegible)
  | function h =>
    cases h with
    | intro _ _ hname hparameters hreturn hbody =>
      simp only [allLegible_append] at hlegible
      obtain ⟨⟨⟨⟨-, hmiddle⟩, hlist⟩, hclause⟩, hback⟩ := hlegible
      have hreturn := hreturn.lexical fun _ h => TypeSpelling.lexical h hclause
      have hsignature := (hparameters.lexical hlist).append hreturn
      exact AllLexical.of trivial (hname.areNames hmiddle)
        (hsignature.append (hbody.lexical hback))
  | external _ _ hname hparameters hreturn _ =>
    simp only [allLegible_append] at hlegible
    obtain ⟨⟨⟨⟨-, hfront⟩, hlist⟩, hclause⟩, -⟩ := hlegible
    have hreturn := hreturn.lexical fun _ h => TypeSpelling.lexical h hclause
    exact AllLexical.of trivial (hname.areNames hfront)
      ((hparameters.lexical hlist).append hreturn)
  | struct _ hname _ hfields _ _ =>
    simp only [allLegible_append] at hlegible
    obtain ⟨⟨⟨⟨⟨-, hfront⟩, -⟩, hinside⟩, -⟩, -⟩ := hlegible
    exact AllLexical.of trivial (hname.areNames hfront) (hfields.lexical hinside)
  | packageReference _ hname _ | packageUse _ hname _ =>
    simp only [allLegible_append] at hlegible
    exact AllLexical.of trivial (hname.areNames hlegible.1.2) .nil

theorem ProgramSpelling.lexical {members : List Member} (h : ProgramSpelling members tokens)
    (hlegible : AllLegible hash tokens) : AllLexical (members.map member) := by
  induction h with
  | nil => exact .nil
  | cons h _ ih =>
    rw [allLegible_append] at hlegible
    exact (h.lexical hlegible.1).append (ih hlegible.2)

end

/-- The names in the tree of a source are written like names, its literals are read as they stand
there, and its types are closed where they have types in brackets. -/
theorem parsed_lexical {file : Nat} {hash : Bool} {source : String} {tokens : List Token}
    {members : List Member} (htokens : tokenize file hash source = .ok tokens)
    (hparse : parseProgram tokens = .ok members) : AllLexical (members.map member) :=
  (parseProgram_spelling hparse).lexical (legible_tokenize htokens)

/-- A node in the tree of some source. -/
def Node.FromSource (node : Node) : Prop :=
  ∃ file hash source tokens members, tokenize file hash source = .ok tokens ∧
    parseProgram tokens = .ok members ∧ ∃ m ∈ members, Within node (.member m)

theorem Node.FromSource.lexical {node : Node} (h : node.FromSource) : node.Everywhere Lexical := by
  obtain ⟨file, hash, source, tokens, members, htokens, hparse, m, hm, hwithin⟩ := h
  exact (parsed_lexical htokens hparse _ (List.mem_map_of_mem hm)).within hwithin

end TodLang
