import TodLang.Proofs.Grammar.Legible
import TodLang.Proofs.Grammar.RereadProgram
import TodLang.Proofs.Grammar.Soundness
/-!
A program that is written out from its tree alone is read back. What is written for a tree that
some legible tokens spell is a readable row: its fixed tokens are legible, and its names and
literals are those of the spelling. So the written source has tokens that are alike to those that
were written, and they are parsed as the tree.
-/

namespace TodLang

/-- Every token is legible. -/
def AllLegible (hash : Bool) (tokens : List Token) : Prop :=
  ∀ t ∈ tokens, t.Legible hash

section

variable {hash : Bool}

@[simp] theorem allLegible_cons {t : Token} {tokens : List Token} :
    AllLegible hash (t :: tokens) ↔ t.Legible hash ∧ AllLegible hash tokens := by
  simp [AllLegible]

@[simp] theorem allLegible_append {front back : List Token} :
    AllLegible hash (front ++ back) ↔ AllLegible hash front ∧ AllLegible hash back := by
  simp [AllLegible, or_imp, forall_and]

@[simp] theorem readable_nil : Readable hash [] := .nil

theorem readable_cons {t : Token} (hbare : t.bare = t) {tokens : List Token} :
    Readable hash (t :: tokens) ↔ t.Legible hash ∧ Readable hash tokens := by
  constructor
  · intro h
    cases h with
    | loose ht _ h => exact ⟨ht, h⟩
    | step _ _ => cases congrArg Token.spaceAfter hbare
  · rintro ⟨ht, h⟩
    exact h.loose ht hbare

/-- Behind a readable row, what is readable stays so and nothing else becomes it. -/
@[simp] theorem readable_append {front back : List Token} (hfront : Readable hash front) :
    Readable hash (front ++ back) ↔ Readable hash back := by
  induction hfront with
  | nil => rfl
  | loose ht hbare _ ih =>
    rw [List.cons_append, readable_cons hbare, ih]
    exact and_iff_right ht
  | @step s tokens hs _ ih =>
    rw [← ih]
    constructor
    · intro h
      cases h with
      | loose _ hbare _ => cases congrArg Token.spaceAfter hbare
      | step _ h => exact h
    · exact fun h => h.step hs

@[simp] theorem readable_sign (s : Sign) {tokens : List Token} :
    Readable hash (s.written :: tokens) ↔ Readable hash tokens :=
  (readable_cons rfl).trans (and_iff_right (s.legible_written hash))

@[simp] theorem readable_keyword (k : Keyword) {tokens : List Token} :
    Readable hash (k.written :: tokens) ↔ Readable hash tokens :=
  (readable_cons rfl).trans (and_iff_right (k.legible_written hash))

@[simp] theorem readable_main {tokens : List Token} :
    Readable hash (mainWritten :: tokens) ↔ Readable hash tokens :=
  (readable_cons rfl).trans (and_iff_right (legible_mainWritten hash))

@[simp] theorem readable_name {name : Ident} {tokens : List Token} :
    Readable hash (name.written :: tokens) ↔
      name.written.Legible hash ∧ Readable hash tokens :=
  readable_cons rfl

/-! ### Written types -/

theorem NameSpelling.legible {name : Ident} {tokens : List Token} (h : NameSpelling name tokens)
    (hlegible : AllLegible hash tokens) : name.written.Legible hash := by
  cases h with
  | @token t h => exact (hlegible t (List.mem_singleton_self t)).ident_written h

theorem QualifiedSpelling.readable {package : Option Ident} {name : Ident} {tokens : List Token}
    (h : QualifiedSpelling package name tokens) (hlegible : AllLegible hash tokens) :
    name.written.Legible hash ∧ Readable hash (TypeClause.packageWritten package) := by
  cases h with
  | plain hname => exact ⟨hname.legible hlegible, .nil⟩
  | qualified hpackage _ hname =>
    simp only [allLegible_append] at hlegible
    obtain ⟨⟨hfront, -⟩, hback⟩ := hlegible
    exact ⟨hname.legible hback, by simp [TypeClause.packageWritten, hpackage.legible hfront]⟩

/-- What a run of tokens can spell where types are written has a readable spelling. -/
def TypePart.IsReadable (hash : Bool) : TypePart → Prop
  | clause c => Readable hash c.written
  | clauses cs => ∀ c ∈ cs, Readable hash c.written

theorem TypeClause.readable_writtenTail {cs : List TypeClause}
    (h : ∀ c ∈ cs, Readable hash c.written) : Readable hash (writtenTail cs) := by
  induction cs with
  | nil => exact .nil
  | cons c cs ih =>
    rw [List.forall_mem_cons] at h
    simp [writtenTail, h.1, ih h.2]

theorem SpellsType.readable {part : TypePart} {tokens : List Token} (h : SpellsType part tokens)
    (hlegible : AllLegible hash tokens) : part.IsReadable hash := by
  induction h with
  | plain hname =>
    obtain ⟨hlegible, hpackage⟩ := hname.readable hlegible
    simp [TypePart.IsReadable, TypeClause.written, hlegible, hpackage]
  | @generic package name arguments closing front opened inside closed hname _ harguments _ ih =>
    simp only [allLegible_append] at hlegible
    obtain ⟨⟨⟨hfront, -⟩, hinside⟩, -⟩ := hlegible
    obtain ⟨hname, hpackage⟩ := hname.readable hfront
    have hall : ∀ c ∈ arguments, Readable hash c.written := ih hinside
    cases arguments with
    | nil => cases harguments
    | cons first others =>
      rw [List.forall_mem_cons] at hall
      have htail := TypeClause.readable_writtenTail hall.2
      simp [TypePart.IsReadable, TypeClause.written, hname, hpackage, hall.1, htail]
  | last _ ih => simpa [TypePart.IsReadable] using ih hlegible
  | more _ _ _ ih ihothers =>
    simp only [allLegible_append] at hlegible
    obtain ⟨⟨hfront, -⟩, hback⟩ := hlegible
    exact List.forall_mem_cons.2 ⟨ih hfront, ihothers hback⟩

theorem TypeSpelling.readable {type : TypeClause} {tokens : List Token}
    (h : TypeSpelling type tokens) (hlegible : AllLegible hash tokens) :
    Readable hash type.written :=
  SpellsType.readable h hlegible

/-! ### Expressions -/

/-- What a run of tokens can spell where expressions are written has a readable spelling. -/
def ExpressionPart.IsReadable (hash : Bool) : ExpressionPart → Prop
  | expression e | operation _ e | operand e | accessed e | primary e | own e =>
    Readable hash e.written
  | arguments es => ∀ e ∈ es, Readable hash e.written

theorem Expression.readable_writtenTail {es : List Expression}
    (h : ∀ e ∈ es, Readable hash e.written) : Readable hash (writtenTail es) := by
  induction es with
  | nil => exact .nil
  | cons e es ih =>
    rw [List.forall_mem_cons] at h
    simp [writtenTail, h.1, ih h.2]

theorem Expression.readable_writtenAll {es : List Expression}
    (h : ∀ e ∈ es, Readable hash e.written) : Readable hash (writtenAll es) := by
  cases es with
  | nil => exact .nil
  | cons e es =>
    rw [List.forall_mem_cons] at h
    simp [writtenAll, h.1, readable_writtenTail h.2]

/-- An expression that legible tokens spell has a readable spelling. -/
theorem SpellsExpression.readable {part : ExpressionPart} {tokens : List Token}
    (h : SpellsExpression part tokens) (hlegible : AllLegible hash tokens) :
    part.IsReadable hash := by
  induction h with
  | operation _ ih | operand _ ih | accessed _ ih | primary _ ih | ownCall _ ih
  | ownAssignment _ ih => exact ih hlegible
  | name h | ownName h =>
    simp [ExpressionPart.IsReadable, Expression.written, h.legible hlegible]
  | this _ => simp [ExpressionPart.IsReadable, Expression.written]
  | none => simp [ExpressionPart.IsReadable]
  | @literal t _ =>
    have ht := (hlegible t (List.mem_singleton_self t)).bare
    exact Readable.nil.loose ht rfl
  | last _ ih => exact List.forall_mem_cons.2 ⟨ih hlegible, by simp⟩
  | more _ _ _ ih ihothers =>
    simp only [allLegible_append] at hlegible
    obtain ⟨⟨hfront, -⟩, hback⟩ := hlegible
    exact List.forall_mem_cons.2 ⟨ih hfront, ihothers hback⟩
  | assignment htarget _ _ ih | edit htarget _ _ _ ih =>
    simp only [allLegible_append] at hlegible
    obtain ⟨⟨hfront, -⟩, hback⟩ := hlegible
    have hvalue : Readable hash _ := ih hback
    simp [ExpressionPart.IsReadable, Expression.written, htarget.legible hfront, hvalue]
  | step htarget _ _ hstep _ =>
    simp only [allLegible_append] at hlegible
    exact (Readable.nil.step hstep).loose (htarget.legible hlegible.1) rfl
  | unary _ _ _ _ ih | dereference _ _ ih =>
    simp only [allLegible_append] at hlegible
    have hoperand : Readable hash _ := ih hlegible.2
    simp [ExpressionPart.IsReadable, Expression.written, hoperand]
  | reference _ hname =>
    simp only [allLegible_append] at hlegible
    simp [ExpressionPart.IsReadable, Expression.written, hname.legible hlegible.2]
  | binary _ _ _ _ ihleft ihright =>
    simp only [allLegible_append] at hlegible
    obtain ⟨⟨hfront, -⟩, hback⟩ := hlegible
    have hleft : Readable hash _ := ihleft hfront
    have hright : Readable hash _ := ihright hback
    simp [ExpressionPart.IsReadable, Expression.written, hleft, hright]
  | arrayAssignment _ _ _ _ _ _ iharray ihindex ihvalue =>
    simp only [allLegible_append] at hlegible
    obtain ⟨⟨⟨⟨⟨hfront, -⟩, hinside⟩, -⟩, -⟩, hback⟩ := hlegible
    have harray : Readable hash _ := iharray hfront
    have hindex : Readable hash _ := ihindex hinside
    have hvalue : Readable hash _ := ihvalue hback
    simp [ExpressionPart.IsReadable, Expression.written, harray, hindex, hvalue]
  | arrayAccess _ _ _ _ iharray ihindex =>
    simp only [allLegible_append] at hlegible
    obtain ⟨⟨⟨hfront, -⟩, hinside⟩, -⟩ := hlegible
    have harray : Readable hash _ := iharray hfront
    have hindex : Readable hash _ := ihindex hinside
    simp [ExpressionPart.IsReadable, Expression.written, harray, hindex]
  | element harray _ _ _ ih =>
    simp only [allLegible_append] at hlegible
    obtain ⟨⟨⟨hfront, -⟩, hinside⟩, -⟩ := hlegible
    have hindex : Readable hash _ := ih hinside
    simp [ExpressionPart.IsReadable, Expression.written, harray.legible hfront, hindex]
  | elementAssignment harray _ _ _ _ _ ihindex ihvalue =>
    simp only [allLegible_append] at hlegible
    obtain ⟨⟨⟨⟨⟨hfront, -⟩, hinside⟩, -⟩, -⟩, hback⟩ := hlegible
    have hindex : Readable hash _ := ihindex hinside
    have hvalue : Readable hash _ := ihvalue hback
    simp [ExpressionPart.IsReadable, Expression.written, harray.legible hfront, hindex, hvalue]
  | parenthesized _ _ _ ih =>
    simp only [allLegible_append] at hlegible
    obtain ⟨⟨-, hinside⟩, -⟩ := hlegible
    have hinner : Readable hash _ := ih hinside
    simp [ExpressionPart.IsReadable, Expression.written, hinner]
  | call hcallee _ _ _ ih =>
    simp only [allLegible_append] at hlegible
    obtain ⟨⟨⟨hfront, -⟩, hinside⟩, -⟩ := hlegible
    have hall := Expression.readable_writtenAll (ih hinside)
    simp [ExpressionPart.IsReadable, Expression.written, hcallee.legible hfront, hall]
  | cast htype _ _ _ _ ih =>
    simp only [allLegible_append] at hlegible
    obtain ⟨⟨⟨hfront, -⟩, hinside⟩, -⟩ := hlegible
    have hall := Expression.readable_writtenAll (ih hinside)
    simp [ExpressionPart.IsReadable, Expression.written, htype.readable hfront, hall]
  | packageCall hfirst _ hsecond _ _ _ ih | typeCall hfirst _ hsecond _ _ _ ih =>
    simp only [allLegible_append] at hlegible
    obtain ⟨⟨⟨⟨⟨hfront, -⟩, hmiddle⟩, -⟩, hinside⟩, -⟩ := hlegible
    have hall := Expression.readable_writtenAll (ih hinside)
    simp [ExpressionPart.IsReadable, Expression.written, hfirst.legible hfront,
      hsecond.legible hmiddle, hall]
  | fieldAccess hobject _ hfield =>
    simp only [allLegible_append] at hlegible
    obtain ⟨⟨hfront, -⟩, hback⟩ := hlegible
    simp [ExpressionPart.IsReadable, Expression.written, hobject.legible hfront,
      hfield.legible hback]
  | fieldAssignment hobject _ hfield _ _ ih =>
    simp only [allLegible_append] at hlegible
    obtain ⟨⟨⟨⟨hfront, -⟩, hmiddle⟩, -⟩, hback⟩ := hlegible
    have hvalue : Readable hash _ := ih hback
    simp [ExpressionPart.IsReadable, Expression.written, hobject.legible hfront,
      hfield.legible hmiddle, hvalue]
  | make _ htype _ _ _ _ ih | makeArray _ htype _ _ _ _ ih | makeStruct _ htype _ _ _ _ ih =>
    simp only [allLegible_append] at hlegible
    obtain ⟨⟨⟨⟨-, hfront⟩, -⟩, hinside⟩, -⟩ := hlegible
    have hall := Expression.readable_writtenAll (ih hinside)
    simp [ExpressionPart.IsReadable, Expression.written, htype.readable hfront, hall]
  | makeSized _ htype _ _ _ _ ih =>
    simp only [allLegible_append] at hlegible
    obtain ⟨⟨⟨⟨-, hfront⟩, -⟩, hinside⟩, -⟩ := hlegible
    have hlength : Readable hash _ := ih hinside
    simp [ExpressionPart.IsReadable, Expression.written, htype.readable hfront, hlength]
  | main _ _ _ _ _ ih =>
    rw [allLegible_cons] at hlegible
    have hinner : Readable hash _ := ih hlegible.2
    simp [ExpressionPart.IsReadable, Expression.written, hinner]

theorem ExpressionSpelling.readable {e : Expression} {tokens : List Token}
    (h : ExpressionSpelling e tokens) (hlegible : AllLegible hash tokens) :
    Readable hash e.written :=
  SpellsExpression.readable h hlegible

/-! ### Statements -/

theorem Optionally.readable {α : Type} {spells : α → List Token → Prop}
    {written : α → List Token}
    {value : Option α} {tokens : List Token} (h : Optionally spells value tokens)
    (hlegible : AllLegible hash tokens)
    (hspells : ∀ value front, spells value front → AllLegible hash front →
      Readable hash (written value)) : Readable hash ((value.map written).getD []) := by
  cases h with
  | missing => exact .nil
  | present h => exact hspells _ _ h hlegible

theorem ConditionSpelling.readable {condition : Expression} {tokens : List Token}
    (h : ConditionSpelling condition tokens) (hlegible : AllLegible hash tokens) :
    Readable hash condition.written := by
  cases h with
  | intro _ hcondition _ =>
    simp only [allLegible_append] at hlegible
    exact hcondition.readable hlegible.1.2

theorem readable_valueWritten {value : Option Expression} {tokens : List Token}
    (h : Optionally InitialSpelling value tokens) (hlegible : AllLegible hash tokens) :
    Readable hash (VariableDeclaration.valueWritten value) := by
  cases h with
  | missing => exact .nil
  | present h =>
    cases h with
    | intro _ hvalue =>
      simp only [allLegible_append] at hlegible
      simp [VariableDeclaration.valueWritten, hvalue.readable hlegible.2]

theorem DeclarationSpelling.readable {d : VariableDeclaration} {tokens : List Token}
    (h : DeclarationSpelling d tokens) (hlegible : AllLegible hash tokens) :
    Readable hash d.written := by
  cases h with
  | intro _ htype hname hvalue =>
    simp only [allLegible_append] at hlegible
    obtain ⟨⟨⟨-, hclause⟩, hfront⟩, hback⟩ := hlegible
    have htype := htype.readable hclause fun _ _ => TypeSpelling.readable
    have hvalue := readable_valueWritten hvalue hback
    simp [VariableDeclaration.written, htype, hname.legible hfront, hvalue]

/-- What a run of tokens can spell where statements are written has a readable spelling. -/
def StatementPart.IsReadable (hash : Bool) : StatementPart → Prop
  | statement s | bare s => Readable hash s.written
  | statements ss => Readable hash (Statement.writtenAll ss)

/-- A statement that legible tokens spell has a readable spelling. -/
theorem SpellsStatement.readable {part : StatementPart} {tokens : List Token}
    (h : SpellsStatement part tokens) (hlegible : AllLegible hash tokens) :
    part.IsReadable hash := by
  induction h with
  | statement _ _ ih =>
    rw [allLegible_append] at hlegible
    exact ih hlegible.1
  | declaration h => exact h.readable hlegible
  | expression h => exact h.readable hlegible
  | block _ _ _ ih =>
    simp only [allLegible_append] at hlegible
    have hinside : Readable hash _ := ih hlegible.1.2
    simp [StatementPart.IsReadable, Statement.written, hinside]
  | ifThen _ hcondition _ ih | «while» _ hcondition _ ih =>
    simp only [allLegible_append] at hlegible
    obtain ⟨⟨-, hfront⟩, hback⟩ := hlegible
    have hbody : Readable hash _ := ih hback
    simp [StatementPart.IsReadable, Statement.written, hcondition.readable hfront, hbody]
  | ifElse _ hcondition _ _ _ ihbody ihalternative =>
    simp only [allLegible_append] at hlegible
    obtain ⟨⟨⟨⟨-, hfront⟩, hmiddle⟩, -⟩, hback⟩ := hlegible
    have hbody : Readable hash _ := ihbody hmiddle
    have halternative : Readable hash _ := ihalternative hback
    simp [StatementPart.IsReadable, Statement.written, hcondition.readable hfront, hbody,
      halternative]
  | «return» _ hvalue =>
    simp only [allLegible_append] at hlegible
    have hvalue := hvalue.readable hlegible.2 fun _ _ => ExpressionSpelling.readable
    simp [StatementPart.IsReadable, Statement.written, hvalue]
  | «for» _ _ hinit _ hcondition _ _ _ _ ihstep ihbody =>
    simp only [allLegible_append] at hlegible
    obtain ⟨⟨⟨⟨⟨⟨⟨⟨-, -⟩, hfront⟩, -⟩, hmiddle⟩, -⟩, hinside⟩, -⟩, hback⟩ := hlegible
    have hstep : Readable hash _ := ihstep hinside
    have hbody : Readable hash _ := ihbody hback
    simp [StatementPart.IsReadable, Statement.written, hinit.readable hfront,
      hcondition.readable hmiddle, hstep, hbody]
  | «break» _ | «continue» _ => simp [StatementPart.IsReadable, Statement.written]
  | none => exact .nil
  | cons _ _ ih ihothers =>
    simp only [allLegible_append] at hlegible
    have hfirst : Readable hash _ := ih hlegible.1
    have hothers : Readable hash _ := ihothers hlegible.2
    simp [StatementPart.IsReadable, Statement.writtenAll, hfirst, hothers]

theorem BlockSpelling.readable {b : Block} {tokens : List Token} (h : BlockSpelling b tokens)
    (hlegible : AllLegible hash tokens) : Readable hash b.written := by
  cases h with
  | intro _ h _ =>
    simp only [allLegible_append] at hlegible
    have hinside : Readable hash _ := h.readable hlegible.1.2
    simp [Block.written, hinside]

/-! ### Members -/

theorem ParameterSpelling.readable {p : Parameter} {tokens : List Token}
    (h : ParameterSpelling p tokens) (hlegible : AllLegible hash tokens) :
    Readable hash p.written := by
  cases h with
  | intro hname htype =>
    simp only [allLegible_append] at hlegible
    simp [Parameter.written, hname.legible hlegible.1, htype.readable hlegible.2]

theorem Parameter.readable_writtenTail {ps : List Parameter}
    (h : ∀ p ∈ ps, Readable hash p.written) : Readable hash (writtenTail ps) := by
  induction ps with
  | nil => exact .nil
  | cons p ps ih =>
    rw [List.forall_mem_cons] at h
    simp [writtenTail, h.1, ih h.2]

theorem Parameter.readable_writtenAll {ps : List Parameter}
    (h : ∀ p ∈ ps, Readable hash p.written) : Readable hash (writtenAll ps) := by
  cases ps with
  | nil => exact .nil
  | cons p ps =>
    rw [List.forall_mem_cons] at h
    simp [writtenAll, h.1, readable_writtenTail h.2]

theorem Separated.readable {ps : List Parameter} {tokens : List Token}
    (h : Separated ParameterSpelling ps tokens) (hlegible : AllLegible hash tokens) :
    ∀ p ∈ ps, Readable hash p.written := by
  induction h with
  | last h => exact List.forall_mem_cons.2 ⟨h.readable hlegible, by simp⟩
  | more h _ _ ih =>
    simp only [allLegible_append] at hlegible
    exact List.forall_mem_cons.2 ⟨h.readable hlegible.1.1, ih hlegible.2⟩

theorem Listed.readable {ps : List Parameter} {tokens : List Token}
    (h : Listed ParameterSpelling ps tokens) (hlegible : AllLegible hash tokens) :
    ∀ p ∈ ps, Readable hash p.written := by
  induction h with
  | none => simp
  | last h => exact List.forall_mem_cons.2 ⟨h.readable hlegible, by simp⟩
  | more h _ _ ih =>
    simp only [allLegible_append] at hlegible
    exact List.forall_mem_cons.2 ⟨h.readable hlegible.1.1, ih hlegible.2⟩

theorem ParameterListSpelling.readable {parameters : List Parameter × Span} {tokens : List Token}
    (h : ParameterListSpelling parameters tokens) (hlegible : AllLegible hash tokens) :
    Readable hash (Parameter.writtenAll parameters.1) := by
  cases h with
  | none _ _ => exact .nil
  | some _ hparameters _ =>
    simp only [allLegible_append] at hlegible
    exact Parameter.readable_writtenAll (hparameters.readable hlegible.1.2)

/-- The head of a function: its keyword, its name, its parameters and its type. -/
theorem readable_signatureWritten {name : Ident} {parameters : List Parameter} {closing : Span}
    {returnType : Option TypeClause} {front list clause : List Token}
    (hname : NameSpelling name front) (hfront : AllLegible hash front)
    (hparameters : ParameterListSpelling (parameters, closing) list)
    (hlist : AllLegible hash list) (hreturn : Optionally TypeSpelling returnType clause)
    (hclause : AllLegible hash clause) :
    Readable hash (signatureWritten name parameters returnType) := by
  have hall : Readable hash (Parameter.writtenAll parameters) := hparameters.readable hlist
  have htype := hreturn.readable hclause fun _ _ => TypeSpelling.readable
  simp [signatureWritten, hname.legible hfront, hall, htype]

theorem FunctionSpelling.readable {f : FunctionDeclaration} {tokens : List Token}
    (h : FunctionSpelling f tokens) (hlegible : AllLegible hash tokens) :
    Readable hash (Member.function f).written := by
  cases h with
  | @intro visibility _ _ _ _ _ _ _ _ _ _ _ _ _ _ hname hparameters hreturn hbody =>
    simp only [allLegible_append] at hlegible
    obtain ⟨⟨⟨⟨-, hfront⟩, hlist⟩, hclause⟩, hback⟩ := hlegible
    have hhead := readable_signatureWritten hname hfront hparameters hlist hreturn hclause
    cases visibility <;> simp [Member.written, hhead, hbody.readable hback]

/-- A member that legible tokens spell has a readable spelling. -/
theorem MemberSpelling.readable {member : Member} {tokens : List Token}
    (h : MemberSpelling member tokens) (hlegible : AllLegible hash tokens) :
    Readable hash member.written := by
  cases h with
  | statement h =>
    have hstatement : Readable hash _ := SpellsStatement.readable h hlegible
    simp [Member.written, hstatement]
  | function h => exact h.readable hlegible
  | external _ _ hname hparameters hreturn _ =>
    simp only [allLegible_append] at hlegible
    obtain ⟨⟨⟨⟨-, hfront⟩, hlist⟩, hclause⟩, -⟩ := hlegible
    have hhead := readable_signatureWritten hname hfront hparameters hlist hreturn hclause
    simp [Member.written, hhead]
  | struct _ hname _ hfields _ _ =>
    simp only [allLegible_append] at hlegible
    obtain ⟨⟨⟨⟨⟨-, hfront⟩, -⟩, hinside⟩, -⟩, -⟩ := hlegible
    have hall := Parameter.readable_writtenAll (hfields.readable hinside)
    simp [Member.written, hname.legible hfront, hall]
  | packageReference _ hname _ | packageUse _ hname _ =>
    simp only [allLegible_append] at hlegible
    simp [Member.written, hname.legible hlegible.1.2]

/-- What is written for a program that legible tokens spell is a readable row. -/
theorem ProgramSpelling.readable {members : List Member} {tokens : List Token}
    (h : ProgramSpelling members tokens) (hlegible : AllLegible hash tokens) :
    Readable hash (members.flatMap Member.written) := by
  induction h with
  | nil => exact .nil
  | cons h _ ih =>
    rw [allLegible_append] at hlegible
    rw [List.flatMap_cons, readable_append (h.readable hlegible.1)]
    exact ih hlegible.2

end

/-! ### Programs -/

theorem parseProgram_eq_ok {tokens : List Token} {members : List Member} :
    parseProgram tokens = .ok members ↔ parseMembers (beforeEnding tokens) = .ok members := by
  unfold parseProgram
  split
  · next hmembers => rw [hmembers, Except.ok.injEq, Except.ok.injEq]
  · next hmismatch => simp [hmismatch]

/-- A program that is written out from its tree alone has tokens again, and they are parsed as the
same members, but for their places. -/
theorem writtenSource_reread {file : Nat} {hash : Bool} {source : String} {tokens : List Token}
    {members : List Member} (htokens : tokenize file hash source = .ok tokens)
    (hmembers : parseProgram tokens = .ok members) :
    ∃ again reread, tokenize file hash (writtenSource members) = .ok again ∧
      parseProgram again = .ok reread ∧
      reread.map Member.bare = members.map Member.bare := by
  have hspelling := parseProgram_spelling hmembers
  have hreadable := hspelling.readable (legible_tokenize htokens)
  obtain ⟨again, mark, hagain, hprinted⟩ :=
    tokens_spelledOut hreadable file Position.start
  have hsource : tokenize file hash (writtenSource members) =
      .ok (again ++ [Token.ending mark]) := by
    rw [tokenize, writtenSource, String.toList_ofList]
    exact hagain
  have hback : parseMembers (members.flatMap Member.written) = .ok (members.map Member.bare) :=
    parseMembers_written (parseProgram_eq_ok.1 hmembers)
  have hagree := parseMembers_agrees hprinted.alike
  have hending := beforeEnding_append (isEnding_of_tokenize hsource) mark
  rw [hback] at hagree
  match hreread : parseMembers again, hagree with
  | .ok reread, hagree =>
    refine ⟨_, reread, hsource, ?_, ?_⟩
    · rw [parseProgram_eq_ok, hending, hreread]
    · have hbare : reread.map Member.bare = (members.map Member.bare).map Member.bare := hagree.symm
      rw [hbare, List.map_map]
      exact List.map_congr_left fun member _ => member.bare_bare

/-- A name `main` in front of a name on the next line, a step with a comment behind it, and the
statement of an `if` without a semicolon and with a line feed in it. -/
theorem writtenSource_reread_main :
    let source := "main\nx++ # y\nif(a)'\n'"
    let tokens : List Token :=
      [⟨.identifier, "main", none, ⟨1, 0, 4, 1, 1, 1, 5⟩, true⟩,
       ⟨.identifier, "x", none, ⟨1, 5, 6, 2, 1, 2, 2⟩, false⟩,
       ⟨.sign .add, "+", none, ⟨1, 6, 7, 2, 2, 2, 3⟩, false⟩,
       ⟨.sign .add, "+", none, ⟨1, 7, 8, 2, 3, 2, 4⟩, true⟩,
       ⟨.keyword .ifWord, "if", none, ⟨1, 13, 15, 3, 1, 3, 3⟩, false⟩,
       ⟨.sign .lparen, "(", none, ⟨1, 15, 16, 3, 3, 3, 4⟩, false⟩,
       ⟨.identifier, "a", none, ⟨1, 16, 17, 3, 4, 3, 5⟩, false⟩,
       ⟨.sign .rparen, ")", none, ⟨1, 17, 18, 3, 5, 3, 6⟩, false⟩,
       ⟨.text, "'\n'", some (.text "\n"), ⟨1, 18, 21, 3, 6, 4, 2⟩, true⟩,
       Token.ending ⟨1, 21, 21, 4, 2, 4, 2⟩]
    let members : List Member :=
      [.statement (.expression (.name ⟨"main", ⟨1, 0, 4, 1, 1, 1, 5⟩⟩)),
       .statement (.expression (.step ⟨"x", ⟨1, 5, 6, 2, 1, 2, 2⟩⟩ ⟨.add, ⟨1, 6, 8, 2, 2, 2, 4⟩⟩)),
       .statement (.ifThen ⟨1, 13, 15, 3, 1, 3, 3⟩ (.name ⟨"a", ⟨1, 16, 17, 3, 4, 3, 5⟩⟩)
         (.expression (.literal
           ⟨.text, "'\n'", some (.text "\n"), ⟨1, 18, 21, 3, 6, 4, 2⟩, true⟩)))]
    tokenize 1 true source = .ok tokens ∧ parseProgram tokens = .ok members ∧
      writtenSource members = "main ; x ++ ; if ( a ) '\n' ; ;" ∧
      ∃ again reread, tokenize 1 true (writtenSource members) = .ok again ∧
        parseProgram again = .ok reread ∧
        reread.map Member.bare = members.map Member.bare := by
  intro source tokens members
  have htokens : tokenize 1 true source = .ok tokens := by
    decide +kernel
  have hmembers : parseProgram tokens = .ok members := by
    cbv
  exact ⟨htokens, hmembers, by decide +kernel, writtenSource_reread htokens hmembers⟩

end TodLang
