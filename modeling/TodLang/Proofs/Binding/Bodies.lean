import TodLang.Proofs.Binding.Stages
import TodLang.Proofs.Grammar.Everywhere
/-!
The expressions of a program's bodies, each with the regions around it. The list is read off the
tree: the expressions in a program are those in the listed ones (`mentioned_program`). What binding
a listed expression finds, in a scope that sees the regions around it, is found in the program in
one piece (`bindProgram_written`).
-/

namespace TodLang

/-- An expression that is no part of another one, with the regions around it. -/
structure Written where
  regions : List (List Declared)
  expression : Expression

/-- The value of a variable or of a `return`, if it has one. -/
def writtenValue (regions : List (List Declared)) (value : Option Expression) : List Written :=
  (value.map (Written.mk regions)).toList

namespace Place

mutual

/-- The expressions in a statement. -/
def written (p : Place) : Statement → List Written
  | .block _ statements _ => p.enter.writtenAll statements
  | .declaration d => writtenValue p.regions d.value
  | .ifThen _ condition body => ⟨p.regions, condition⟩ :: p.enter.written body
  | .ifElse _ condition body _ alternative =>
    ⟨p.regions, condition⟩ ::
      (p.enter.written body ++ (p.resume (p.enter.after body)).enter.written alternative)
  | .return _ value => writtenValue p.regions value
  | .for _ init condition step body =>
    let head := p.enter.declare init.name
    writtenValue p.enter.regions init.value ++
      ⟨head.regions, condition⟩ :: (head.written step ++ (head.after step).enter.written body)
  | .while _ condition body => ⟨p.regions, condition⟩ :: p.enter.written body
  | .break _ => []
  | .continue _ => []
  | .expression e => [⟨p.regions, e⟩]

/-- The expressions in statements one after another. -/
def writtenAll (p : Place) : List Statement → List Written
  | [] => []
  | s :: others => p.written s ++ (p.after s).writtenAll others

end

end Place

/-- The expressions in the bodies of a program, in the values of its global variables and in its
other statements, given the symbols of its functions and the last number that a variable took. -/
def programWritten (last : Nat) : List Member → List FunctionSymbol → List Written
  | [], _ => []
  | .function f :: others, symbol :: symbols =>
    let place := Place.ofFunction symbol last
    place.writtenAll f.body.statements ++
      programWritten (place.afterAll f.body.statements).last others symbols
  | .statement (.declaration d) :: others, symbols =>
    writtenValue [] d.value ++ programWritten last others symbols
  | .statement s :: others, symbols =>
    (Place.ofStatement last).written s ++
      programWritten ((Place.ofStatement last).after s).last others symbols
  | _ :: others, symbols => programWritten last others symbols

/-! ### Nothing is left out, and nothing is added -/

section

open Node

variable {e : Expression}

/-- Whether an expression is in one of given ones. -/
def Mentioned (e : Expression) (entries : List Written) : Prop :=
  ∃ entry ∈ entries, Within (.expression e) (.expression entry.expression)

@[simp] theorem not_mentioned_nil : ¬ Mentioned e [] := by
  simp [Mentioned]

@[simp] theorem mentioned_cons {entry : Written} {others : List Written} :
    Mentioned e (entry :: others) ↔
      Within (.expression e) (.expression entry.expression) ∨ Mentioned e others := by
  simp [Mentioned]

@[simp] theorem mentioned_append {front back : List Written} :
    Mentioned e (front ++ back) ↔ Mentioned e front ∨ Mentioned e back := by
  simp [Mentioned, or_and_right, exists_or]

theorem mentioned_value (regions : List (List Declared)) (value : Option Expression) :
    Mentioned e (writtenValue regions value) ↔
      ∃ whole ∈ value, Within (.expression e) (.expression whole) := by
  cases value <;> simp [writtenValue]

/-- An expression in the declaration of a variable is in the value of it. -/
theorem mentioned_declaration (regions : List (List Declared)) (d : VariableDeclaration) :
    Mentioned e (writtenValue regions d.value) ↔ Within (.expression e) (.declaration d) := by
  have hwithin : Within (.expression e) (.declaration d) ↔
      ∃ child ∈ (declaration d).children, Within (.expression e) child :=
    within_iff_children nofun
  rw [mentioned_value, hwithin]
  simp [children, or_and_right, exists_or, not_within_type]

mutual

theorem Place.mentioned (p : Place) (s : Statement) :
    Mentioned e (p.written s) ↔ Within (.expression e) (.statement s) := by
  rw [within_statement]
  cases s with
  | block opening statements closing =>
    rw [written, p.enter.mentionedAll]
    simp [belowStatement]
  | declaration d => simp [written, belowStatement, mentioned_declaration]
  | ifThen keyword condition body | «while» keyword condition body =>
    simp [written, belowStatement, p.enter.mentioned body]
  | ifElse keyword condition body elseKeyword alternative =>
    simp [written, belowStatement, p.enter.mentioned body, within_alternative,
      (p.resume (p.enter.after body)).enter.mentioned alternative]
  | «return» keyword value => simp [written, belowStatement, mentioned_value]
  | «for» keyword init condition step body =>
    let head := p.enter.declare init.name
    simp [written, belowStatement, mentioned_declaration, head.mentioned step,
      (head.after step).enter.mentioned body, head]
  | «break» keyword => simp [written, belowStatement]
  | «continue» keyword => simp [written, belowStatement]
  | expression whole => simp [written, belowStatement]

theorem Place.mentionedAll (p : Place) (statements : List Statement) :
    Mentioned e (p.writtenAll statements) ↔
      ∃ s ∈ statements, Within (.expression e) (.statement s) := by
  cases statements with
  | nil => simp [writtenAll]
  | cons s others => simp [writtenAll, p.mentioned s, (p.after s).mentionedAll others]

end

/-- An expression in a function is in the body of it. -/
theorem mentioned_function (f : FunctionDeclaration) (p : Place) :
    Mentioned e (p.writtenAll f.body.statements) ↔
      Within (.expression e) (.member (.function f)) := by
  rw [p.mentionedAll, within_member]
  simp [belowMember, or_and_right, exists_or, not_within_type, not_within_parameter,
    within_statement, Block.toStatement, belowStatement]

/-- Only functions and statements have expressions. -/
theorem not_within_member {m : Member} (hfunction : ∀ f, m ≠ .function f)
    (hstatement : ∀ s, m ≠ .statement s) : ¬ Within (.expression e) (.member m) := by
  have hno : EveryExpression (fun _ => False) (.member m) := by
    refine everyExpression_of_children nofun ?_
    cases m with
    | function f => exact absurd rfl (hfunction f)
    | statement s => exact absurd rfl (hstatement s)
    | external e =>
      exact List.forall_mem_append.2
        ⟨everyExpression_parameters e.parameters, everyExpression_returnType e.returnType⟩
    | struct d => exact everyExpression_parameters d.fields
    | packageReference _ _ | packageUse _ _ => exact List.forall_mem_nil _
  exact hno e

/-- The expressions in the members of a program are those in the listed ones, if every function has
its symbol. -/
theorem mentioned_program {members : List Member} {symbols : List FunctionSymbol}
    (hsigns : List.Forall₂ Signs (functionDeclarations members) symbols) (last : Nat) :
    Mentioned e (programWritten last members symbols) ↔
      ∃ m ∈ members, Within (.expression e) (.member m) := by
  induction members generalizing last symbols with
  | nil => simp [programWritten]
  | cons member others ih =>
    simp only [List.mem_cons, exists_eq_or_imp]
    cases member with
    | function f =>
      cases hsigns with
      | @cons _ symbol _ _ _ hrest =>
        rw [programWritten, mentioned_append, mentioned_function, ih hrest]
    | statement s =>
      have hstatement : Within (.expression e) (.member (.statement s)) ↔
          Within (.expression e) (.statement s) := by
        simp [within_member, belowMember]
      rw [hstatement]
      cases s with
      | declaration d =>
        rw [programWritten, mentioned_append, mentioned_declaration, ih hsigns, within_statement]
        simp [belowStatement]
      | _ =>
        rw [programWritten, mentioned_append, Place.mentioned, ih hsigns]
        intro d hd
        cases hd
    | _ =>
      refine (ih hsigns last).trans (or_iff_right (not_within_member ?_ ?_)).symm
      · intro f hf
        cases hf
      · intro s hs
        cases hs

end

/-! ### What is found of the listed expressions -/

namespace Walk

/-- Whether a walk leads to another one that keeps what was found. -/
structure Extends (w w' : Walk) : Prop where
  functions : w'.typeFunctions = w.typeFunctions
  findings : w.findings <+: w'.findings

variable {w w' w'' : Walk}

theorem Extends.trans (h : w.Extends w') (h' : w'.Extends w'') : w.Extends w'' :=
  ⟨h'.functions.trans h.functions, h.findings.trans h'.findings⟩

theorem Adds.extends {P : Span → Prop} {sites : List Site} (h : w.Adds P w' sites) :
    w.Extends w' := by
  obtain ⟨found, hfound, -⟩ := h.findings
  exact ⟨h.functions, found, hfound.symm⟩

theorem Extends.forget (h : w.Extends w') : w.Extends { w' with closed := [] } :=
  ⟨h.functions, h.findings⟩

theorem extends_leave (w : Walk) : w.Extends w.leave :=
  (w.adds_leave (P := fun _ => True)).extends

theorem extends_expression (w : Walk) (e : Expression) : w.Extends (w.expression e) :=
  ⟨rfl, List.prefix_append ..⟩

theorem extends_statement (w : Walk) (s : Statement) : w.Extends (w.statement s) :=
  (w.adds_statement (P := fun _ => True) s fun _ _ => trivial).extends

/-- A statement in a region of its own. -/
theorem extends_region (w : Walk) (s : Statement) : w.Extends (w.enter.statement s).leave :=
  (w.enter.adds_statement (P := fun _ => True) s fun _ _ => trivial).inside.extends

theorem extends_statements (w : Walk) (statements : List Statement) :
    w.Extends (w.statements statements) :=
  (w.adds_statements (P := fun _ => True) statements fun _ _ => trivial).extends

theorem extends_members (w : Walk) (members : List Member) (symbols : List FunctionSymbol) :
    w.Extends (w.bindMembers members symbols).2 :=
  (w.adds_members (P := fun _ => True) symbols fun _ _ _ _ => trivial).extends

end Walk

/-- Whether a walk has bound an expression in a scope that sees the regions around it. -/
def Written.Bound (program root : Region) (w : Walk) (entry : Written) : Prop :=
  ∃ s : Scope, s.Sees program root entry.regions ∧
    Scope.bindExpression w.typeFunctions s entry.expression <:+: w.findings

namespace Walk

variable {program root : Region} {start : List Resolution} {uses : List Use} {w w' : Walk}

/-- Whether a walk has bound all of given expressions. -/
def HasBound (program root : Region) (w : Walk) (entries : List Written) : Prop :=
  ∀ entry ∈ entries, entry.Bound program root w

theorem HasBound.extend {entries : List Written} (h : w.HasBound program root entries)
    (hextends : w.Extends w') : w'.HasBound program root entries := by
  intro entry hentry
  obtain ⟨s, hsees, hfound⟩ := h entry hentry
  refine ⟨s, hsees, ?_⟩
  rw [hextends.functions]
  exact hfound.trans hextends.findings.isInfix

theorem HasBound.append {front back : List Written} (h : w.HasBound program root front)
    (hback : w.HasBound program root back) : w.HasBound program root (front ++ back) :=
  List.forall_mem_append.2 ⟨h, hback⟩

theorem HasBound.cons {entry : Written} {others : List Written}
    (h : w.HasBound program root [entry]) (hothers : w.HasBound program root others) :
    w.HasBound program root (entry :: others) :=
  h.append hothers

namespace Follows

variable {regions : List (List Declared)} {last : Nat}

theorem hasBound_expression (h : w.Follows program root start uses regions last)
    (e : Expression) : (w.expression e).HasBound program root [⟨regions, e⟩] :=
  List.forall_mem_singleton.2 ⟨w.scope, h.sees, (List.suffix_append w.findings _).isInfix⟩

theorem hasBound_value (h : w.Follows program root start uses regions last)
    (value : Option Expression) :
    (w.optionalExpression value).HasBound program root (writtenValue regions value) := by
  cases value with
  | none => exact List.forall_mem_nil _
  | some e => exact h.hasBound_expression e

theorem hasBound_localVariable (h : w.Follows program root start uses regions last)
    (d : VariableDeclaration) :
    (w.localVariable d).HasBound program root (writtenValue regions d.value) :=
  (h.hasBound_value d.value).extend
    ((w.optionalExpression d.value).adds_declareVariable
      (P := fun _ => True) .localVariable d).extends

mutual

/-- Binding a statement binds the expressions in it, each with the regions around it. -/
theorem hasBound_statement {uses : List Use} {w : Walk} {p : Place}
    (h : w.Follows program root start uses p.regions p.last) (s : Statement) :
    (w.statement s).HasBound program root (p.written s) := by
  cases s with
  | block opening statements closing =>
    have hinside := h.enter.hasBound_statements (p := p.enter) statements
    exact hinside.extend (extends_leave _)
  | declaration d => exact h.hasBound_localVariable d
  | ifThen keyword condition body | «while» keyword condition body =>
    have hcondition := h.hasBound_expression condition
    have hbody := (h.expression condition).enter.hasBound_statement (p := p.enter) body
    exact (hcondition.extend (extends_region (w.expression condition) body)).cons
      (hbody.extend (extends_leave _))
  | ifElse keyword condition body elseKeyword alternative =>
    have hcondition := h.hasBound_expression condition
    have hbody := (h.expression condition).enter.hasBound_statement (p := p.enter) body
    have hfollows := ((h.expression condition).enter.statement (p := p.enter) body).resume
      (Place.after_outer p.enter body)
    have halternative := hfollows.enter.hasBound_statement
      (p := (p.resume (p.enter.after body)).enter) alternative
    have hfirst := extends_region (w.expression condition) body
    have hsecond := extends_region ((w.expression condition).enter.statement body).leave alternative
    have hrest := (hbody.extend ((extends_leave _).trans hsecond)).append
      (halternative.extend (extends_leave _))
    exact (hcondition.extend (hfirst.trans hsecond)).cons hrest
  | «return» keyword value => exact h.hasBound_value value
  | «for» keyword init condition step body =>
    let head := p.enter.declare init.name
    let ready := w.enter.localVariable init
    have hinit := h.enter.hasBound_localVariable init
    have hready := h.enter.localVariable (p := p.enter) init
    have hcondition := hready.hasBound_expression condition
    have hstep := (hready.expression condition).hasBound_statement (p := head) step
    have hfollows := (hready.expression condition).statement (p := head) step
    have hbody := hfollows.enter.hasBound_statement (p := (head.after step).enter) body
    have hafter := (extends_region ((ready.expression condition).statement step) body).trans
      (extends_leave _)
    have hbehind := (extends_statement (ready.expression condition) step).trans hafter
    have hfirst := (extends_expression ready condition).trans hbehind
    have hlast := (extends_leave
      (((ready.expression condition).statement step).enter.statement body)).trans (extends_leave _)
    exact (hinit.extend hfirst).append ((hcondition.extend hbehind).cons
      ((hstep.extend hafter).append (hbody.extend hlast)))
  | «break» keyword => exact List.forall_mem_nil _
  | «continue» keyword => exact List.forall_mem_nil _
  | expression e => exact h.hasBound_expression e

theorem hasBound_statements {uses : List Use} {w : Walk} {p : Place}
    (h : w.Follows program root start uses p.regions p.last) (statements : List Statement) :
    (w.statements statements).HasBound program root (p.writtenAll statements) := by
  cases statements with
  | nil => exact List.forall_mem_nil _
  | cons s others =>
    have hfirst := h.hasBound_statement s
    have hothers := (h.statement s).hasBound_statements others
    exact (hfirst.extend (extends_statements _ others)).append hothers

end

theorem hasBound_functionBody {last : Nat} (h : w.Follows program root start uses [] last)
    (symbol : FunctionSymbol) (body : Block) :
    (w.functionBody symbol body).2.HasBound program root
      ((Place.ofFunction symbol last).writtenAll body.statements) := by
  let p := Place.ofFunction symbol last
  have hclosed : Follows program root start uses [] last { w with closed := [] } :=
    ⟨h.sees, h.last, h.answers⟩
  have hparameters := hclosed.enter.declareParameters body.opening symbol.parameters
  have hbody := hparameters.hasBound_statements (p := p) body.statements
  exact hbody.extend (extends_leave _).forget

theorem hasBound_globalStatement {last : Nat} (h : w.Follows program root start uses [] last)
    (s : Statement) :
    (w.globalStatement s).HasBound program root ((Place.ofStatement last).written s) := by
  have hbody := h.enter.hasBound_statement (p := Place.ofStatement last) s
  exact hbody.extend (extends_leave _).forget

/-- Binding the members of a program binds the expressions in it. -/
theorem hasBound_members {uses : List Use} {w : Walk} {last : Nat}
    (h : w.Follows program root start uses [] last) (members : List Member)
    (symbols : List FunctionSymbol) :
    (w.bindMembers members symbols).2.HasBound program root
      (programWritten last members symbols) := by
  induction members generalizing w uses last symbols with
  | nil => exact List.forall_mem_nil _
  | cons member others ih =>
    cases member with
    | function f =>
      cases symbols with
      | nil => exact ih h []
      | cons symbol symbols =>
        have hbody := h.hasBound_functionBody symbol f.body
        exact (hbody.extend (extends_members _ others symbols)).append
          (ih (h.functionBody symbol f.body) symbols)
    | statement s =>
      have hstatement := h.hasBound_globalStatement s
      have hothers := ih (h.globalStatement s) symbols
      cases s with
      | declaration d =>
        have hvalue := h.hasBound_value d.value
        exact (hvalue.extend (extends_members _ others symbols)).append
          (ih (h.optionalExpression d.value) symbols)
      | _ => exact (hstatement.extend (extends_members _ others symbols)).append hothers
    | _ => exact ih h symbols

end Follows

end Walk

section

variable (known : List PackageSymbol) (last : Nat) (members : List Member)

/-- The expressions of a whole program. -/
def writtenIn : List Written :=
  programWritten (Walk.declaring known last members).last members
    ((bindProgram known last members).functions.map BoundFunction.symbol)

theorem signs_bindProgram :
    List.Forall₂ Signs (functionDeclarations members)
      ((bindProgram known last members).functions.map BoundFunction.symbol) := by
  have hsigns : List.Forall₂ Signs (functionDeclarations members)
      ((Walk.beginning last).declareMembers known members).1 := Walk.signatures_sign _ members
  have hsymbols : (bindProgram known last members).functions.map BoundFunction.symbol =
      ((Walk.beginning last).declareMembers known members).1 :=
    Walk.bindMembers_symbols hsigns (Walk.declaring known last members)
  rwa [hsymbols]

/-- The expressions in a program are those in the listed ones. -/
theorem mentioned_writtenIn {e : Expression} :
    Mentioned e (writtenIn known last members) ↔
      ∃ m ∈ members, Node.Within (.expression e) (.member m) :=
  mentioned_program (signs_bindProgram known last members) _

/-- What is found of an expression in a program is found in a scope that sees the regions around the
expression, in one piece. -/
theorem bindProgram_written {entry : Written} (h : entry ∈ writtenIn known last members) :
    ∃ s : Scope,
      s.Sees (programScope known last members).inner (prelude (last + typeFunctionIds))
        entry.regions ∧
      Scope.bindExpression (typeFunctions last) s entry.expression <:+:
        (bindProgram known last members).findings := by
  let declared := Walk.declaring known last members
  let signed := ((Walk.beginning last).declareMembers known members).1
  have hsymbols : (bindProgram known last members).functions.map BoundFunction.symbol = signed :=
    Walk.bindMembers_symbols (Walk.signatures_sign _ members) declared
  rw [writtenIn, hsymbols] at h
  have hbound := (Walk.declaring_follows known last members).hasBound_members members signed
  obtain ⟨s, hsees, hfound⟩ := hbound entry h
  have hdeclaring : (Walk.beginning last).Extends declared :=
    (Walk.adds_declaring (P := fun _ => True) known last members).extends
  have hfunctions : (declared.bindMembers members signed).2.typeFunctions = typeFunctions last :=
    (declared.extends_members members signed).functions.trans hdeclaring.functions
  rw [hfunctions] at hfound
  refine ⟨s, ?_, hfound⟩
  rw [programScope_eq]
  exact hsees

end

end TodLang
