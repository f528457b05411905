import TodLang.Tree.Bare
/-!
Trees at other places. A relocation says where each region goes and what becomes of the white space
behind tokens; a tree is relocated with all the places that it keeps. Trees at no place are one case
of it, and trees in a file of another number are another.
-/

namespace TodLang

/-- Another place for every region, and other white space behind tokens. What covers two regions
goes where it covers the places of both. -/
structure Relocation where
  span : Span → Span
  spaceAfter : Bool → Bool
  span_cover : ∀ a b : Span, span (a.cover b) = (span a).cover (span b)

namespace Relocation

/-- Everything stays where it is. -/
def stay : Relocation :=
  ⟨id, id, fun _ _ => rfl⟩

/-- Everything goes to no place. -/
def nowhere : Relocation :=
  ⟨fun _ => Span.none, fun _ => true, fun _ _ => rfl⟩

/-- Files get other numbers. -/
def files (number : Nat → Nat) : Relocation where
  span s := { s with file := number s.file }
  spaceAfter := id
  span_cover a b := by
    unfold Span.cover
    by_cases hstart : b.start < a.start <;> by_cases hstop : b.stop > a.stop <;>
      simp [hstart, hstop]

@[simp] theorem stay_span (s : Span) : stay.span s = s := rfl

@[simp] theorem nowhere_span (s : Span) : nowhere.span s = Span.none := rfl

@[simp] theorem files_span_file (number : Nat → Nat) (s : Span) :
    ((files number).span s).file = number s.file := rfl

end Relocation

section

variable (g : Relocation)

/-- The token where a relocation puts it. -/
def Token.relocate (t : Token) : Token :=
  { t with span := g.span t.span, spaceAfter := g.spaceAfter t.spaceAfter }

/-- The name where a relocation puts it. -/
def Ident.relocate (name : Ident) : Ident :=
  { name with span := g.span name.span }

/-- The operator where a relocation puts it. -/
def Operator.relocate (operator : Operator) : Operator :=
  { operator with span := g.span operator.span }

namespace TypeClause

mutual

/-- The written type where a relocation puts it. -/
def relocate (c : TypeClause) : TypeClause :=
  match c with
  | ⟨package, name, arguments, closing⟩ =>
    ⟨package.map (Ident.relocate g), name.relocate g, relocateAll arguments,
      closing.map g.span⟩

/-- The written types where a relocation puts them. -/
def relocateAll : List TypeClause → List TypeClause
  | [] => []
  | c :: others => c.relocate :: relocateAll others

end

end TypeClause

/-- The parameter where a relocation puts it. -/
def Parameter.relocate (p : Parameter) : Parameter :=
  ⟨p.name.relocate g, p.type.relocate g⟩

namespace Expression

mutual

/-- The expression where a relocation puts it. -/
def relocate : Expression → Expression
  | literal token => .literal (token.relocate g)
  | parenthesized opening inner closing =>
    .parenthesized (g.span opening) inner.relocate (g.span closing)
  | name n => .name (n.relocate g)
  | assignment target value => .assignment (target.relocate g) value.relocate
  | call callee arguments closing =>
    .call (callee.relocate g) (relocateAll arguments) (g.span closing)
  | cast type arguments closing => .cast (type.relocate g) (relocateAll arguments) (g.span closing)
  | packageCall package callee arguments closing =>
    .packageCall (package.relocate g) (callee.relocate g) (relocateAll arguments) (g.span closing)
  | typeCall receiver callee arguments closing =>
    .typeCall (receiver.relocate g) (callee.relocate g) (relocateAll arguments) (g.span closing)
  | unary operator operand => .unary (operator.relocate g) operand.relocate
  | binary left operator right => .binary left.relocate (operator.relocate g) right.relocate
  | edit target operator value =>
    .edit (target.relocate g) (operator.relocate g) value.relocate
  | step target operator => .step (target.relocate g) (operator.relocate g)
  | fieldAccess object field => .fieldAccess (object.relocate g) (field.relocate g)
  | fieldAssignment object field value =>
    .fieldAssignment (object.relocate g) (field.relocate g) value.relocate
  | arrayAccess array index closing =>
    .arrayAccess array.relocate index.relocate (g.span closing)
  | arrayAssignment array index value =>
    .arrayAssignment array.relocate index.relocate value.relocate
  | reference ampersand n => .reference (g.span ampersand) (n.relocate g)
  | dereference star operand => .dereference (g.span star) operand.relocate
  | make keyword type arguments closing =>
    .make (g.span keyword) (type.relocate g) (relocateAll arguments) (g.span closing)
  | makeSized keyword type length closing =>
    .makeSized (g.span keyword) (type.relocate g) length.relocate (g.span closing)
  | makeArray keyword type elements closing =>
    .makeArray (g.span keyword) (type.relocate g) (relocateAll elements) (g.span closing)
  | makeStruct keyword type fields closing =>
    .makeStruct (g.span keyword) (type.relocate g) (relocateAll fields) (g.span closing)
  | this keyword => .this (g.span keyword)
  | main keyword inner => .main (g.span keyword) inner.relocate

/-- The expressions where a relocation puts them. -/
def relocateAll : List Expression → List Expression
  | [] => []
  | e :: others => e.relocate :: relocateAll others

end

end Expression

/-- The declaration where a relocation puts it. -/
def VariableDeclaration.relocate (d : VariableDeclaration) : VariableDeclaration :=
  { keyword := g.span d.keyword
    readOnly := d.readOnly
    type := d.type.map (TypeClause.relocate g)
    name := d.name.relocate g
    value := d.value.map (Expression.relocate g) }

namespace Statement

mutual

/-- The statement where a relocation puts it. -/
def relocate : Statement → Statement
  | block opening statements closing =>
    .block (g.span opening) (relocateAll statements) (g.span closing)
  | declaration d => .declaration (d.relocate g)
  | ifThen keyword condition body =>
    .ifThen (g.span keyword) (condition.relocate g) body.relocate
  | ifElse keyword condition body elseKeyword alternative =>
    .ifElse (g.span keyword) (condition.relocate g) body.relocate (g.span elseKeyword)
      alternative.relocate
  | .return keyword value => .return (g.span keyword) (value.map (Expression.relocate g))
  | .for keyword init condition step body =>
    .for (g.span keyword) (init.relocate g) (condition.relocate g) step.relocate body.relocate
  | .while keyword condition body =>
    .while (g.span keyword) (condition.relocate g) body.relocate
  | .break keyword => .break (g.span keyword)
  | .continue keyword => .continue (g.span keyword)
  | expression e => .expression (e.relocate g)

/-- The statements where a relocation puts them. -/
def relocateAll : List Statement → List Statement
  | [] => []
  | s :: others => s.relocate :: relocateAll others

end

end Statement

/-- The block where a relocation puts it. -/
def Block.relocate (b : Block) : Block :=
  ⟨g.span b.opening, Statement.relocateAll g b.statements, g.span b.closing⟩

def FunctionDeclaration.relocate (f : FunctionDeclaration) : FunctionDeclaration :=
  { visibility := f.visibility.map g.span
    keyword := g.span f.keyword
    name := f.name.relocate g
    parameters := f.parameters.map (Parameter.relocate g)
    returnType := f.returnType.map (TypeClause.relocate g)
    body := f.body.relocate g }

def ExternalDeclaration.relocate (e : ExternalDeclaration) : ExternalDeclaration :=
  { keyword := g.span e.keyword
    name := e.name.relocate g
    parameters := e.parameters.map (Parameter.relocate g)
    returnType := e.returnType.map (TypeClause.relocate g)
    closing := g.span e.closing }

def StructDeclaration.relocate (d : StructDeclaration) : StructDeclaration :=
  { keyword := g.span d.keyword
    name := d.name.relocate g
    fields := d.fields.map (Parameter.relocate g)
    closing := g.span d.closing }

/-- The member where a relocation puts it. -/
def Member.relocate : Member → Member
  | statement s => .statement (s.relocate g)
  | function f => .function (f.relocate g)
  | external e => .external (e.relocate g)
  | struct d => .struct (d.relocate g)
  | packageReference keyword name => .packageReference (g.span keyword) (name.relocate g)
  | packageUse keyword name => .packageUse (g.span keyword) (name.relocate g)

/-! ### What stays the same, and what moves along -/

@[simp] theorem Token.relocate_kind (t : Token) : (t.relocate g).kind = t.kind := rfl

@[simp] theorem Token.relocate_isEnding (t : Token) : (t.relocate g).isEnding = t.isEnding := rfl

@[simp] theorem Ident.relocate_name (name : Ident) : (name.relocate g).name = name.name := rfl

@[simp] theorem Ident.relocate_span (name : Ident) :
    (name.relocate g).span = g.span name.span := rfl

@[simp] theorem FunctionDeclaration.relocate_name (f : FunctionDeclaration) :
    (f.relocate g).name = f.name.relocate g := rfl

@[simp] theorem FunctionDeclaration.relocate_parameters (f : FunctionDeclaration) :
    (f.relocate g).parameters = f.parameters.map (Parameter.relocate g) := rfl

@[simp] theorem FunctionDeclaration.relocate_returnType (f : FunctionDeclaration) :
    (f.relocate g).returnType = f.returnType.map (TypeClause.relocate g) := rfl

@[simp] theorem ExternalDeclaration.relocate_name (e : ExternalDeclaration) :
    (e.relocate g).name = e.name.relocate g := rfl

@[simp] theorem ExternalDeclaration.relocate_parameters (e : ExternalDeclaration) :
    (e.relocate g).parameters = e.parameters.map (Parameter.relocate g) := rfl

@[simp] theorem ExternalDeclaration.relocate_returnType (e : ExternalDeclaration) :
    (e.relocate g).returnType = e.returnType.map (TypeClause.relocate g) := rfl

theorem Expression.relocateAll_eq_map (es : List Expression) :
    Expression.relocateAll g es = es.map (Expression.relocate g) := by
  induction es with
  | nil => rfl
  | cons e others ih => rw [Expression.relocateAll, ih, List.map_cons]

@[simp] theorem TypeClause.relocate_isGeneric (c : TypeClause) :
    (c.relocate g).isGeneric = c.isGeneric := by
  obtain ⟨package, name, arguments, closing⟩ := c
  cases arguments <;> rfl

@[simp] theorem Expression.relocate_isArrayAssignment (e : Expression) :
    (e.relocate g).isArrayAssignment = e.isArrayAssignment := by
  cases e <;> rfl

theorem TypeClause.relocate_span (c : TypeClause) :
    (c.relocate g).span = g.span c.span := by
  obtain ⟨package, name, arguments, closing⟩ := c
  cases package <;> cases closing <;> simp [relocate, span, g.span_cover]

/-- The region of an expression moves with it. -/
@[simp] theorem Expression.relocate_span (e : Expression) :
    (e.relocate g).span = g.span e.span := by
  cases e with
  | literal token => rfl
  | cast type _ _ =>
    obtain ⟨_, _, _, _⟩ := type
    simp [relocate, TypeClause.relocate, span, g.span_cover]
  | assignment _ value | edit _ _ value | fieldAssignment _ _ value =>
    have hvalue := value.relocate_span
    simp [relocate, span, g.span_cover, hvalue]
  | unary _ inner | dereference _ inner | main _ inner =>
    have hinner := inner.relocate_span
    simp [relocate, Operator.relocate, span, g.span_cover, hinner]
  | binary left _ right =>
    have hleft := left.relocate_span
    have hright := right.relocate_span
    simp [relocate, span, g.span_cover, hleft, hright]
  | arrayAccess array _ _ =>
    have harray := array.relocate_span
    simp [relocate, span, g.span_cover, harray]
  | arrayAssignment array _ value =>
    have harray := array.relocate_span
    have hvalue := value.relocate_span
    simp [relocate, span, g.span_cover, harray, hvalue]
  | _ => simp [relocate, Operator.relocate, span, g.span_cover]

theorem VariableDeclaration.relocate_span (d : VariableDeclaration) :
    (d.relocate g).span = g.span d.span := by
  obtain ⟨_, _, _, _, value⟩ := d
  cases value <;> simp [relocate, span, g.span_cover]

@[simp] theorem Statement.relocate_span (s : Statement) : (s.relocate g).span = g.span s.span := by
  cases s with
  | declaration d => exact d.relocate_span g
  | ifThen _ _ body | «for» _ _ _ _ body | «while» _ _ body =>
    have hbody := body.relocate_span
    simp [relocate, span, g.span_cover, hbody]
  | ifElse _ _ _ _ alternative =>
    have halternative := alternative.relocate_span
    simp [relocate, span, g.span_cover, halternative]
  | «return» _ value => cases value <;> simp [relocate, span, g.span_cover]
  | _ => simp [relocate, span, g.span_cover]

/-- The region of a member moves with it. -/
@[simp] theorem Member.relocate_span (member : Member) :
    (member.relocate g).span = g.span member.span := by
  cases member with
  | statement s => exact s.relocate_span g
  | function f =>
    cases hvisibility : f.visibility <;>
      simp [relocate, FunctionDeclaration.relocate, Block.relocate, Block.span, span, g.span_cover,
        hvisibility]
  | external e =>
    cases htype : e.returnType <;>
      simp [relocate, ExternalDeclaration.relocate, span, g.span_cover, htype,
        TypeClause.relocate_span]
  | struct d => simp [relocate, StructDeclaration.relocate, span, g.span_cover]
  | packageReference _ _ | packageUse _ _ => simp [relocate, span, g.span_cover]

end

/-! ### Trees that go nowhere -/

@[simp] theorem Token.relocate_nowhere : Token.relocate .nowhere = Token.bare := rfl

@[simp] theorem Ident.relocate_nowhere : Ident.relocate .nowhere = Ident.bare := rfl

@[simp] theorem Operator.relocate_nowhere : Operator.relocate .nowhere = Operator.bare := rfl

namespace TypeClause

mutual

theorem relocate_nowhere_apply : ∀ c : TypeClause, c.relocate .nowhere = c.bare
  | ⟨package, name, arguments, closing⟩ => by
    have harguments := relocateAll_nowhere arguments
    simp only [relocate, bare, harguments, Ident.relocate_nowhere]
    rfl

theorem relocateAll_nowhere : ∀ cs : List TypeClause, relocateAll .nowhere cs = bareAll cs
  | [] => rfl
  | c :: others => by
    rw [relocateAll, bareAll, relocate_nowhere_apply c, relocateAll_nowhere others]

end

@[simp] theorem relocate_nowhere : relocate .nowhere = bare :=
  funext relocate_nowhere_apply

end TypeClause

@[simp] theorem Parameter.relocate_nowhere : Parameter.relocate .nowhere = Parameter.bare := by
  funext p
  simp [relocate, bare]

namespace Expression

mutual

theorem relocate_nowhere_apply (e : Expression) : e.relocate .nowhere = e.bare := by
  cases e with
  | literal _ | name _ | step _ _ | fieldAccess _ _ | reference _ _ | this _ => rfl
  | parenthesized _ e _ | assignment _ e | unary _ e | edit _ _ e | fieldAssignment _ _ e
  | dereference _ e | makeSized _ _ e _ | main _ e =>
    have he := relocate_nowhere_apply e
    simp [relocate, bare, he]
  | binary left _ right | arrayAccess left right _ =>
    have hleft := relocate_nowhere_apply left
    have hright := relocate_nowhere_apply right
    simp [relocate, bare, hleft, hright]
  | arrayAssignment array index value =>
    have harray := relocate_nowhere_apply array
    have hindex := relocate_nowhere_apply index
    have hvalue := relocate_nowhere_apply value
    simp [relocate, bare, harray, hindex, hvalue]
  | call _ es _ | cast _ es _ | packageCall _ _ es _ | typeCall _ _ es _ | make _ _ es _
  | makeArray _ _ es _ | makeStruct _ _ es _ =>
    have hall := relocateAll_nowhere es
    simp [relocate, bare, hall]

theorem relocateAll_nowhere (es : List Expression) : relocateAll .nowhere es = bareAll es := by
  cases es with
  | nil => rfl
  | cons e others =>
    rw [relocateAll, bareAll, relocate_nowhere_apply e, relocateAll_nowhere others]

end

@[simp] theorem relocate_nowhere : relocate .nowhere = bare :=
  funext relocate_nowhere_apply

end Expression

@[simp] theorem VariableDeclaration.relocate_nowhere :
    VariableDeclaration.relocate .nowhere = VariableDeclaration.bare := by
  funext d
  simp [relocate, bare]

namespace Statement

mutual

theorem relocate_nowhere_apply (s : Statement) : s.relocate .nowhere = s.bare := by
  cases s with
  | block _ ss _ =>
    have hall := relocateAll_nowhere ss
    simp [relocate, bare, hall]
  | declaration _ | expression _ | «return» _ _ => simp [relocate, bare]
  | ifThen _ _ body | «while» _ _ body =>
    have hbody := relocate_nowhere_apply body
    simp [relocate, bare, hbody]
  | ifElse _ _ body _ alternative =>
    have hbody := relocate_nowhere_apply body
    have halternative := relocate_nowhere_apply alternative
    simp [relocate, bare, hbody, halternative]
  | «for» _ _ _ step body =>
    have hstep := relocate_nowhere_apply step
    have hbody := relocate_nowhere_apply body
    simp [relocate, bare, hstep, hbody]
  | «break» _ | «continue» _ => rfl

theorem relocateAll_nowhere (ss : List Statement) : relocateAll .nowhere ss = bareAll ss := by
  cases ss with
  | nil => rfl
  | cons s others =>
    rw [relocateAll, bareAll, relocate_nowhere_apply s, relocateAll_nowhere others]

end

@[simp] theorem relocate_nowhere : relocate .nowhere = bare :=
  funext relocate_nowhere_apply

end Statement

@[simp] theorem Block.relocate_nowhere : Block.relocate .nowhere = Block.bare := by
  funext b
  simp [relocate, bare, Statement.relocateAll_nowhere]

/-- A member that goes nowhere is bare. -/
@[simp] theorem Member.relocate_nowhere : Member.relocate .nowhere = Member.bare := by
  funext member
  have hspan : Relocation.nowhere.span = fun _ => Span.none := rfl
  cases member <;>
    simp [relocate, bare, FunctionDeclaration.relocate, ExternalDeclaration.relocate,
      StructDeclaration.relocate, hspan]

/-! ### Trees that stay -/

@[simp] theorem Token.relocate_stay (t : Token) : t.relocate .stay = t := rfl

@[simp] theorem Ident.relocate_stay : Ident.relocate .stay = id := rfl

@[simp] theorem Operator.relocate_stay (operator : Operator) : operator.relocate .stay = operator :=
  rfl

namespace TypeClause

mutual

theorem relocate_stay_apply : ∀ c : TypeClause, c.relocate .stay = c
  | ⟨package, name, arguments, closing⟩ => by
    have harguments := relocateAll_stay arguments
    have hclosing : closing.map Relocation.stay.span = closing := by
      cases closing <;> rfl
    simp [relocate, harguments, hclosing]

theorem relocateAll_stay : ∀ cs : List TypeClause, relocateAll .stay cs = cs
  | [] => rfl
  | c :: others => by rw [relocateAll, relocate_stay_apply c, relocateAll_stay others]

end

@[simp] theorem relocate_stay : relocate .stay = id :=
  funext relocate_stay_apply

end TypeClause

@[simp] theorem Parameter.relocate_stay : Parameter.relocate .stay = id := by
  funext p
  simp [relocate]

namespace Expression

mutual

theorem relocate_stay_apply (e : Expression) : e.relocate .stay = e := by
  cases e with
  | literal _ | name _ | step _ _ | fieldAccess _ _ | reference _ _ | this _ => rfl
  | parenthesized _ e _ | assignment _ e | unary _ e | edit _ _ e | fieldAssignment _ _ e
  | dereference _ e | makeSized _ _ e _ | main _ e =>
    have he := relocate_stay_apply e
    simp [relocate, he]
  | binary left _ right | arrayAccess left right _ =>
    have hleft := relocate_stay_apply left
    have hright := relocate_stay_apply right
    simp [relocate, hleft, hright]
  | arrayAssignment array index value =>
    have harray := relocate_stay_apply array
    have hindex := relocate_stay_apply index
    have hvalue := relocate_stay_apply value
    simp [relocate, harray, hindex, hvalue]
  | call _ es _ | cast _ es _ | packageCall _ _ es _ | typeCall _ _ es _ | make _ _ es _
  | makeArray _ _ es _ | makeStruct _ _ es _ =>
    have hall := relocateAll_stay es
    simp [relocate, hall]

theorem relocateAll_stay (es : List Expression) : relocateAll .stay es = es := by
  cases es with
  | nil => rfl
  | cons e others => rw [relocateAll, relocate_stay_apply e, relocateAll_stay others]

end

@[simp] theorem relocate_stay : relocate .stay = id :=
  funext relocate_stay_apply

end Expression

@[simp] theorem VariableDeclaration.relocate_stay (d : VariableDeclaration) :
    d.relocate .stay = d := by
  simp [relocate]

namespace Statement

mutual

theorem relocate_stay_apply (s : Statement) : s.relocate .stay = s := by
  cases s with
  | block _ ss _ =>
    have hall := relocateAll_stay ss
    simp [relocate, hall]
  | declaration _ | expression _ | «return» _ _ => simp [relocate]
  | ifThen _ _ body | «while» _ _ body =>
    have hbody := relocate_stay_apply body
    simp [relocate, hbody]
  | ifElse _ _ body _ alternative =>
    have hbody := relocate_stay_apply body
    have halternative := relocate_stay_apply alternative
    simp [relocate, hbody, halternative]
  | «for» _ _ _ step body =>
    have hstep := relocate_stay_apply step
    have hbody := relocate_stay_apply body
    simp [relocate, hstep, hbody]
  | «break» _ | «continue» _ => rfl

theorem relocateAll_stay (ss : List Statement) : relocateAll .stay ss = ss := by
  cases ss with
  | nil => rfl
  | cons s others => rw [relocateAll, relocate_stay_apply s, relocateAll_stay others]

end

end Statement

@[simp] theorem Block.relocate_stay (b : Block) : b.relocate .stay = b := by
  simp [relocate, Statement.relocateAll_stay]

/-- A member that stays is the same. -/
@[simp] theorem Member.relocate_stay : Member.relocate .stay = id := by
  funext member
  have hspan : Relocation.stay.span = id := rfl
  cases member with
  | statement s => simp [relocate, Statement.relocate_stay_apply]
  | _ =>
    simp [relocate, FunctionDeclaration.relocate, ExternalDeclaration.relocate,
      StructDeclaration.relocate, hspan]

end TodLang
