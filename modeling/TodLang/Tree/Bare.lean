import TodLang.Tree.Basic
/-!
Trees without places. What a tree says does not depend on where its parts are written, nor on the
white space behind a literal; the bare tree keeps all the rest. Two trees with the same bare tree
are the same but for their layout.
-/

namespace TodLang

/-- The token at no place. -/
def Token.bare (t : Token) : Token :=
  { t with span := Span.none, spaceAfter := true }

/-- The name at no place. -/
def Ident.bare (name : Ident) : Ident :=
  { name with span := Span.none }

/-- The operator at no place. -/
def Operator.bare (operator : Operator) : Operator :=
  { operator with span := Span.none }

namespace TypeClause

mutual

/-- The written type at no place. -/
def bare (c : TypeClause) : TypeClause :=
  match c with
  | ⟨package, name, arguments, closing⟩ =>
    ⟨package.map Ident.bare, name.bare, bareAll arguments, closing.map fun _ => Span.none⟩

/-- The written types at no place. -/
def bareAll : List TypeClause → List TypeClause
  | [] => []
  | c :: others => c.bare :: bareAll others

end

end TypeClause

/-- The parameter at no place. -/
def Parameter.bare (p : Parameter) : Parameter :=
  ⟨p.name.bare, p.type.bare⟩

namespace Expression

mutual

/-- The expression at no place. -/
def bare : Expression → Expression
  | literal token => .literal token.bare
  | parenthesized _ inner _ => .parenthesized Span.none inner.bare Span.none
  | name n => .name n.bare
  | assignment target value => .assignment target.bare value.bare
  | call callee arguments _ => .call callee.bare (bareAll arguments) Span.none
  | cast type arguments _ => .cast type.bare (bareAll arguments) Span.none
  | packageCall package callee arguments _ =>
    .packageCall package.bare callee.bare (bareAll arguments) Span.none
  | typeCall receiver callee arguments _ =>
    .typeCall receiver.bare callee.bare (bareAll arguments) Span.none
  | unary operator operand => .unary operator.bare operand.bare
  | binary left operator right => .binary left.bare operator.bare right.bare
  | edit target operator value => .edit target.bare operator.bare value.bare
  | step target operator => .step target.bare operator.bare
  | fieldAccess object field => .fieldAccess object.bare field.bare
  | fieldAssignment object field value => .fieldAssignment object.bare field.bare value.bare
  | arrayAccess array index _ => .arrayAccess array.bare index.bare Span.none
  | arrayAssignment array index value => .arrayAssignment array.bare index.bare value.bare
  | reference _ n => .reference Span.none n.bare
  | dereference _ operand => .dereference Span.none operand.bare
  | make _ type arguments _ => .make Span.none type.bare (bareAll arguments) Span.none
  | makeSized _ type length _ => .makeSized Span.none type.bare length.bare Span.none
  | makeArray _ type elements _ => .makeArray Span.none type.bare (bareAll elements) Span.none
  | makeStruct _ type fields _ => .makeStruct Span.none type.bare (bareAll fields) Span.none
  | this _ => .this Span.none
  | main _ inner => .main Span.none inner.bare

/-- The expressions at no place. -/
def bareAll : List Expression → List Expression
  | [] => []
  | e :: others => e.bare :: bareAll others

end

end Expression

/-- The declaration at no place. -/
def VariableDeclaration.bare (d : VariableDeclaration) : VariableDeclaration :=
  { keyword := Span.none
    readOnly := d.readOnly
    type := d.type.map TypeClause.bare
    name := d.name.bare
    value := d.value.map Expression.bare }

namespace Statement

mutual

/-- The statement at no place. -/
def bare : Statement → Statement
  | block _ statements _ => .block Span.none (bareAll statements) Span.none
  | declaration d => .declaration d.bare
  | ifThen _ condition body => .ifThen Span.none condition.bare body.bare
  | ifElse _ condition body _ alternative =>
    .ifElse Span.none condition.bare body.bare Span.none alternative.bare
  | .return _ value => .return Span.none (value.map Expression.bare)
  | .for _ init condition step body =>
    .for Span.none init.bare condition.bare step.bare body.bare
  | .while _ condition body => .while Span.none condition.bare body.bare
  | .break _ => .break Span.none
  | .continue _ => .continue Span.none
  | expression e => .expression e.bare

/-- The statements at no place. -/
def bareAll : List Statement → List Statement
  | [] => []
  | s :: others => s.bare :: bareAll others

end

end Statement

/-- The block at no place. -/
def Block.bare (b : Block) : Block :=
  ⟨Span.none, Statement.bareAll b.statements, Span.none⟩

/-- The member at no place. -/
def Member.bare : Member → Member
  | statement s => .statement s.bare
  | function f =>
    .function
      { visibility := f.visibility.map fun _ => Span.none
        keyword := Span.none
        name := f.name.bare
        parameters := f.parameters.map Parameter.bare
        returnType := f.returnType.map TypeClause.bare
        body := f.body.bare }
  | external e =>
    .external
      { keyword := Span.none
        name := e.name.bare
        parameters := e.parameters.map Parameter.bare
        returnType := e.returnType.map TypeClause.bare
        closing := Span.none }
  | struct d =>
    .struct
      { keyword := Span.none
        name := d.name.bare
        fields := d.fields.map Parameter.bare
        closing := Span.none }
  | packageReference _ name => .packageReference Span.none name.bare
  | packageUse _ name => .packageUse Span.none name.bare

/-! ### Bare trees stay as they are -/

@[simp] theorem Token.bare_bare (t : Token) : t.bare.bare = t.bare := rfl

@[simp] theorem Ident.bare_bare (name : Ident) : name.bare.bare = name.bare := rfl

@[simp] theorem Operator.bare_bare (operator : Operator) : operator.bare.bare = operator.bare := rfl

namespace TypeClause

mutual

@[simp] theorem bare_bare : ∀ c : TypeClause, c.bare.bare = c.bare
  | ⟨package, name, arguments, closing⟩ => by
    have harguments := bareAll_bareAll arguments
    cases package <;> cases closing <;> simp [bare, harguments]

@[simp] theorem bareAll_bareAll : ∀ cs : List TypeClause, bareAll (bareAll cs) = bareAll cs
  | [] => rfl
  | c :: others => by
    have hfirst := bare_bare c
    have hothers := bareAll_bareAll others
    simp [bareAll, hfirst, hothers]

end

end TypeClause

@[simp] theorem Parameter.bare_bare (p : Parameter) : p.bare.bare = p.bare := by
  simp [Parameter.bare]

namespace Expression

mutual

@[simp] theorem bare_bare (e : Expression) : e.bare.bare = e.bare := by
  cases e with
  | literal _ | name _ | step _ _ | fieldAccess _ _ | reference _ _ | this _ => rfl
  | parenthesized _ e _ | assignment _ e | unary _ e | edit _ _ e | fieldAssignment _ _ e
  | dereference _ e | makeSized _ _ e _ | main _ e =>
    have he := bare_bare e
    simp [bare, he]
  | binary left _ right | arrayAccess left right _ =>
    have hleft := bare_bare left
    have hright := bare_bare right
    simp [bare, hleft, hright]
  | arrayAssignment array index value =>
    have harray := bare_bare array
    have hindex := bare_bare index
    have hvalue := bare_bare value
    simp [bare, harray, hindex, hvalue]
  | call _ es _ | cast _ es _ | packageCall _ _ es _ | typeCall _ _ es _ | make _ _ es _
  | makeArray _ _ es _ | makeStruct _ _ es _ =>
    have hall := bareAll_bareAll es
    simp [bare, hall]

@[simp] theorem bareAll_bareAll (es : List Expression) : bareAll (bareAll es) = bareAll es := by
  cases es with
  | nil => rfl
  | cons e es =>
    have hfirst := bare_bare e
    have hothers := bareAll_bareAll es
    simp [bareAll, hfirst, hothers]

end

end Expression

@[simp] theorem VariableDeclaration.bare_bare (d : VariableDeclaration) : d.bare.bare = d.bare := by
  cases d with
  | mk _ _ type _ value => cases type <;> cases value <;> simp [VariableDeclaration.bare]

namespace Statement

mutual

@[simp] theorem bare_bare (s : Statement) : s.bare.bare = s.bare := by
  cases s with
  | block _ ss _ =>
    have hall := bareAll_bareAll ss
    simp [bare, hall]
  | declaration _ | expression _ => simp [bare]
  | ifThen _ _ body | «while» _ _ body =>
    have hbody := bare_bare body
    simp [bare, hbody]
  | ifElse _ _ body _ alternative =>
    have hbody := bare_bare body
    have halternative := bare_bare alternative
    simp [bare, hbody, halternative]
  | «return» _ value => cases value <;> simp [bare]
  | «for» _ _ _ step body =>
    have hstep := bare_bare step
    have hbody := bare_bare body
    simp [bare, hstep, hbody]
  | «break» _ | «continue» _ => rfl

@[simp] theorem bareAll_bareAll (ss : List Statement) : bareAll (bareAll ss) = bareAll ss := by
  cases ss with
  | nil => rfl
  | cons s ss =>
    have hfirst := bare_bare s
    have hothers := bareAll_bareAll ss
    simp [bareAll, hfirst, hothers]

end

end Statement

@[simp] theorem Block.bare_bare (b : Block) : b.bare.bare = b.bare := by
  simp [Block.bare]

/-- A bare member has no places left to lose. -/
@[simp] theorem Member.bare_bare (member : Member) : member.bare.bare = member.bare := by
  cases member with
  | statement s => simp [Member.bare]
  | function f =>
    cases hvisibility : f.visibility <;> cases htype : f.returnType <;>
      simp [Member.bare, hvisibility, htype]
  | external e => cases htype : e.returnType <;> simp [Member.bare, htype]
  | struct d => simp [Member.bare]
  | packageReference _ _ | packageUse _ _ => rfl

end TodLang
