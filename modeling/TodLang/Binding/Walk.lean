import TodLang.Binding.Reference
/-!
A walk through the statements of a program. It keeps the scope that it is in, the last number that
a variable took, the symbols of the regions that it has left, and what it has found.
-/

namespace TodLang

/-- Where a walk is and what it has gathered. -/
structure Walk where
  scope : Scope
  /-- The last number that a variable took. -/
  last : Nat
  /-- The functions of the built-in types. -/
  typeFunctions : List TypeFunction
  /-- The symbols of the regions that were left, region by region. -/
  closed : List Symbol := []
  findings : List Finding := []
  deriving Repr

namespace Walk

/-- Adds to what was found. -/
def report (w : Walk) (findings : List Finding) : Walk :=
  { w with findings := w.findings ++ findings }

/-- Declares a symbol in the innermost region. A name that is declared there already is a fault
and keeps its meaning. -/
def declare (w : Walk) (symbol : Symbol) (span : Span) : Walk :=
  match w.scope.declare? symbol with
  | some scope => { w with scope }
  | none => w.report [.fault (.alreadyDeclared symbol.name) span]

/-- Enters a new region. -/
def enter (w : Walk) : Walk :=
  { w with scope := w.scope.enter }

/-- Leaves the innermost region, unless there is none around it, and keeps its symbols. -/
def leave (w : Walk) : Walk :=
  match w.scope.outer with
  | [] => w
  | next :: others =>
    { w with scope := ⟨next, others⟩, closed := w.closed ++ w.scope.inner.symbols }

/-- A variable with the next number. -/
def newVariable (w : Walk) (name : Ident) (readOnly : Bool) (type : Ty) : Variable :=
  { name := name.name, readOnly, type, id := w.last + 1, declaration := some name.span }

/-- Takes the next number. -/
def countVariable (w : Walk) : Walk :=
  { w with last := w.last + 1 }

/-- The type that a written type stands for. -/
def type (w : Walk) (clause : TypeClause) : Ty × Walk :=
  let (type, findings) := w.scope.resolveType clause
  (type, w.report findings)

/-- Binds an expression. -/
def expression (w : Walk) (e : Expression) : Walk :=
  w.report (Scope.bindExpression w.typeFunctions w.scope e)

/-- Binds an expression that may be missing. -/
def optionalExpression (w : Walk) : Option Expression → Walk
  | some e => w.expression e
  | none => w

/-- The type of a variable: the one that is written, or the one of its value. -/
def declaredType (w : Walk) (d : VariableDeclaration) : Ty × Walk :=
  match d.type, d.value with
  | some clause, _ => w.type clause
  | none, some value => (Scope.inferType w.typeFunctions w.scope value, w)
  | none, none => (.any, w)

/-- Declares a variable of a given kind. -/
def declareVariable (w : Walk) (make : Variable → Symbol) (d : VariableDeclaration) : Walk :=
  let (type, w) := w.declaredType d
  w.countVariable.declare (make (w.newVariable d.name d.readOnly type)) d.name.span

/-- A local variable. Its value is bound before it is declared. -/
def localVariable (w : Walk) (d : VariableDeclaration) : Walk :=
  (w.optionalExpression d.value).declareVariable .localVariable d

mutual

/-- Binds a statement. Every block, branch and body has a region of its own, and so has the head of
a `for`. -/
def statement (w : Walk) : Statement → Walk
  | .block _ statements _ => (w.enter.statements statements).leave
  | .declaration d => w.localVariable d
  | .ifThen _ condition body => ((w.expression condition).enter.statement body).leave
  | .ifElse _ condition body _ alternative =>
    (((w.expression condition).enter.statement body).leave.enter.statement alternative).leave
  | .return _ value => w.optionalExpression value
  | .for _ init condition step body =>
    ((((w.enter.localVariable init).expression condition).statement step).enter.statement
      body).leave.leave
  | .while _ condition body => ((w.expression condition).enter.statement body).leave
  | .break _ => w
  | .continue _ => w
  | .expression e => w.expression e

/-- Binds statements one after another. -/
def statements (w : Walk) : List Statement → Walk
  | [] => w
  | s :: others => (w.statement s).statements others

end

theorem leave_enter (w : Walk) : w.enter.leave = w := by
  simp [enter, leave, Scope.enter, Region.empty]

theorem statements_append (w : Walk) (front back : List Statement) :
    w.statements (front ++ back) = (w.statements front).statements back := by
  induction front generalizing w with
  | nil => rfl
  | cons s others ih => simp [statements, ih]

end Walk

end TodLang
