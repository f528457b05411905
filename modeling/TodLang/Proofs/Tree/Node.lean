import TodLang.Tree.Basic
/-!
The nodes of a syntax tree, whatever they are, with the nodes directly below each and all nodes
inside it. `everywhere_iff` is the way to a property of all nodes: it holds of a node and, in turn,
of all that is inside the nodes below it.
-/

namespace TodLang

/-- A node of a syntax tree. -/
inductive Node where
  | member (m : Member)
  | statement (s : Statement)
  /-- The part of a statement from `else` on. -/
  | alternative (keyword : Span) (s : Statement)
  | declaration (d : VariableDeclaration)
  | parameter (p : Parameter)
  | type (c : TypeClause)
  | expression (e : Expression)

namespace Node

/-- The region of a node. -/
def span : Node → Span
  | member m => m.span
  | statement s => s.span
  | alternative keyword s => keyword.cover s.span
  | declaration d => d.span
  | parameter p => p.span
  | type c => c.span
  | expression e => e.span

/-- The nodes directly below an expression. -/
def belowExpression : Expression → List Node
  | .literal _ => []
  | .parenthesized _ inner _ => [expression inner]
  | .name _ => []
  | .assignment _ value => [expression value]
  | .call _ arguments _ => arguments.map expression
  | .cast c arguments _ => type c :: arguments.map expression
  | .packageCall _ _ arguments _ => arguments.map expression
  | .typeCall _ _ arguments _ => arguments.map expression
  | .unary _ operand => [expression operand]
  | .binary left _ right => [expression left, expression right]
  | .edit _ _ value => [expression value]
  | .step _ _ => []
  | .fieldAccess _ _ => []
  | .fieldAssignment _ _ value => [expression value]
  | .arrayAccess array index _ => [expression array, expression index]
  | .arrayAssignment array index value => [expression array, expression index, expression value]
  | .reference _ _ => []
  | .dereference _ operand => [expression operand]
  | .make _ c arguments _ => type c :: arguments.map expression
  | .makeSized _ c length _ => [type c, expression length]
  | .makeArray _ c elements _ => type c :: elements.map expression
  | .makeStruct _ c fields _ => type c :: fields.map expression
  | .this _ => []
  | .main _ inner => [expression inner]

/-- The nodes directly below a statement. -/
def belowStatement : Statement → List Node
  | .block _ statements _ => statements.map statement
  | .declaration d => [declaration d]
  | .ifThen _ condition body => [expression condition, statement body]
  | .ifElse _ condition body keyword other =>
    [expression condition, statement body, alternative keyword other]
  | .return _ value => (value.map expression).toList
  | .for _ init condition step body =>
    [declaration init, expression condition, statement step, statement body]
  | .while _ condition body => [expression condition, statement body]
  | .break _ => []
  | .continue _ => []
  | .expression e => [expression e]

/-- The nodes directly below a member. -/
def belowMember : Member → List Node
  | .statement s => [statement s]
  | .function f =>
    f.parameters.map parameter ++ (f.returnType.map type).toList ++ [statement f.body.toStatement]
  | .external e => e.parameters.map parameter ++ (e.returnType.map type).toList
  | .struct d => d.fields.map parameter
  | .packageReference _ _ => []
  | .packageUse _ _ => []

/-- The nodes directly below a node. -/
def children : Node → List Node
  | member m => belowMember m
  | statement s => belowStatement s
  | alternative _ s => [statement s]
  | declaration d => (d.type.map type).toList ++ (d.value.map expression).toList
  | parameter p => [type p.type]
  | type c => c.arguments.map type
  | expression e => belowExpression e

/-- The first node is the second one, or is somewhere below it. -/
inductive Within (inner : Node) : Node → Prop
  | self : Within inner inner
  | under {child node : Node} (hchild : child ∈ node.children) (h : Within inner child) :
      Within inner node

/-- All nodes of a tree have a property. -/
def Everywhere (holds : Node → Prop) (node : Node) : Prop :=
  ∀ inner, Within inner node → holds inner

theorem everywhere_iff {holds : Node → Prop} {node : Node} :
    Everywhere holds node ↔ holds node ∧ ∀ child ∈ node.children, Everywhere holds child := by
  constructor
  · intro h
    refine ⟨h node Within.self, ?_⟩
    intro child hchild inner hinner
    exact h inner (Within.under hchild hinner)
  · rintro ⟨hnode, hchildren⟩ inner hinner
    cases hinner with
    | self => exact hnode
    | under hchild hinner => exact hchildren _ hchild inner hinner

end Node

end TodLang
