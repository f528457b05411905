import TodLang.Proofs.Grammar.Readings
import TodLang.Proofs.Tree.Node
/-!
What holds of all expressions in a program that was read. Statements and members have no
expressions but those that `parseExpression` reads, so it is enough to know what it reads
(`parseProgram_everyExpression`).
-/

namespace TodLang

namespace Expression

/-- The expressions directly below an expression. -/
def parts : Expression → List Expression
  | literal _ | name _ | step _ _ | fieldAccess _ _ | reference _ _ | this _ => []
  | parenthesized _ e _ | assignment _ e | unary _ e | edit _ _ e | fieldAssignment _ _ e
  | dereference _ e | makeSized _ _ e _ | main _ e => [e]
  | binary left _ right | arrayAccess left right _ => [left, right]
  | arrayAssignment array index value => [array, index, value]
  | call _ es _ | cast _ es _ | packageCall _ _ es _ | typeCall _ _ es _ | make _ _ es _
  | makeArray _ _ es _ | makeStruct _ _ es _ => es

theorem sizeOf_lt_of_mem_parts {e part : Expression} (h : part ∈ e.parts) :
    sizeOf part < sizeOf e := by
  cases e with
  | literal _ | name _ | step _ _ | fieldAccess _ _ | reference _ _ | this _ => cases h
  | call _ es _ | cast _ es _ | packageCall _ _ es _ | typeCall _ _ es _ | make _ _ es _
  | makeArray _ _ es _ | makeStruct _ _ es _ =>
    have hes : sizeOf part < sizeOf es := List.sizeOf_lt_of_mem h
    refine Nat.lt_trans hes ?_
    simp
    omega
  | _ =>
    simp only [parts, List.mem_cons, List.not_mem_nil, or_false] at h
    rcases h with rfl | rfl | rfl <;> simp <;> omega

end Expression

namespace Node

/-- Below an expression are its parts, perhaps behind a written type. -/
theorem belowExpression_eq (e : Expression) :
    ∃ types : List TypeClause, belowExpression e = types.map type ++ e.parts.map expression := by
  cases e with
  | cast c _ _ | make _ c _ _ | makeSized _ c _ _ | makeArray _ c _ _ | makeStruct _ c _ _ =>
    exact ⟨[c], rfl⟩
  | _ => exact ⟨[], rfl⟩

/-- All expressions in a node have a property. -/
def EveryExpression (holds : Expression → Prop) (node : Node) : Prop :=
  ∀ e, Within (expression e) node → holds e

section

variable {holds : Expression → Prop}

/-- An expression in a node that is none is in a node directly below it. -/
theorem within_iff_children {e : Expression} {node : Node}
    (hnode : ∀ whole, node ≠ expression whole) :
    Within (expression e) node ↔ ∃ child ∈ node.children, Within (expression e) child := by
  constructor
  · intro h
    cases h with
    | self => exact absurd rfl (hnode e)
    | under hchild h => exact ⟨_, hchild, h⟩
  · rintro ⟨child, hchild, h⟩
    exact .under hchild h

theorem within_statement {e : Expression} {s : Statement} :
    Within (expression e) (statement s) ↔
      ∃ child ∈ belowStatement s, Within (expression e) child :=
  within_iff_children nofun

theorem within_alternative {e : Expression} {keyword : Span} {s : Statement} :
    Within (expression e) (alternative keyword s) ↔ Within (expression e) (statement s) := by
  have hchildren : Within (expression e) (alternative keyword s) ↔
      ∃ child ∈ [statement s], Within (expression e) child := within_iff_children nofun
  simpa using hchildren

theorem within_member {e : Expression} {m : Member} :
    Within (expression e) (member m) ↔ ∃ child ∈ belowMember m, Within (expression e) child :=
  within_iff_children nofun

/-- A node that is no expression has no more expressions than the nodes below it. -/
theorem everyExpression_of_children {node : Node} (hnode : ∀ e, node ≠ expression e)
    (h : ∀ child ∈ node.children, EveryExpression holds child) : EveryExpression holds node := by
  intro e hinner
  cases hinner with
  | self => exact absurd rfl (hnode e)
  | under hchild hinner => exact h _ hchild e hinner

/-- There are no expressions in a written type. -/
theorem everyExpression_type (c : TypeClause) : EveryExpression holds (type c) := by
  have hwithin : ∀ inner node, Within inner node → ∀ c, node = type c → ∃ d, inner = type d := by
    intro inner node h
    induction h with
    | self => exact fun c hc => ⟨c, hc⟩
    | under hchild _ ih =>
      rintro c rfl
      obtain ⟨d, -, rfl⟩ := List.mem_map.1 hchild
      exact ih d rfl
  intro e h
  obtain ⟨d, hd⟩ := hwithin _ _ h c rfl
  cases hd

theorem not_within_type {e : Expression} (c : TypeClause) : ¬ Within (expression e) (type c) := by
  have hno : EveryExpression (fun _ => False) (type c) := everyExpression_type c
  exact hno e

/-- An expression is in another one if it is that one, or is in one of its parts. -/
theorem within_expression_iff {e whole : Expression} :
    Within (expression e) (expression whole) ↔
      e = whole ∨ ∃ part ∈ whole.parts, Within (expression e) (expression part) := by
  obtain ⟨types, hbelow⟩ := belowExpression_eq whole
  constructor
  · intro h
    cases h with
    | self => exact .inl rfl
    | under hchild h =>
      rw [children, hbelow] at hchild
      rcases List.mem_append.1 hchild with htype | hpart
      · -- There is nothing but types in a type.
        obtain ⟨c, -, rfl⟩ := List.mem_map.1 htype
        exact absurd h (not_within_type c)
      · obtain ⟨part, hmem, rfl⟩ := List.mem_map.1 hpart
        exact .inr ⟨part, hmem, h⟩
  · rintro (rfl | ⟨part, hpart, h⟩)
    · exact .self
    · refine .under ?_ h
      rw [children, hbelow]
      exact List.mem_append_right _ (List.mem_map_of_mem hpart)

theorem everyExpression_iff_parts {e : Expression} :
    EveryExpression holds (expression e) ↔
      holds e ∧ ∀ part ∈ e.parts, EveryExpression holds (expression part) := by
  constructor
  · intro h
    refine ⟨h e .self, fun part hpart inner hinner => ?_⟩
    exact h inner (within_expression_iff.2 (.inr ⟨part, hpart, hinner⟩))
  · rintro ⟨he, hparts⟩ inner hinner
    rcases within_expression_iff.1 hinner with rfl | ⟨part, hpart, hwithin⟩
    · exact he
    · exact hparts part hpart inner hwithin

theorem everyExpression_parameter (p : Parameter) : EveryExpression holds (parameter p) := by
  refine everyExpression_of_children nofun fun child hchild => ?_
  obtain rfl : child = type p.type := by simpa [children] using hchild
  exact everyExpression_type p.type

theorem not_within_parameter {e : Expression} (p : Parameter) :
    ¬ Within (expression e) (parameter p) := by
  have hno : EveryExpression (fun _ => False) (parameter p) := everyExpression_parameter p
  exact hno e

end

end Node

open Node

section

variable {holds : Expression → Prop}

/-- All expressions in every expression that is read have a property. -/
def HoldsOfRead (holds : Expression → Prop) : Prop :=
  ∀ {tokens : List Token} {p : Parsed Expression tokens.length}, parseExpression tokens = .ok p →
    EveryExpression holds (.expression p.value)

theorem parseVariableDeclaration_everyExpression (hread : HoldsOfRead holds)
    {d : VariableDeclaration} {ts rest : List Token}
    (h : ReadsAs parseVariableDeclaration ts d rest) : EveryExpression holds (.declaration d) := by
  obtain ⟨_, r₂, r₃, -, -, -, hvalue⟩ := parseVariableDeclaration_iff.1 h
  refine everyExpression_of_children nofun fun child hchild => ?_
  obtain ⟨c, -, rfl⟩ | ⟨value, hsome, rfl⟩ :
      (∃ c, d.type = some c ∧ .type c = child) ∨
        ∃ value, d.value = some value ∧ .expression value = child := by
    simpa [children] using hchild
  · exact everyExpression_type c
  · rw [hsome] at hvalue
    obtain ⟨_, _, -, _, hvalue⟩ := hvalue
    exact hread hvalue

theorem parseCondition_everyExpression (hread : HoldsOfRead holds) {condition : Expression}
    {ts rest : List Token} (h : ReadsAs parseCondition ts condition rest) :
    EveryExpression holds (.expression condition) := by
  obtain ⟨_, _, _, _, -, ⟨_, hcondition⟩, -⟩ := parseCondition_iff.1 h
  exact hread hcondition

theorem parseReturnValue_everyExpression (hread : HoldsOfRead holds) {value : Option Expression}
    {ts rest : List Token} (h : ReadsAs parseReturnValue ts value rest) :
    ∀ e ∈ value, EveryExpression holds (.expression e) := by
  rw [parseReturnValue_iff] at h
  rintro e ⟨⟩
  obtain ⟨-, _, hvalue⟩ := h
  exact hread hvalue

theorem ConditionalReading.everyExpression (hread : HoldsOfRead holds) {word : Keyword}
    {keyword : Span} {condition : Expression} {ts rest : List Token}
    (h : ConditionalReading word keyword condition ts rest) :
    EveryExpression holds (.expression condition) := by
  obtain ⟨_, -, hcondition⟩ := h
  exact parseCondition_everyExpression hread hcondition

theorem LoopReading.everyExpression (hread : HoldsOfRead holds) {keyword : Span}
    {init : VariableDeclaration} {condition : Expression} {ts rest : List Token}
    (h : LoopReading keyword init condition ts rest) :
    EveryExpression holds (.declaration init) ∧ EveryExpression holds (.expression condition) := by
  obtain ⟨_, _, _, _, _, _, _, _, -, -, hinit, -, ⟨_, hcondition⟩, -⟩ := h
  exact ⟨parseVariableDeclaration_everyExpression hread hinit, hread hcondition⟩

mutual

theorem parseStatement_everyExpression (hread : HoldsOfRead holds) {s : Statement}
    {ts rest : List Token} (h : ReadsAs parseStatement ts s rest) :
    EveryExpression holds (.statement s) := by
  obtain ⟨_, _, hbare, -⟩ := parseStatement_iff.1 h
  exact parseBareStatement_everyExpression hread hbare
termination_by (sizeOf s, 1)

theorem parseBareStatement_everyExpression (hread : HoldsOfRead holds) {s : Statement}
    {ts rest : List Token} (h : ReadsAs parseBareStatement ts s rest) :
    EveryExpression holds (.statement s) := by
  rw [parseBareStatement_iff] at h
  refine everyExpression_of_children nofun ?_
  cases s with
  | declaration d =>
    have hd := parseVariableDeclaration_everyExpression hread h
    simpa [children, belowStatement] using hd
  | block opening ss closing =>
    obtain ⟨_, -, hstatements⟩ := h
    have hss := parseStatements_everyExpression hread hstatements
    simpa [children, belowStatement] using hss
  | ifThen keyword condition body =>
    obtain ⟨_, hconditional, hbody, -⟩ := h
    have hc := hconditional.everyExpression hread
    have hb := parseStatement_everyExpression hread hbody
    simpa [children, belowStatement] using ⟨hc, hb⟩
  | ifElse keyword condition body elseKeyword alternative =>
    obtain ⟨_, _, _, hconditional, hbody, -, halternative⟩ := h
    have hc := hconditional.everyExpression hread
    have hb := parseStatement_everyExpression hread hbody
    have ha : EveryExpression holds (.alternative elseKeyword alternative) := by
      refine everyExpression_of_children nofun ?_
      simpa [children] using parseStatement_everyExpression hread halternative
    simpa [children, belowStatement] using ⟨hc, hb, ha⟩
  | «return» keyword value =>
    obtain ⟨_, -, hvalue⟩ := h
    have hv := parseReturnValue_everyExpression hread hvalue
    simpa [children, belowStatement] using hv
  | «for» keyword init condition step body =>
    obtain ⟨_, _, _, _, hloop, hstep, -, hbody⟩ := h
    obtain ⟨hi, hc⟩ := hloop.everyExpression hread
    have hs := parseStatement_everyExpression hread hstep
    have hb := parseStatement_everyExpression hread hbody
    simpa [children, belowStatement] using ⟨hi, hc, hs, hb⟩
  | «while» keyword condition body =>
    obtain ⟨_, hconditional, hbody⟩ := h
    have hc := hconditional.everyExpression hread
    have hb := parseStatement_everyExpression hread hbody
    simpa [children, belowStatement] using ⟨hc, hb⟩
  | «break» keyword | «continue» keyword => simp [children, belowStatement]
  | expression e =>
    obtain ⟨-, _, hexpression⟩ := h
    have he := hread hexpression
    simpa [children, belowStatement] using he
termination_by (sizeOf s, 0)

theorem parseStatements_everyExpression (hread : HoldsOfRead holds) {ss : List Statement}
    {closing : Span} {ts rest : List Token} (h : ReadsAs parseStatements ts (ss, closing) rest) :
    ∀ s ∈ ss, EveryExpression holds (.statement s) := by
  rw [parseStatements_iff] at h
  cases ss with
  | nil => simp
  | cons s others =>
    obtain ⟨-, _, hfirst, hothers⟩ := h
    exact List.forall_mem_cons.2 ⟨parseStatement_everyExpression hread hfirst,
      parseStatements_everyExpression hread hothers⟩
termination_by (sizeOf ss, 0)

end

theorem everyExpression_parameters (ps : List Parameter) :
    ∀ child ∈ ps.map Node.parameter, EveryExpression holds child := by
  intro child hchild
  obtain ⟨p, -, rfl⟩ := List.mem_map.1 hchild
  exact everyExpression_parameter p

theorem everyExpression_returnType (c : Option TypeClause) :
    ∀ child ∈ (c.map Node.type).toList, EveryExpression holds child := by
  cases c with
  | none => simp
  | some c => simpa using everyExpression_type c

theorem parseBlock_everyExpression (hread : HoldsOfRead holds) {b : Block} {ts rest : List Token}
    (h : ReadsAs parseBlock ts b rest) : EveryExpression holds (.statement b.toStatement) := by
  obtain ⟨_, -, hstatements⟩ := parseBlock_iff.1 h
  have hss := parseStatements_everyExpression hread hstatements
  refine everyExpression_of_children nofun ?_
  simpa [children, belowStatement, Block.toStatement] using hss

/-- Members other than statements and functions have no expressions. -/
theorem parseMember_everyExpression (hread : HoldsOfRead holds) {member : Member}
    {ts rest : List Token} (h : ReadsAs parseMember ts member rest) :
    EveryExpression holds (.member member) := by
  rw [parseMember_iff] at h
  refine everyExpression_of_children nofun ?_
  cases member with
  | statement s =>
    have hs := parseStatement_everyExpression hread h.2
    simpa [children, belowMember] using hs
  | function f =>
    obtain ⟨_, _, _, -, -, hbody⟩ := h
    have hb := parseBlock_everyExpression hread hbody
    refine List.forall_mem_append.2 ⟨?_, by simpa using hb⟩
    exact List.forall_mem_append.2 ⟨everyExpression_parameters _, everyExpression_returnType _⟩
  | external e =>
    exact List.forall_mem_append.2 ⟨everyExpression_parameters _, everyExpression_returnType _⟩
  | struct d => exact everyExpression_parameters _
  | packageReference keyword name | packageUse keyword name =>
    simp [children, belowMember]

theorem parseMembers_everyExpression (hread : HoldsOfRead holds) {tokens : List Token}
    {members : List Member} (h : parseMembers tokens = .ok members) :
    ∀ m ∈ members, EveryExpression holds (.member m) := by
  induction members generalizing tokens with
  | nil => simp
  | cons member others ih =>
    obtain ⟨_, hfirst, hothers⟩ := parseMembers_cons_iff.1 h
    exact List.forall_mem_cons.2 ⟨parseMember_everyExpression hread hfirst, ih hothers⟩

/-- What all expressions have that `parseExpression` reads, all expressions in a program have. -/
theorem parseProgram_everyExpression (hread : HoldsOfRead holds) {tokens : List Token}
    {members : List Member} (h : parseProgram tokens = .ok members) :
    ∀ m ∈ members, EveryExpression holds (.member m) := by
  unfold parseProgram at h
  split at h
  · next hmembers =>
    cases h
    exact parseMembers_everyExpression hread hmembers
  · cases h

end

end TodLang
