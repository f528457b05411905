import TodLang.Proofs.Grammar.Everywhere
import TodLang.Proofs.Grammar.InsertionProgram
import TodLang.Proofs.Grammar.Stability
import TodLang.Proofs.Grammar.Stops
/-!
A semicolon may be written behind every statement. Where a statement of a program ends, at any
depth, and no semicolon comes next, one can be put in: the program is read with the same members
at the same places. Every statement in a program ends somewhere in this sense, but for the bodies of
functions (`ProgramSpelling.hasEnd`). For each place the readers are followed to it. What they read
in front of it they read again, and they stop where they stopped before; the statement that ends at
the place then takes the semicolon, or one inside it does that ends there as well.
-/

namespace TodLang

/-! ### Where statements end -/

/-- Some tokens are those of a part up to where a statement in it ends. The semicolon of that
statement is not among them. -/
inductive EndsStatement : StatementPart → List Token → Prop
  | whole {s : Statement} {tokens : List Token} (h : SpellsStatement (.bare s) tokens) :
      EndsStatement (.statement s) tokens
  | inside {s : Statement} {front : List Token} (h : EndsStatement (.bare s) front) :
      EndsStatement (.statement s) front
  | block {opening closing : Span} {ss : List Statement} {opened front : List Token}
      (hopening : Marks (.sign .lbrace) opening opened) (h : EndsStatement (.statements ss) front) :
      EndsStatement (.bare (.block opening ss closing)) (opened ++ front)
  | ifThen {keyword : Span} {condition : Expression} {body : Statement}
      {word front back : List Token} (hkeyword : Marks (.keyword .ifWord) keyword word)
      (hcondition : ConditionSpelling condition front)
      (h : EndsStatement (.statement body) back) :
      EndsStatement (.bare (.ifThen keyword condition body)) (word ++ front ++ back)
  | body {keyword elseKeyword : Span} {condition : Expression} {body alternative : Statement}
      {word front back : List Token} (hkeyword : Marks (.keyword .ifWord) keyword word)
      (hcondition : ConditionSpelling condition front)
      (h : EndsStatement (.statement body) back) :
      EndsStatement (.bare (.ifElse keyword condition body elseKeyword alternative))
        (word ++ front ++ back)
  | alternative {keyword elseKeyword : Span} {condition : Expression} {body alternative : Statement}
      {word front middle otherwise back : List Token}
      (hkeyword : Marks (.keyword .ifWord) keyword word)
      (hcondition : ConditionSpelling condition front)
      (hbody : SpellsStatement (.statement body) middle)
      (helse : Marks (.keyword .elseWord) elseKeyword otherwise)
      (h : EndsStatement (.statement alternative) back) :
      EndsStatement (.bare (.ifElse keyword condition body elseKeyword alternative))
        (word ++ front ++ middle ++ otherwise ++ back)
  | step {keyword : Span} {init : VariableDeclaration} {condition : Expression}
      {step body : Statement} {word opened front first middle second back : List Token}
      (hkeyword : Marks (.keyword .forWord) keyword word) (hopening : Fixed (.sign .lparen) opened)
      (hinit : DeclarationSpelling init front) (hfirst : Fixed (.sign .semicolon) first)
      (hcondition : ExpressionSpelling condition middle)
      (hsecond : Fixed (.sign .semicolon) second) (h : EndsStatement (.statement step) back) :
      EndsStatement (.bare (.for keyword init condition step body))
        (word ++ opened ++ front ++ first ++ middle ++ second ++ back)
  | for {keyword : Span} {init : VariableDeclaration} {condition : Expression}
      {step body : Statement}
      {word opened front first middle second inside closed back : List Token}
      (hkeyword : Marks (.keyword .forWord) keyword word) (hopening : Fixed (.sign .lparen) opened)
      (hinit : DeclarationSpelling init front) (hfirst : Fixed (.sign .semicolon) first)
      (hcondition : ExpressionSpelling condition middle)
      (hsecond : Fixed (.sign .semicolon) second)
      (hstep : SpellsStatement (.statement step) inside) (hclosing : Fixed (.sign .rparen) closed)
      (h : EndsStatement (.statement body) back) :
      EndsStatement (.bare (.for keyword init condition step body))
        (word ++ opened ++ front ++ first ++ middle ++ second ++ inside ++ closed ++ back)
  | while {keyword : Span} {condition : Expression} {body : Statement}
      {word front back : List Token} (hkeyword : Marks (.keyword .whileWord) keyword word)
      (hcondition : ConditionSpelling condition front)
      (h : EndsStatement (.statement body) back) :
      EndsStatement (.bare (.while keyword condition body)) (word ++ front ++ back)
  | first {s : Statement} {others : List Statement} {front : List Token}
      (h : EndsStatement (.statement s) front) : EndsStatement (.statements (s :: others)) front
  | later {s : Statement} {others : List Statement} {front back : List Token}
      (hfirst : SpellsStatement (.statement s) front)
      (h : EndsStatement (.statements others) back) :
      EndsStatement (.statements (s :: others)) (front ++ back)

/-- Some tokens are those of a member up to where a statement in it ends. The body of a function
is no statement, but those in it are. -/
inductive EndsMember : Member → List Token → Prop
  | statement {s : Statement} {front : List Token} (h : EndsStatement (.statement s) front) :
      EndsMember (.statement s) front
  | function {visibility : Option Span} {keyword closing opening behind : Span} {name : Ident}
      {parameters : List Parameter} {returnType : Option TypeClause} {ss : List Statement}
      {front word middle list clause opened back : List Token}
      (hvisibility : Optionally (Marks (.keyword .setWord)) visibility front)
      (hkeyword : Marks (.keyword .fnWord) keyword word) (hname : NameSpelling name middle)
      (hparameters : ParameterListSpelling (parameters, closing) list)
      (hreturn : Optionally TypeSpelling returnType clause)
      (hopening : Marks (.sign .lbrace) opening opened) (h : EndsStatement (.statements ss) back) :
      EndsMember (.function ⟨visibility, keyword, name, parameters, returnType,
        ⟨opening, ss, behind⟩⟩) (front ++ word ++ middle ++ list ++ clause ++ opened ++ back)

/-- Some tokens are those of a program up to where a statement in it ends. -/
inductive EndsProgram : List Member → List Token → Prop
  | first {member : Member} {others : List Member} {front : List Token}
      (h : EndsMember member front) : EndsProgram (member :: others) front
  | later {member : Member} {others : List Member} {front back : List Token}
      (hfirst : MemberSpelling member front) (h : EndsProgram others back) :
      EndsProgram (member :: others) (front ++ back)

section

variable {front : List Token}

theorem EndsStatement.opens {part : StatementPart} (h : EndsStatement part front) :
    Opens front := by
  induction h with
  | whole h => exact h.opens (by simp)
  | inside _ ih | first _ ih => exact ih
  | block h _ _ => exact (h.fixed.opens (by simp)).append _
  | ifThen h _ _ _ | body h _ _ _ | alternative h _ _ _ _ _ | step h _ _ _ _ _ _ _
  | «for» h _ _ _ _ _ _ _ _ _ | «while» h _ _ _ =>
    simp only [List.append_assoc]
    exact (h.fixed.opens (by simp)).append _
  | later h _ _ => exact (h.opens (by simp)).append _

theorem opens_function {visibility : Option Span} {keyword : Span} {word : List Token}
    (hvisibility : Optionally (Marks (.keyword .setWord)) visibility front)
    (hkeyword : Marks (.keyword .fnWord) keyword word) (back : List Token) :
    Opens (front ++ (word ++ back)) := by
  cases hvisibility with
  | missing => exact (hkeyword.fixed.opens (by simp)).append _
  | present hword => exact (hword.fixed.opens (by simp)).append _

theorem EndsMember.opens {member : Member} (h : EndsMember member front) : Opens front := by
  cases h with
  | statement h => exact h.opens
  | function hvisibility hkeyword _ _ _ _ _ =>
    simp only [List.append_assoc]
    exact opens_function hvisibility hkeyword _

theorem MemberSpelling.opens {member : Member} (h : MemberSpelling member front) :
    Opens front := by
  cases h with
  | statement h => exact SpellsStatement.opens h (by simp)
  | function h =>
    obtain ⟨hvisibility, hkeyword, -, -, -, -⟩ := h
    simp only [List.append_assoc]
    exact opens_function hvisibility hkeyword _
  | external h _ _ _ _ _ | struct h _ _ _ _ _ | packageReference h _ _ | packageUse h _ _ =>
    simp only [List.append_assoc]
    exact (h.fixed.opens (by simp)).append _

theorem EndsProgram.opens {members : List Member} (h : EndsProgram members front) :
    Opens front := by
  cases h with
  | first h => exact h.opens
  | later h _ => exact h.opens.append _

theorem EndsStatement.roled {part : StatementPart} (h : EndsStatement part front) :
    Roled front := by
  induction h with
  | whole h => exact h.roled
  | inside _ ih | first _ ih => exact ih
  | block h _ ih => simp [h.roled rfl, ih]
  | ifThen h hcondition _ ih | body h hcondition _ ih | «while» h hcondition _ ih =>
    simp [h.roled rfl, hcondition.roled, ih]
  | alternative h hcondition hbody helse _ ih =>
    simp [h.roled rfl, hcondition.roled, hbody.roled, helse.roled rfl, ih]
  | step h hopening hinit hfirst hcondition hsecond _ ih =>
    simp [h.roled rfl, hopening.roled rfl, hinit.roled, hfirst.roled rfl, hcondition.roled,
      hsecond.roled rfl, ih]
  | «for» h hopening hinit hfirst hcondition hsecond hstep hclosing _ ih =>
    simp [h.roled rfl, hopening.roled rfl, hinit.roled, hfirst.roled rfl, hcondition.roled,
      hsecond.roled rfl, hstep.roled, hclosing.roled rfl, ih]
  | later h _ ih => simp [h.roled, ih]

theorem EndsMember.roled {member : Member} (h : EndsMember member front) : Roled front := by
  cases h with
  | statement h => exact h.roled
  | function hvisibility hkeyword hname hparameters hreturn hopening h =>
    have hvisible := hvisibility.roled fun _ _ h => h.roled rfl
    have hclause := hreturn.roled fun _ _ => TypeSpelling.roled
    simp [hvisible, hkeyword.roled rfl, hname.roled, hparameters.roled, hclause,
      hopening.roled rfl, h.roled]

theorem EndsProgram.roled {members : List Member} (h : EndsProgram members front) :
    Roled front := by
  induction h with
  | first h => exact h.roled
  | later h _ ih => simp [h.roled, ih]

end

/-! ### Every statement ends somewhere -/

/-- Among some tokens are those of a statement, and a property holds of what goes up to their
end. -/
def HasEnd (ends : List Token → Prop) (s : Statement) (tokens : List Token) : Prop :=
  ∃ front own rest, tokens = front ++ own ++ rest ∧ SpellsStatement (.bare s) own ∧
    ends (front ++ own)

/-- However a node is spelled that is a statement or its part from `else` on, it has an end of a
certain statement in it. No other node but a member has a statement below it. -/
def Node.HasEndOf (s : Statement) : Node → Prop
  | member _ => True
  | statement whole | alternative _ whole => ∀ tokens, SpellsStatement (.statement whole) tokens →
      HasEnd (EndsStatement (.statement whole)) s tokens
  | _ => False

section

variable {s : Statement} {ends ends' : List Token → Prop} {before middle tokens : List Token}

theorem HasEnd.within (h : HasEnd ends s middle) (behind : List Token)
    (htokens : tokens = before ++ middle ++ behind)
    (hends : ∀ front, ends front → ends' (before ++ front)) : HasEnd ends' s tokens := by
  obtain ⟨front, own, rest, rfl, hown, hend⟩ := h
  refine ⟨before ++ front, own, rest ++ behind, ?_, hown, ?_⟩
  · simp [htokens]
  · simpa using hends _ hend

theorem HasEnd.last (h : HasEnd ends s middle)
    (hends : ∀ front, ends front → ends' (before ++ front)) : HasEnd ends' s (before ++ middle) :=
  h.within [] (List.append_nil _).symm hends

theorem HasEnd.first (h : HasEnd ends s middle) (behind : List Token)
    (hends : ∀ front, ends front → ends' front) : HasEnd ends' s (middle ++ behind) := by
  obtain ⟨front, own, rest, rfl, hown, hend⟩ := h
  exact ⟨front, own, rest ++ behind, List.append_assoc _ _ _, hown, hends _ hend⟩

theorem Node.HasEndOf.statement {whole : Statement}
    (h : ∀ tokens, SpellsStatement (.bare whole) tokens →
      HasEnd (EndsStatement (.bare whole)) s tokens) :
    Node.HasEndOf s (.statement whole) := by
  rintro _ ⟨hbare, hsemicolon⟩
  exact (h _ hbare).first _ fun _ h => .inside h

theorem SpellsStatement.hasEnd_of_mem {whole : Statement} {ss : List Statement}
    (h : SpellsStatement (.statements ss) tokens) (hmem : whole ∈ ss)
    (hwhole : Node.HasEndOf s (.statement whole)) :
    HasEnd (EndsStatement (.statements ss)) s tokens := by
  induction ss generalizing tokens with
  | nil => cases hmem
  | cons first others ih =>
    cases h with
    | cons hfirst hothers =>
      rcases List.mem_cons.1 hmem with rfl | hmem
      · exact (hwhole _ hfirst).first _ fun _ h => .first h
      · exact (ih hothers hmem).last fun _ h => .later hfirst h

/-- A statement in a node has an end there. The initial declaration of a loop is no statement. -/
theorem Node.Within.hasEndOf {node : Node} (h : Node.Within (.statement s) node) :
    Node.HasEndOf s node := by
  induction h with
  | self =>
    rintro _ ⟨hbare, hsemicolon⟩
    exact ⟨[], _, _, rfl, hbare, .whole hbare⟩
  | @under child node hchild _ ih =>
    cases node with
    | member _ => trivial
    | alternative _ whole =>
      obtain rfl := List.mem_singleton.1 hchild
      exact ih
    | declaration d =>
      rcases List.mem_append.1 hchild with hchild | hchild
      all_goals
        obtain ⟨part, -, rfl⟩ := Option.map_eq_some_iff.1 (Option.mem_toList.1 hchild)
        exact ih
    | parameter _ =>
      obtain rfl := List.mem_singleton.1 hchild
      exact ih
    | type _ =>
      obtain ⟨part, -, rfl⟩ := List.mem_map.1 hchild
      exact ih
    | expression e =>
      obtain ⟨types, hbelow⟩ := belowExpression_eq e
      rw [children, hbelow, List.mem_append, List.mem_map, List.mem_map] at hchild
      rcases hchild with ⟨part, -, rfl⟩ | ⟨part, -, rfl⟩ <;> exact ih
    | statement whole =>
      refine Node.HasEndOf.statement fun tokens htokens => ?_
      cases htokens with
      | block hopening hinside _ =>
        obtain ⟨part, hpart, rfl⟩ := List.mem_map.1 hchild
        exact (hinside.hasEnd_of_mem hpart ih).within _ rfl fun _ h => .block hopening h
      | ifThen hkeyword hcondition hbody =>
        simp only [children, belowStatement, List.mem_cons, List.not_mem_nil, or_false] at hchild
        rcases hchild with rfl | rfl
        · exact ih.elim
        · exact (ih _ hbody).last fun _ h => .ifThen hkeyword hcondition h
      | ifElse hkeyword hcondition hbody helse halternative =>
        simp only [children, belowStatement, List.mem_cons, List.not_mem_nil, or_false] at hchild
        rcases hchild with rfl | rfl | rfl
        · exact ih.elim
        · exact (ih _ hbody).within _ (List.append_assoc _ _ _) fun _ h =>
            .body hkeyword hcondition h
        · exact (ih _ halternative).last fun _ h =>
            .alternative hkeyword hcondition hbody helse h
      | «for» hkeyword hopening hinit hfirst hcondition hsecond hstep hclosing hbody =>
        simp only [children, belowStatement, List.mem_cons, List.not_mem_nil, or_false] at hchild
        rcases hchild with rfl | rfl | rfl | rfl
        · exact ih.elim
        · exact ih.elim
        · exact (ih _ hstep).within _ (List.append_assoc _ _ _) fun _ h =>
            .step hkeyword hopening hinit hfirst hcondition hsecond h
        · exact (ih _ hbody).last fun _ h =>
            .for hkeyword hopening hinit hfirst hcondition hsecond hstep hclosing h
      | «while» hkeyword hcondition hbody =>
        simp only [children, belowStatement, List.mem_cons, List.not_mem_nil, or_false] at hchild
        rcases hchild with rfl | rfl
        · exact ih.elim
        · exact (ih _ hbody).last fun _ h => .while hkeyword hcondition h
      | declaration _ | expression _ =>
        obtain rfl := List.mem_singleton.1 hchild
        exact ih.elim
      | «return» _ _ =>
        obtain ⟨part, -, rfl⟩ := Option.map_eq_some_iff.1 (Option.mem_toList.1 hchild)
        exact ih.elim
      | «break» _ | «continue» _ => cases hchild

theorem Node.not_hasEndOf_signature {parameters : List Parameter} {type : Option TypeClause}
    {child : Node} (hchild : child ∈ parameters.map parameter ++ (type.map Node.type).toList) :
    ¬Node.HasEndOf s child := by
  rcases List.mem_append.1 hchild with hchild | hchild
  · obtain ⟨part, -, rfl⟩ := List.mem_map.1 hchild
    exact id
  · obtain ⟨part, -, rfl⟩ := Option.map_eq_some_iff.1 (Option.mem_toList.1 hchild)
    exact id

/-- A statement in a member has an end there, unless it is the body of a function. -/
theorem MemberSpelling.hasEnd {member : Member} (h : MemberSpelling member tokens)
    (hwithin : Node.Within (.statement s) (.member member))
    (hbody : ∀ f, member = .function f → s ≠ f.body.toStatement) :
    HasEnd (EndsMember member) s tokens := by
  cases hwithin with
  | under hchild hinner =>
    have hend := hinner.hasEndOf
    cases h with
    | statement h =>
      obtain rfl := List.mem_singleton.1 hchild
      simpa using (hend _ h).first [] fun _ h => EndsMember.statement h
    | function h =>
      obtain ⟨hvisibility, hkeyword, hname, hparameters, hreturn, hblock⟩ := h
      obtain @⟨_, _, _, _, _, closed, hopening, hinside, -⟩ := hblock
      rcases List.mem_append.1 hchild with hchild | hchild
      · exact (Node.not_hasEndOf_signature hchild hend).elim
      · obtain rfl := List.mem_singleton.1 hchild
        cases hinner with
        | self => exact absurd rfl (hbody _ rfl)
        | under hchild hinner =>
          obtain ⟨part, hpart, rfl⟩ := List.mem_map.1 hchild
          have hstatements := hinside.hasEnd_of_mem hpart hinner.hasEndOf
          exact hstatements.within closed (by simp) fun _ h =>
            .function hvisibility hkeyword hname hparameters hreturn hopening h
    | external _ _ _ _ _ _ => exact (Node.not_hasEndOf_signature hchild hend).elim
    | struct _ _ _ _ _ _ =>
      obtain ⟨part, -, rfl⟩ := List.mem_map.1 hchild
      exact hend.elim
    | packageReference _ _ _ | packageUse _ _ _ => cases hchild

/-- A statement in a program has an end there, unless it is the body of a function. -/
theorem ProgramSpelling.hasEnd {members : List Member} {member : Member}
    (h : ProgramSpelling members tokens) (hmember : member ∈ members)
    (hwithin : Node.Within (.statement s) (.member member))
    (hbody : ∀ f, member = .function f → s ≠ f.body.toStatement) :
    HasEnd (EndsProgram members) s tokens := by
  induction h with
  | nil => cases hmember
  | cons hfirst _ ih =>
    rcases List.mem_cons.1 hmember with rfl | hmember
    · exact (hfirst.hasEnd hwithin hbody).first _ fun _ h => .first h
    · exact (ih hmember).last fun _ h => .later hfirst h

end

/-! ### A semicolon behind a statement -/

section

variable {t : Token} {r ts us rest : List Token}

/-- A semicolon put in where one may stand is taken, and nothing else is. -/
theorem Inserted.takeSemicolon (ht : t.kind = .sign .semicolon) (h : Inserted t r r us)
    (hr : nextKind r ≠ some (.sign .semicolon)) :
    ∃ found, ReadsAs (takeOptional (.sign .semicolon)) us found r := by
  rcases h with rfl | ⟨front, heq, rfl⟩
  · exact ⟨none, takeOptional_iff.2 ⟨hr, rfl⟩⟩
  · rw [List.self_eq_append_left.1 heq]
    exact ⟨some t, takeOptional_iff.2 ⟨rfl, ht⟩⟩

/-- A reader that has the tokens of a value, perhaps with a semicolon put in behind the first of
them, gives the value and leaves the same tokens as without it. -/
def Absorbs {α : Type} (t : Token) (front : List Token)
    (reader : (tokens : List Token) → Parse α tokens.length) (value : α) : Prop :=
  ∀ r us y, nextKind r ≠ some (.sign .semicolon) → Inserted t r (front ++ r) us →
    ReadsAs reader (front ++ r) value y → ReadsAs reader us value y

def StatementPart.Absorbs (t : Token) (front : List Token) : StatementPart → Prop
  | statement s => TodLang.Absorbs t front parseStatement s
  | bare s => TodLang.Absorbs t front parseBareStatement s
  | statements ss => ∀ closing, TodLang.Absorbs t front parseStatements (ss, closing)

/-- Behind a statement the readers take a semicolon in. The induction is on the way to the
statement: what is in front of it in a part is read again and leaves what it left before, but for
the semicolon, and what is behind it is read from the same tokens. -/
theorem EndsStatement.absorbs (ht : t.kind = .sign .semicolon) {part : StatementPart}
    {front : List Token} (h : EndsStatement part front) : part.Absorbs t front := by
  induction h with
  | whole h =>
    intro r us y hr hus hp
    obtain ⟨y₁, _, hbare, hsemicolon⟩ := parseStatement_iff.1 hp
    -- A statement inside this one may have taken the semicolon; if none has, this one takes it.
    obtain rfl := StopsBehind.rest (SpellsStatement.stops h) hr hbare
    obtain rfl := takeSemicolon_rest .missing hr hsemicolon
    obtain ⟨u₁, hbare, h₁⟩ := parseBareStatement_inserted ht hus hbare (Nat.le_refl _)
    obtain ⟨found, hsemicolon⟩ := h₁.takeSemicolon ht hr
    exact parseStatement_iff.2 ⟨u₁, found, hbare, hsemicolon⟩
  | inside _ ih =>
    intro r us y hr hus hp
    obtain ⟨y₁, found, hbare, hsemicolon⟩ := parseStatement_iff.1 hp
    exact parseStatement_iff.2 ⟨y₁, found, ih r us y₁ hr hus hbare, hsemicolon⟩
  | block hopening _ ih =>
    intro r us y hr hus hp
    rw [List.append_assoc] at hus hp
    obtain ⟨r₁, hbrace, hstatements⟩ := parseBareStatement_iff.1 hp
    obtain rfl := takeSign_rest hopening.fixed hbrace
    obtain ⟨u₁, hbrace, h₁⟩ := takeSign_inserted hus hbrace (by simp)
    exact parseBareStatement_iff.2 ⟨u₁, hbrace, ih _ r u₁ y hr h₁ hstatements⟩
  | ifThen hkeyword hcondition _ ih =>
    intro r us y hr hus hp
    simp only [List.append_assoc] at hus hp
    obtain ⟨r₁, hhead, hbody, helse⟩ := parseBareStatement_iff.1 hp
    obtain rfl := hhead.rest_eq hkeyword hcondition
    obtain ⟨u₁, hhead, h₁⟩ := hhead.inserted ht hus (by simp)
    exact parseBareStatement_iff.2 ⟨u₁, hhead, ih r u₁ y hr h₁ hbody, helse⟩
  | body hkeyword hcondition _ ih =>
    intro r us y hr hus hp
    simp only [List.append_assoc] at hus hp
    obtain ⟨r₁, r₂, r₃, hhead, hbody, helse, halternative⟩ := parseBareStatement_iff.1 hp
    obtain rfl := hhead.rest_eq hkeyword hcondition
    obtain ⟨u₁, hhead, h₁⟩ := hhead.inserted ht hus (by simp)
    -- The body leaves what it left before, so from `else` on the tokens are the same.
    have hbody := ih r u₁ r₂ hr h₁ hbody
    exact parseBareStatement_iff.2 ⟨u₁, r₂, r₃, hhead, hbody, helse, halternative⟩
  | alternative hkeyword hcondition hmiddle hotherwise _ ih =>
    intro r us y hr hus hp
    simp only [List.append_assoc] at hus hp
    obtain ⟨r₁, r₂, r₃, hhead, hbody, helse, halternative⟩ := parseBareStatement_iff.1 hp
    obtain rfl := hhead.rest_eq hkeyword hcondition
    obtain rfl :=
      hmiddle.rest_eq ((hotherwise.fixed.opens (by simp)).append _).nextKind_ne hbody
    obtain rfl := takeKeyword_rest hotherwise.fixed helse
    obtain ⟨u₁, hhead, h₁⟩ := hhead.inserted ht hus (by simp; omega)
    obtain ⟨u₂, hbody, h₂⟩ := parseStatement_inserted ht h₁ hbody (by simp; omega)
    obtain ⟨u₃, helse, h₃⟩ := takeKeyword_inserted h₂ helse (by simp)
    have halternative := ih r u₃ y hr h₃ halternative
    exact parseBareStatement_iff.2 ⟨u₁, u₂, u₃, hhead, hbody, helse, halternative⟩
  | step hkeyword hopening hinit hfirst hcondition hsecond _ ih =>
    intro r us y hr hus hp
    simp only [List.append_assoc] at hus hp
    obtain ⟨r₁, r₂, r₃, closing, hhead, hstep, hparen, hbody⟩ := parseBareStatement_iff.1 hp
    obtain rfl := hhead.rest_eq hkeyword hopening hinit hfirst hcondition hsecond
    obtain ⟨u₁, hhead, h₁⟩ := hhead.inserted ht hus (by simp)
    have hstep := ih r u₁ r₂ hr h₁ hstep
    exact parseBareStatement_iff.2 ⟨u₁, r₂, r₃, closing, hhead, hstep, hparen, hbody⟩
  | «for» hkeyword hopening hinit hfirst hcondition hsecond hinside hclosing _ ih =>
    intro r us y hr hus hp
    simp only [List.append_assoc] at hus hp
    obtain ⟨r₁, r₂, r₃, closing, hhead, hstep, hparen, hbody⟩ := parseBareStatement_iff.1 hp
    obtain rfl := hhead.rest_eq hkeyword hopening hinit hfirst hcondition hsecond
    obtain rfl := hinside.rest_eq ((hclosing.opens (by simp)).append _).nextKind_ne hstep
    obtain rfl := takeSign_rest hclosing hparen
    obtain ⟨u₁, hhead, h₁⟩ := hhead.inserted ht hus (by simp; omega)
    obtain ⟨u₂, hstep, h₂⟩ := parseStatement_inserted ht h₁ hstep (by simp; omega)
    obtain ⟨u₃, hparen, h₃⟩ := takeSign_inserted h₂ hparen (by simp)
    have hbody := ih r u₃ y hr h₃ hbody
    exact parseBareStatement_iff.2 ⟨u₁, u₂, u₃, closing, hhead, hstep, hparen, hbody⟩
  | «while» hkeyword hcondition _ ih =>
    intro r us y hr hus hp
    simp only [List.append_assoc] at hus hp
    obtain ⟨r₁, hhead, hbody⟩ := parseBareStatement_iff.1 hp
    obtain rfl := hhead.rest_eq hkeyword hcondition
    obtain ⟨u₁, hhead, h₁⟩ := hhead.inserted ht hus (by simp)
    exact parseBareStatement_iff.2 ⟨u₁, hhead, ih r u₁ y hr h₁ hbody⟩
  | first _ ih =>
    intro closing r us y hr hus hp
    obtain ⟨hbrace, y₁, hfirst, hothers⟩ := parseStatements_iff.1 hp
    have hbrace := hus.nextKind_ne (by simp) (by simp [ht]) hbrace
    have hfirst := ih r us y₁ hr hus hfirst
    exact parseStatements_iff.2 ⟨hbrace, y₁, hfirst, hothers⟩
  | later hspelling hback ih =>
    intro closing r us y hr hus hp
    rw [List.append_assoc] at hus hp
    obtain ⟨hbrace, r₁, hfirst, hothers⟩ := parseStatements_iff.1 hp
    have hbrace := hus.nextKind_ne (by simp; omega) (by simp [ht]) hbrace
    -- What comes next opens with no semicolon, so the statement in front stops right before it.
    obtain rfl := hspelling.rest_eq (hback.opens.append r).nextKind_ne hfirst
    obtain ⟨u₁, hfirst, h₁⟩ := parseStatement_inserted ht hus hfirst (by simp)
    have hothers := ih closing r u₁ y hr h₁ hothers
    exact parseStatements_iff.2 ⟨hbrace, u₁, hfirst, hothers⟩

end

/-! ### A semicolon in a program -/

section

variable {t : Token} {r ts us rest front : List Token}

theorem Opens.length_pos (h : Opens front) : 0 < front.length := by
  obtain ⟨kind, hkind, -⟩ := h
  cases front with
  | nil => cases hkind
  | cons first others => exact Nat.succ_pos _

/-- In a member, too, the readers take a semicolon in behind a statement. -/
theorem EndsMember.absorbs (ht : t.kind = .sign .semicolon) {member : Member}
    (h : EndsMember member front) : Absorbs t front parseMember member := by
  intro r us y hr hus hp
  have hreading := parseMember_iff.1 hp
  cases h with
  | statement h =>
    obtain ⟨hahead, hstatement⟩ := hreading
    have hlt : r.length < (front ++ r).length := by
      have := h.opens.length_pos
      rw [List.length_append]
      omega
    have hstatement := h.absorbs ht r us y hr hus hstatement
    exact parseMember_iff.2 ⟨hahead.inserted ht hus hlt, hstatement⟩
  | function hvisibility hkeyword hname hparameters hreturn hopening h =>
    simp only [List.append_assoc] at hus hreading
    obtain ⟨r₁, r₂, closing, hvisible, hsignature, hblock⟩ := hreading
    obtain rfl := hvisible.rest_eq hvisibility
    obtain rfl := hsignature.rest_eq hkeyword.fixed hname hparameters hreturn
    obtain ⟨r₃, hbrace, hstatements⟩ := parseBlock_iff.1 hblock
    obtain rfl := takeSign_rest hopening.fixed hbrace
    have hlt := hbrace.shorter
    simp only [List.length_append] at hlt
    obtain ⟨u₁, hvisible, h₁⟩ := hvisible.inserted hus (by simp; omega)
    obtain ⟨u₂, hsignature, h₂⟩ := hsignature.inserted ht h₁ (by simp; omega)
    obtain ⟨u₃, hbrace, h₃⟩ := takeSign_inserted h₂ hbrace (by simp)
    have hblock := parseBlock_iff.2 ⟨u₃, hbrace, h.absorbs ht _ r u₃ y hr h₃ hstatements⟩
    exact parseMember_iff.2 ⟨u₁, u₂, closing, hvisible, hsignature, hblock⟩

theorem EndsProgram.parseMembers_inserted (ht : t.kind = .sign .semicolon) {members : List Member}
    (h : EndsProgram members front) (hr : nextKind r ≠ some (.sign .semicolon))
    (hus : Inserted t r (front ++ r) us) (hp : parseMembers (front ++ r) = .ok members) :
    parseMembers us = .ok members := by
  induction h generalizing us with
  | first h =>
    obtain ⟨r₁, hfirst, hothers⟩ := parseMembers_cons_iff.1 hp
    exact parseMembers_cons_iff.2 ⟨r₁, h.absorbs ht r us r₁ hr hus hfirst, hothers⟩
  | later hspelling h ih =>
    rw [List.append_assoc] at hus hp
    obtain ⟨r₁, hfirst, hothers⟩ := parseMembers_cons_iff.1 hp
    obtain rfl := hspelling.rest_eq (h.opens.append r).nextKind_ne hfirst
    obtain ⟨u₁, hfirst, h₁⟩ := parseMember_inserted ht hus hfirst (by simp)
    exact parseMembers_cons_iff.2 ⟨u₁, hfirst, ih h₁ hothers⟩

theorem beforeEnding_append_of_roled (h : Roled front) (rest : List Token) :
    beforeEnding (front ++ rest) = front ++ beforeEnding rest := by
  refine List.takeWhile_append_of_pos fun t ht => ?_
  have hrole := h t ht
  cases hkind : t.kind <;> simp_all [Token.isEnding, TokenKind.hasRole]

theorem nextKind_beforeEnding_ne (h : nextKind rest ≠ some (.sign .semicolon)) :
    nextKind (beforeEnding rest) ≠ some (.sign .semicolon) := by
  cases rest with
  | nil => simp [beforeEnding, nextKind, kindAt]
  | cons first others =>
    rw [beforeEnding, List.takeWhile_cons]
    split
    · exact h
    · simp [nextKind, kindAt]

/-- Where a statement of a program ends and no semicolon comes next, one can be put in: the program
is read with the same members, at the same places. -/
theorem parseProgram_insert_semicolon {members : List Member}
    (h : parseProgram (front ++ rest) = .ok members) (hends : EndsProgram members front)
    (hrest : nextKind rest ≠ some (.sign .semicolon)) (ht : t.kind = .sign .semicolon) :
    parseProgram (front ++ t :: rest) = .ok members := by
  have hput : beforeEnding (t :: rest) = t :: beforeEnding rest :=
    List.takeWhile_cons_of_pos (by simp [Token.isEnding, ht])
  rw [parseProgram_eq_ok, beforeEnding_append_of_roled hends.roled] at h ⊢
  rw [hput]
  exact hends.parseMembers_inserted ht (nextKind_beforeEnding_ne hrest) (.inr ⟨front, rfl, rfl⟩) h

/-- The semicolon behind the first statement of a choice in a function, in front of `else`. -/
theorem parseProgram_insert_semicolon_else :
    let front : List Token :=
      [{ kind := .keyword .fnWord, literal := "fn", span := ⟨1, 0, 2, 1, 1, 1, 3⟩ },
       { kind := .identifier, literal := "f", span := ⟨1, 3, 4, 1, 4, 1, 5⟩ },
       { kind := .sign .lparen, literal := "(", span := ⟨1, 4, 5, 1, 5, 1, 6⟩ },
       { kind := .sign .rparen, literal := ")", span := ⟨1, 5, 6, 1, 6, 1, 7⟩ },
       { kind := .sign .lbrace, literal := "\x7b", span := ⟨1, 7, 8, 1, 8, 1, 9⟩ },
       { kind := .keyword .ifWord, literal := "if", span := ⟨1, 9, 11, 1, 10, 1, 12⟩ },
       { kind := .sign .lparen, literal := "(", span := ⟨1, 12, 13, 1, 13, 1, 14⟩ },
       { kind := .identifier, literal := "a", span := ⟨1, 13, 14, 1, 14, 1, 15⟩ },
       { kind := .sign .rparen, literal := ")", span := ⟨1, 14, 15, 1, 15, 1, 16⟩ },
       { kind := .identifier, literal := "b", span := ⟨1, 16, 17, 1, 17, 1, 18⟩ }]
    let rest : List Token :=
      [{ kind := .keyword .elseWord, literal := "else", span := ⟨1, 18, 22, 1, 19, 1, 23⟩ },
       { kind := .identifier, literal := "c", span := ⟨1, 23, 24, 1, 24, 1, 25⟩ },
       { kind := .sign .rbrace, literal := "\x7d", span := ⟨1, 25, 26, 1, 26, 1, 27⟩ },
       Token.ending ⟨1, 26, 26, 1, 27, 1, 27⟩]
    let semicolon : Token :=
      { kind := .sign .semicolon, literal := ";", span := ⟨1, 17, 18, 1, 18, 1, 19⟩ }
    let members : List Member :=
      [.function ⟨none, ⟨1, 0, 2, 1, 1, 1, 3⟩, ⟨"f", ⟨1, 3, 4, 1, 4, 1, 5⟩⟩, [], none,
        ⟨⟨1, 7, 8, 1, 8, 1, 9⟩,
          [.ifElse ⟨1, 9, 11, 1, 10, 1, 12⟩ (.name ⟨"a", ⟨1, 13, 14, 1, 14, 1, 15⟩⟩)
          (.expression (.name ⟨"b", ⟨1, 16, 17, 1, 17, 1, 18⟩⟩)) ⟨1, 18, 22, 1, 19, 1, 23⟩
          (.expression (.name ⟨"c", ⟨1, 23, 24, 1, 24, 1, 25⟩⟩))],
        ⟨1, 25, 26, 1, 26, 1, 27⟩⟩⟩]
    parseProgram (front ++ rest) = .ok members ∧ EndsProgram members front ∧
      nextKind rest ≠ some (.sign .semicolon) ∧
      parseProgram (front ++ semicolon :: rest) = .ok members := by
  intro front rest semicolon members
  have hparse : parseProgram (front ++ rest) = .ok members := by
    cbv
  have hname {t : Token} (ht : t.kind = .identifier) : ExpressionSpelling (.name t.ident) [t] :=
    .operation (.operand (.accessed (.primary (.name (.token ht)))))
  have hends : EndsProgram members front := by
    have hcondition := ConditionSpelling.intro (.token (t := front[6]) rfl)
      (hname (t := front[7]) rfl) (.token (t := front[8]) rfl)
    have hbody := EndsStatement.whole (.expression (hname (t := front[9]) rfl))
    have hlist := ParameterListSpelling.none (.token (t := front[2]) rfl)
      (.token (t := front[3]) rfl)
    exact .first (.function .missing (.token (t := front[0]) rfl) (.token (t := front[1]) rfl) hlist
      .missing (.token (t := front[4]) rfl)
      (.first (.inside (.body (.token (t := front[5]) rfl) hcondition hbody))))
  have hrest : nextKind rest ≠ some (.sign .semicolon) := by
    decide
  exact ⟨hparse, hends, hrest, parseProgram_insert_semicolon hparse hends hrest rfl⟩

end

end TodLang
