import TodLang.Proofs.Binding.Doubles
/-!
What is declared in the regions of bodies. A statement declares variables in the region that it is
in and in the regions inside of it, and all of them can be read off the tree (`Statement.layers`).
While it is bound, every region comes to hold the first declarations of their names, the regions
inside are kept in the order in which they end, and the other declarations are what is found to be
declared already (`Walk.declares_statement`).
-/

namespace TodLang

/-! ### Declarations -/

/-- What declares a name in a region of a program. -/
inductive Declaration where
  | package (span : Span) (name : Ident)
  /-- A function of a package, where the package is used. -/
  | imported (use : Ident) (function : FunctionSymbol)
  | struct (d : StructDeclaration)
  | function (d : FunctionDeclaration)
  | external (d : ExternalDeclaration)
  | «variable» (d : VariableDeclaration)
  | parameter (p : Parameter)

/-- The name that is declared, at the place that an error about it names. -/
def Declaration.name : Declaration → Ident
  | .package _ name => name
  | .imported use f => ⟨f.name, use.span⟩
  | .struct d => d.name
  | .function d => d.name
  | .external d => d.name
  | .variable d => d.name
  | .parameter p => p.name

/-- A declaration and the symbol that it makes, which has its name. -/
structure Made where
  declaration : Declaration
  symbol : Symbol
  named : symbol.name = declaration.name.name

namespace Made

/-- The name that is declared, at its place. -/
def name (m : Made) : Ident :=
  m.declaration.name

/-- What is declared, and its symbol. -/
def entry (m : Made) : Declaration × Symbol :=
  (m.declaration, m.symbol)

theorem map_named (ms : List Made) :
    (ms.map symbol).map Symbol.name = (ms.map name).map Ident.name := by
  rw [List.map_map, List.map_map]
  exact List.map_congr_left fun m _ => m.named

end Made

/-- What declares a local variable, and its symbol. -/
def VariableSite.entry (site : VariableSite) : Declaration × Symbol :=
  (.variable site.declaration, .localVariable site.symbol)

/-- The region in which given declarations were made, one after another. -/
def Region.ofMade (made : List Made) : Region :=
  .ofDeclared (made.map Made.symbol)

/-! ### Regions inside of regions -/

/-- What belongs to the region that a piece of a program is in, and what belongs to the regions
inside of it, in the order in which they end. -/
structure Layers (α : Type) where
  own : List α
  inner : List (List α)

namespace Layers

variable {α β : Type}

def empty : Layers α :=
  ⟨[], []⟩

def single (a : α) : Layers α :=
  ⟨[a], []⟩

/-- One piece after another in the same region. -/
def append (front back : Layers α) : Layers α :=
  ⟨front.own ++ back.own, front.inner ++ back.inner⟩

instance : Append (Layers α) := ⟨append⟩

/-- A piece in a region of its own, which ends behind all regions inside. -/
def close (l : Layers α) : Layers α :=
  ⟨[], l.inner ++ [l.own]⟩

/-- All regions, the one that the piece is in first. -/
def all (l : Layers α) : List (List α) :=
  l.own :: l.inner

def map (f : α → β) (l : Layers α) : Layers β :=
  ⟨l.own.map f, l.inner.map (List.map f)⟩

/-- Everything in all regions. -/
def flatten (l : Layers α) : List α :=
  l.all.flatten

theorem flatten_append (front back : Layers α) :
    (front ++ back).flatten.Perm (front.flatten ++ back.flatten) := by
  change ((front.own ++ back.own) ++ (front.inner ++ back.inner).flatten).Perm
    ((front.own ++ front.inner.flatten) ++ (back.own ++ back.inner.flatten))
  rw [List.flatten_append, List.append_assoc, List.append_assoc]
  apply List.Perm.append_left
  rw [← List.append_assoc, ← List.append_assoc]
  exact List.perm_append_comm.append_right _

theorem flatten_close (l : Layers α) : l.close.flatten.Perm l.flatten := by
  change (l.inner ++ [l.own]).flatten.Perm (l.own ++ l.inner.flatten)
  rw [List.flatten_append, List.flatten_singleton]
  exact List.perm_append_comm

theorem map_all (f : α → β) (l : Layers α) : (l.map f).all = l.all.map (List.map f) :=
  rfl

theorem map_append (f : α → β) (front back : Layers α) :
    (front ++ back).map f = front.map f ++ back.map f := by
  change Layers.mk ((front.own ++ back.own).map f) ((front.inner ++ back.inner).map _) = _
  rw [List.map_append, List.map_append]
  rfl

theorem map_close (f : α → β) (l : Layers α) : l.close.map f = (l.map f).close := by
  change Layers.mk [] ((l.inner ++ [l.own]).map _) = _
  rw [List.map_append]
  rfl

theorem map_map {γ : Type} (g : β → γ) (f : α → β) (l : Layers α) :
    (l.map f).map g = l.map (g ∘ f) := by
  change Layers.mk ((l.own.map f).map g) ((l.inner.map (List.map f)).map (List.map g)) = _
  rw [List.map_map, List.map_map, List.map_comp_map]
  rfl

/-- The names that are not the first of theirs in their regions, where some names were declared
before in the region that the piece is in. -/
def repeated (before : List Ident) (l : Layers Ident) : List Ident :=
  repeats Ident.name (before.map Ident.name) l.own ++ l.inner.flatMap (repeats Ident.name [])

theorem repeated_nil (l : Layers Ident) :
    l.repeated [] = l.all.flatMap (repeats Ident.name []) :=
  rfl

theorem repeated_append (before : List Ident) (front back : Layers Ident) :
    ((front ++ back).repeated before).Perm
      (front.repeated before ++ back.repeated (before ++ front.own)) := by
  change (repeats Ident.name _ (front.own ++ back.own) ++
    (front.inner ++ back.inner).flatMap _).Perm _
  rw [repeats_append, List.flatMap_append, repeated, repeated, List.map_append, List.append_assoc,
    List.append_assoc]
  apply List.Perm.append_left
  rw [← List.append_assoc, ← List.append_assoc]
  exact List.perm_append_comm.append_right _

theorem repeated_close (before : List Ident) (l : Layers Ident) :
    (l.close.repeated before).Perm (l.repeated []) := by
  change ((l.inner ++ [l.own]).flatMap (repeats Ident.name [])).Perm
    (repeats Ident.name [] l.own ++ l.inner.flatMap (repeats Ident.name []))
  rw [List.flatMap_append, List.flatMap_singleton]
  exact List.perm_append_comm

end Layers

mutual

/-- The declarations of variables in a statement, by regions. Every block, branch and body has a
region of its own, and so has the head of a `for`. -/
def Statement.layers : Statement → Layers Declaration
  | .block _ statements _ => (Statement.layersAll statements).close
  | .declaration d => .single (.variable d)
  | .ifThen _ _ body => body.layers.close
  | .ifElse _ _ body _ alternative => body.layers.close ++ alternative.layers.close
  | .return _ _ => .empty
  | .for _ init _ step body =>
    (Layers.single (Declaration.variable init) ++ step.layers ++ body.layers.close).close
  | .while _ _ body => body.layers.close
  | .break _ => .empty
  | .continue _ => .empty
  | .expression _ => .empty

/-- The declarations of variables in statements one after another. -/
def Statement.layersAll : List Statement → Layers Declaration
  | [] => .empty
  | s :: others => s.layers ++ Statement.layersAll others

end

/-- The declarations of a function: its parameters are in the same region as its body. -/
def FunctionDeclaration.layers (f : FunctionDeclaration) : Layers Declaration :=
  ⟨f.parameters.map .parameter, []⟩ ++ Statement.layersAll f.body.statements

/-- The declarations in the regions of a member. A global variable is declared in the program's
region, and other statements outside of functions have regions of their own. -/
def Member.regions : Member → List (List Declaration)
  | .function f => f.layers.all
  | .statement (.declaration _) => []
  | .statement s => s.layers.all
  | _ => []

namespace Walk

/-- The declaration of a local variable, with its symbol. -/
def localMade (w : Walk) (d : VariableDeclaration) : Made :=
  ⟨.variable d, .localVariable (w.localSite d).symbol, rfl⟩

mutual

/-- The declarations of variables in a statement with their symbols, by regions. -/
def layers (w : Walk) : Statement → Layers Made
  | .block _ statements _ => (w.enter.layersAll statements).close
  | .declaration d => .single (w.localMade d)
  | .ifThen _ condition body => ((w.expression condition).enter.layers body).close
  | .ifElse _ condition body _ alternative =>
    ((w.expression condition).enter.layers body).close ++
      (((w.expression condition).enter.statement body).leave.enter.layers alternative).close
  | .return _ _ => .empty
  | .for _ init condition step body =>
    let head := (w.enter.localVariable init).expression condition
    (Layers.single (w.enter.localMade init) ++ head.layers step ++
      ((head.statement step).enter.layers body).close).close
  | .while _ condition body => ((w.expression condition).enter.layers body).close
  | .break _ => .empty
  | .continue _ => .empty
  | .expression _ => .empty

/-- The declarations of variables in statements one after another, with their symbols. -/
def layersAll (w : Walk) : List Statement → Layers Made
  | [] => .empty
  | s :: others => w.layers s ++ (w.statement s).layersAll others

end

mutual

/-- The declarations are those of the tree. -/
theorem map_layers (w : Walk) (s : Statement) : (w.layers s).map Made.declaration = s.layers := by
  cases s with
  | block opening statements closing =>
    rw [layers, Statement.layers, Layers.map_close, map_layersAll]
  | declaration d => rfl
  | ifThen keyword condition body | «while» keyword condition body =>
    rw [layers, Statement.layers, Layers.map_close, map_layers]
  | ifElse keyword condition body elseKeyword alternative =>
    rw [layers, Statement.layers, Layers.map_append, Layers.map_close, Layers.map_close,
      map_layers, map_layers]
  | «return» keyword value => rfl
  | «for» keyword init condition step body =>
    dsimp only [layers, Statement.layers]
    rw [Layers.map_close, Layers.map_append, Layers.map_append, Layers.map_close, map_layers,
      map_layers]
    rfl
  | «break» keyword => rfl
  | «continue» keyword => rfl
  | expression e => rfl

theorem map_layersAll (w : Walk) (statements : List Statement) :
    (w.layersAll statements).map Made.declaration = Statement.layersAll statements := by
  cases statements with
  | nil => rfl
  | cons s others =>
    rw [layersAll, Statement.layersAll, Layers.map_append, map_layers, map_layersAll]

end

/-- Whether what is made in some regions is what given sites of local variables make. -/
def Lists (l : Layers Made) (sites : List VariableSite) : Prop :=
  (l.flatten.map Made.entry).Perm (sites.map VariableSite.entry)

theorem Lists.append {front back : Layers Made} {sites others : List VariableSite}
    (h : Lists front sites) (hback : Lists back others) :
    Lists (front ++ back) (sites ++ others) := by
  have hboth := (Layers.flatten_append front back).map Made.entry
  rw [List.map_append] at hboth
  rw [Lists, List.map_append]
  exact hboth.trans (List.Perm.append h hback)

theorem Lists.close {l : Layers Made} {sites : List VariableSite} (h : Lists l sites) :
    Lists l.close sites :=
  (l.flatten_close.map _).trans h

theorem lists_empty : Lists .empty [] :=
  .refl _

theorem lists_localMade (w : Walk) (d : VariableDeclaration) :
    Lists (.single (w.localMade d)) [w.localSite d] :=
  .refl _

mutual

/-- What a statement makes in its regions is what the sites of its variables make. -/
theorem lists_layers (w : Walk) (s : Statement) : Lists (w.layers s) (w.variableSites s) := by
  cases s with
  | block opening statements closing => exact (lists_layersAll w.enter statements).close
  | declaration d => exact w.lists_localMade d
  | ifThen keyword condition body | «while» keyword condition body =>
    exact (lists_layers (w.expression condition).enter body).close
  | ifElse keyword condition body elseKeyword alternative =>
    have hbody := lists_layers (w.expression condition).enter body
    have halternative :=
      lists_layers ((w.expression condition).enter.statement body).leave.enter alternative
    exact hbody.close.append halternative.close
  | «return» keyword value => exact lists_empty
  | «for» keyword init condition step body =>
    let head := (w.enter.localVariable init).expression condition
    have hstep := lists_layers head step
    have hbody := lists_layers (head.statement step).enter body
    exact (((w.enter.lists_localMade init).append hstep).append hbody.close).close
  | «break» keyword => exact lists_empty
  | «continue» keyword => exact lists_empty
  | expression e => exact lists_empty

theorem lists_layersAll (w : Walk) (statements : List Statement) :
    Lists (w.layersAll statements) (w.variableSitesAll statements) := by
  cases statements with
  | nil => exact lists_empty
  | cons s others =>
    exact (lists_layers w s).append (lists_layersAll (w.statement s) others)

end

/-! ### Binding a body -/

/-- Whether a walk has gone on by declarations in the region it is in, where others were made
before, and in the regions inside. -/
structure Declares (w w' : Walk) (before : List Made) (l : Layers Made) : Prop where
  outer : w'.scope.outer = w.scope.outer
  inner : w'.scope.inner = .ofMade (before ++ l.own)
  /-- The regions inside are kept. -/
  closed : w'.closed = w.closed ++ l.inner.flatMap fun made => (Region.ofMade made).symbols
  doubles : (doubles w'.findings).Perm
    (TodLang.doubles w.findings ++ (l.map Made.name).repeated (before.map Made.name))

variable {w w' w'' : Walk} {before : List Made} {l l' : Layers Made}

theorem Stays.declares (h : w.Stays w') (hw : w.scope.inner = .ofMade before) :
    w.Declares w' before .empty := by
  refine ⟨congrArg Scope.outer h.scope, ?_, ?_, ?_⟩
  · rw [h.scope, hw]
    exact congrArg Region.ofMade (List.append_nil before).symm
  · exact h.closed.trans (List.append_nil _).symm
  · rw [h.doubles]
    exact .of_eq (List.append_nil _).symm

theorem Declares.trans (h : w.Declares w' before l) (h' : w'.Declares w'' (before ++ l.own) l') :
    w.Declares w'' before (l ++ l') := by
  refine ⟨h'.outer.trans h.outer, ?_, ?_, ?_⟩
  · rw [h'.inner, List.append_assoc]
    rfl
  · rw [h'.closed, h.closed, List.append_assoc, ← List.flatMap_append]
    rfl
  · have hmore := h'.doubles.trans (h.doubles.append_right _)
    rw [List.append_assoc] at hmore
    rw [Layers.map_append]
    refine hmore.trans (List.Perm.append_left _ (List.Perm.symm ?_))
    have hboth := Layers.repeated_append (before.map Made.name) (l.map Made.name)
      (l'.map Made.name)
    rwa [Layers.map, ← List.map_append] at hboth

/-- What precedes without a declaration. -/
theorem Stays.trans_declares (h : w.Stays w') (h' : w'.Declares w'' before l) :
    w.Declares w'' before l :=
  ⟨h'.outer.trans (congrArg Scope.outer h.scope), h'.inner, h.closed ▸ h'.closed,
    h.doubles ▸ h'.doubles⟩

/-- A declaration in the region of the walk. -/
theorem declares_declare (hw : w.scope.inner = .ofMade before) (m : Made) :
    w.Declares (w.declare m.symbol m.name.span) before (.single m) := by
  obtain ⟨hinner, hdoubles⟩ := declare_ofDeclared hw m.symbol m.name.span
  have hname : (⟨m.symbol.name, m.name.span⟩ : Ident) = m.name :=
    congrArg (Ident.mk · m.name.span) m.named
  rw [Made.map_named, hname] at hdoubles
  refine ⟨w.declare_outer .., ?_, ?_, ?_⟩
  · rw [hinner, Region.ofMade, List.map_append]
    rfl
  · rw [declare_closed]
    exact (List.append_nil _).symm
  · rw [hdoubles]
    exact .of_eq (congrArg (_ ++ ·) (List.append_nil _).symm)

/-- What is declared in a region that is entered and left again. -/
theorem Declares.inside (hw : w.scope.inner = .ofMade before) (h : w.enter.Declares w' [] l) :
    w.Declares w'.leave before l.close := by
  have houter : w'.scope.outer = w.scope.inner :: w.scope.outer := h.outer
  have hscope : w'.leave.scope = w.scope := leave_scope h.outer
  have hclosed : w'.leave.closed = w'.closed ++ w'.scope.inner.symbols := by
    unfold leave
    rw [houter]
  have hfindings : w'.leave.findings = w'.findings := by
    unfold leave
    rw [houter]
  refine ⟨congrArg Scope.outer hscope, ?_, ?_, ?_⟩
  · rw [hscope, hw]
    exact congrArg Region.ofMade (List.append_nil before).symm
  · rw [hclosed, h.closed, h.inner, List.append_assoc]
    change _ = w.closed ++ (l.inner ++ [l.own]).flatMap _
    rw [List.flatMap_append, List.flatMap_singleton]
    rfl
  · rw [hfindings, Layers.map_close]
    exact h.doubles.trans (List.Perm.append_left _ (Layers.repeated_close _ _).symm)

theorem enter_inner (w : Walk) : w.enter.scope.inner = .ofMade [] :=
  rfl

theorem declares_localVariable (hw : w.scope.inner = .ofMade before) (d : VariableDeclaration) :
    w.Declares (w.localVariable d) before (.single (w.localMade d)) := by
  let valued := w.optionalExpression d.value
  have hstays := ((w.stays_optionalExpression d.value).trans (valued.stays_declaredType d)).trans
    (stays_countVariable _)
  have hinner : (valued.declaredType d).2.countVariable.scope.inner = .ofMade before := by
    rw [hstays.scope, hw]
  exact hstays.trans_declares (declares_declare hinner (w.localMade d))

mutual

/-- A statement makes its declarations. -/
theorem declares_statement {w : Walk} {before : List Made} (hw : w.scope.inner = .ofMade before)
    (s : Statement) : w.Declares (w.statement s) before (w.layers s) := by
  cases s with
  | block opening statements closing =>
    exact Declares.inside hw (declares_statements w.enter_inner statements)
  | declaration d => exact declares_localVariable hw d
  | ifThen keyword condition body | «while» keyword condition body =>
    have hcondition := w.stays_expression condition
    have hbody := declares_statement (w.expression condition).enter_inner body
    exact hcondition.trans_declares (Declares.inside (hcondition.scope ▸ hw) hbody)
  | ifElse keyword condition body elseKeyword alternative =>
    have hcondition := w.stays_expression condition
    have hbody := Declares.inside (hcondition.scope ▸ hw)
      (declares_statement (w.expression condition).enter_inner body)
    have halternative := Declares.inside hbody.inner
      (declares_statement (enter_inner _) alternative)
    exact hcondition.trans_declares (hbody.trans halternative)
  | «return» keyword value => exact (w.stays_optionalExpression value).declares hw
  | «for» keyword init condition step body =>
    have hinit := declares_localVariable w.enter_inner init
    have hcondition := (w.enter.localVariable init).stays_expression condition
    let head := (w.enter.localVariable init).expression condition
    have hstep := declares_statement (w := head) hinit.inner step
    have hhead := hinit.trans (hcondition.trans_declares hstep)
    have hbody := Declares.inside hhead.inner (declares_statement (enter_inner _) body)
    exact Declares.inside hw (hhead.trans hbody)
  | «break» keyword => exact w.stays_refl.declares hw
  | «continue» keyword => exact w.stays_refl.declares hw
  | expression e => exact (w.stays_expression e).declares hw

theorem declares_statements {w : Walk} {before : List Made} (hw : w.scope.inner = .ofMade before)
    (statements : List Statement) :
    w.Declares (w.statements statements) before (w.layersAll statements) := by
  cases statements with
  | nil => exact w.stays_refl.declares hw
  | cons s others =>
    have hfirst := declares_statement hw s
    exact hfirst.trans (declares_statements hfirst.inner others)

end

/-! ### Binding the members -/

/-- Symbols that are declared one after another in the region of the walk. -/
theorem declares_foldl {α : Type} {step : Walk → α → Walk} (make : α → Made)
    (hstep : ∀ w a, step w a = w.declare (make a).symbol (make a).name.span) (l : List α)
    (hw : w.scope.inner = .ofMade before) :
    w.Declares (l.foldl step w) before ⟨l.map make, []⟩ := by
  induction l generalizing w before with
  | nil => exact w.stays_refl.declares hw
  | cons a others ih =>
    have hfirst := declares_declare hw (make a)
    rw [← hstep] at hfirst
    exact hfirst.trans (ih hfirst.inner)

/-- What declares a parameter, and its symbol. -/
def parameterEntry (x : Parameter × Variable) : Declaration × Symbol :=
  (.parameter x.1, .parameter x.2)

/-- The parameters of a function are declared as they are written. -/
theorem declares_parameters (opening : Span) {ps : List Parameter} {vs : List Variable}
    (h : List.Forall₂ (fun p v => v.name = p.name.name ∧ v.declaration = some p.name.span) ps vs)
    (hw : w.scope.inner = .ofMade before) :
    ∃ made : List Made, made.map Made.declaration = ps.map .parameter ∧
      made.map Made.entry = (ps.zip vs).map parameterEntry ∧
      w.Declares (w.declareParameters opening vs) before ⟨made, []⟩ := by
  induction h generalizing w before with
  | nil => exact ⟨[], rfl, rfl, w.stays_refl.declares hw⟩
  | @cons p v ps vs hpair _ ih =>
    obtain ⟨hname, hplace⟩ := hpair
    let m : Made := ⟨.parameter p, .parameter v, hname⟩
    have hspan : v.declaration.getD opening = m.name.span := by
      rw [hplace]
      rfl
    have hfirst := declares_declare hw m
    rw [← hspan] at hfirst
    obtain ⟨made, hdeclarations, hentries, hothers⟩ := ih hfirst.inner
    exact ⟨m :: made, congrArg (_ :: ·) hdeclarations, congrArg (_ :: ·) hentries,
      hfirst.trans hothers⟩

end Walk

/-- Whether a region holds, of what was made in it, the first of each name, in the order of names.
-/
structure Region.HoldsFirsts (r : Region) (made : List Made) : Prop where
  valid : r.Valid
  perm : r.symbols.Perm ((firsts (·.name.name) [] made).map Made.symbol)

theorem holdsFirsts_ofMade (made : List Made) : (Region.ofMade made).HoldsFirsts made := by
  refine ⟨Region.valid_ofDeclared _, ?_⟩
  have hnames : Symbol.name ∘ Made.symbol = fun m : Made => m.name.name := by
    funext m
    exact m.named
  have hperm := Region.perm_ofDeclared (made.map Made.symbol)
  rw [firsts_map, hnames] at hperm
  exact hperm

/-- Whether a bound function carries what the parameters of a function and the sites of its local
variables make: in each of its regions, from its own to those inside in the order in which they end,
the first of each name. -/
structure BoundFunction.Carries (b : BoundFunction) (d : FunctionDeclaration)
    (sites : List VariableSite) : Prop where
  locals : ∃ regions : List (List Made), regions.map (List.map Made.declaration) = d.layers.all ∧
    (regions.flatten.map Made.entry).Perm
      ((d.parameters.zip b.symbol.parameters).map Walk.parameterEntry ++
        sites.map VariableSite.entry) ∧
    ∃ kept, List.Forall₂ Region.HoldsFirsts kept regions ∧ b.locals = kept.flatMap Region.symbols

/-- The names that are declared in the regions of a member and are not the first of theirs. -/
def Member.repeated (member : Member) : List Ident :=
  member.regions.flatMap fun declared => repeats Ident.name [] (declared.map Declaration.name)

theorem repeated_names {l : Layers Made} {declared : Layers Declaration}
    (h : l.map Made.declaration = declared) :
    (l.map Made.name).repeated [] =
      declared.all.flatMap fun region => repeats Ident.name [] (region.map Declaration.name) := by
  have hname : l.map Made.name = declared.map Declaration.name := by
    rw [← h, Layers.map_map]
    rfl
  rw [hname, Layers.repeated_nil, Layers.map_all, List.flatMap_map]

namespace Walk

variable {w : Walk}

theorem functionBody_carries (w : Walk) {d : FunctionDeclaration} {symbol : FunctionSymbol}
    (h : Signs d symbol) :
    (w.functionBody symbol d.body).1.Carries d
        ((w.body symbol d.body.opening).variableSitesAll d.body.statements) ∧
      (doubles (w.functionBody symbol d.body).2.findings).Perm
        (doubles w.findings ++ (Member.function d).repeated) := by
  let start : Walk := { w with closed := [] }
  let inside := w.body symbol d.body.opening
  let bound := inside.statements d.body.statements
  obtain ⟨made, hdeclarations, hentries, hparameters⟩ :=
    declares_parameters d.body.opening h.parameters start.enter_inner
  have hbody := declares_statements hparameters.inner d.body.statements
  let layers : Layers Made := ⟨made, []⟩ ++ inside.layersAll d.body.statements
  have hall : start.enter.Declares bound [] layers := hparameters.trans hbody
  have hlayers : layers.map Made.declaration = d.layers := by
    rw [Layers.map_append, map_layersAll, FunctionDeclaration.layers, ← hdeclarations]
    rfl
  constructor
  · refine ⟨layers.all, ?_, ?_, layers.all.map .ofMade, ?_, ?_⟩
    · rw [← hlayers]
      rfl
    · have hboth := (Layers.flatten_append ⟨made, []⟩
        (inside.layersAll d.body.statements)).map Made.entry
      have hmade : (⟨made, []⟩ : Layers Made).flatten = made := List.append_nil made
      rw [List.map_append, hmade, hentries] at hboth
      exact hboth.trans (List.Perm.append_left _ (inside.lists_layersAll d.body.statements))
    · exact List.forall₂_map_left_iff.2
        (List.forall₂_same.2 fun made _ => holdsFirsts_ofMade made)
    · change bound.scope.inner.symbols ++ bound.closed = _
      rw [hall.inner, hall.closed, List.flatMap_map]
      rfl
  · have hleave : bound.leave.findings = bound.findings := by
      unfold leave
      rw [hall.outer]
      rfl
    have hdoubles := hall.doubles
    rw [List.map_nil, repeated_names hlayers] at hdoubles
    change (doubles bound.leave.findings).Perm _
    rw [hleave]
    exact hdoubles

theorem doubles_globalStatement (w : Walk) {s : Statement}
    (h : ∀ d, s ≠ .declaration d) :
    (doubles (w.globalStatement s).findings).Perm
      (doubles w.findings ++ (Member.statement s).repeated) := by
  have hbody := declares_statement w.enter_inner s
  have hleave : (w.enter.statement s).leave.findings = (w.enter.statement s).findings := by
    unfold leave
    rw [hbody.outer]
    rfl
  have hregions : (Member.statement s).regions = s.layers.all := by
    cases s with
    | declaration d => exact absurd rfl (h d)
    | _ => rfl
  have hdoubles := hbody.doubles
  rw [List.map_nil, repeated_names (w.enter.map_layers s), ← hregions] at hdoubles
  change (doubles (w.enter.statement s).leave.findings).Perm _
  rw [hleave]
  exact hdoubles

/-- The sites of the local variables of a program's functions, one list for each function. -/
def functionVariables (w : Walk) : List Member → List FunctionSymbol → List (List VariableSite)
  | [], _ => []
  | .function f :: others, symbol :: symbols =>
    (w.body symbol f.body.opening).variableSitesAll f.body.statements ::
      (w.functionBody symbol f.body).2.functionVariables others symbols
  | .statement (.declaration d) :: others, symbols =>
    (w.optionalExpression d.value).functionVariables others symbols
  | .statement s :: others, symbols => (w.globalStatement s).functionVariables others symbols
  | _ :: others, symbols => w.functionVariables others symbols

/-- The sites of different functions are different sites of the program. -/
theorem functionVariables_sublist (w : Walk) (members : List Member)
    (symbols : List FunctionSymbol) :
    (w.functionVariables members symbols).flatten.Sublist (w.bodyVariables members symbols) := by
  induction members generalizing w symbols with
  | nil => exact .slnil
  | cons member others ih =>
    cases member with
    | function f =>
      cases symbols with
      | nil => exact ih w []
      | cons symbol symbols => exact (List.Sublist.refl _).append (ih _ symbols)
    | statement s =>
      have hothers := ih (w.globalStatement s) symbols
      cases s with
      | declaration d => exact ih (w.optionalExpression d.value) symbols
      | _ => exact hothers.trans (List.sublist_append_right _ _)
    | _ => exact ih w symbols

theorem map_functionVariables {members : List Member} {symbols : List FunctionSymbol}
    (h : List.Forall₂ Signs (functionDeclarations members) symbols) (w : Walk) :
    (w.functionVariables members symbols).map (List.map VariableSite.declaration) =
      (functionDeclarations members).map fun d => Statement.declarationsAll d.body.statements := by
  induction members generalizing w symbols with
  | nil => rfl
  | cons member others ih =>
    cases member with
    | function f =>
      cases h with
      | cons _ hrest => exact congrArg₂ List.cons (map_variableSitesAll _ _) (ih hrest _)
    | statement s => cases s <;> exact ih h _
    | _ => exact ih h w

/-- Every function is bound with what is declared in it, and what is found to be declared already in
the bodies is what is not the first of its name. -/
theorem bindMembers_carries {members : List Member} {symbols : List FunctionSymbol}
    (h : List.Forall₂ Signs (functionDeclarations members) symbols) (w : Walk) :
    List.Forall₂ (fun x b => BoundFunction.Carries b x.1 x.2)
        ((functionDeclarations members).zip (w.functionVariables members symbols))
        (w.bindMembers members symbols).1 ∧
      (doubles (w.bindMembers members symbols).2.findings).Perm
        (doubles w.findings ++ members.flatMap Member.repeated) := by
  induction members generalizing w symbols with
  | nil => exact ⟨.nil, .of_eq (List.append_nil _).symm⟩
  | cons member others ih =>
    cases member with
    | function f =>
      cases h with
      | cons hfirst hrest =>
        obtain ⟨hbound, hdoubles⟩ := w.functionBody_carries hfirst
        obtain ⟨hothers, hmore⟩ := ih hrest (w.functionBody _ f.body).2
        refine ⟨.cons hbound hothers, ?_⟩
        have hall := hmore.trans (hdoubles.append_right _)
        rwa [List.append_assoc] at hall
    | statement s =>
      cases s with
      | declaration d =>
        have hvalue := w.stays_optionalExpression d.value
        obtain ⟨hothers, hmore⟩ := ih h (w.optionalExpression d.value)
        exact ⟨hothers, hvalue.doubles ▸ hmore⟩
      | _ =>
        obtain ⟨hothers, hmore⟩ := ih h (w.globalStatement _)
        refine ⟨hothers, ?_⟩
        have hall := hmore.trans
          ((w.doubles_globalStatement fun d hd => by cases hd).append_right _)
        rwa [List.append_assoc] at hall
    | _ => exact ih h w

end Walk

end TodLang
