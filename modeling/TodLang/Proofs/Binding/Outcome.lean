import TodLang.Proofs.Binding.References
import TodLang.Proofs.Tree.Structures
/-!
What comes of the references of a program. A reference finds its names, or misses one with a fault
of looking it up, or leaves one open that may stand for something unknown (`Reference.outcome`). All
that is found of names in an expression comes of its references (`Scope.explains_expression`).
-/

namespace TodLang

/-- Whether a fault is one of looking up a name. -/
def SemanticFault.isLookup : SemanticFault → Bool
  | undefinedName _ | undefinedFunction _ | undefinedType _ | undefinedPackage _
  | undefinedField _ _ | notCallable _ => true
  | alreadyDeclared _ | argumentCount _ _ _ | readOnlyAssignment _ => false

/-- Whether a fault is one of a written type. -/
def SemanticFault.isOfType : SemanticFault → Bool
  | undefinedType _ | undefinedPackage _ => true
  | _ => false

theorem SemanticFault.isLookup_of_isOfType {f : SemanticFault} (h : f.isOfType = true) :
    f.isLookup = true := by
  cases f with
  | undefinedType _ | undefinedPackage _ => rfl
  | _ => cases h

/-- Whether something that is found is a use of a name or a fault of looking one up. -/
def Finding.isLookup : Finding → Bool
  | use _ => true
  | error e => e.fault.isLookup

/-- The uses of names and the faults of looking them up. -/
def Finding.lookups (findings : List Finding) : List Finding :=
  findings.filter Finding.isLookup

open Finding (lookups)

namespace Finding

@[simp] theorem lookups_append (front back : List Finding) :
    lookups (front ++ back) = lookups front ++ lookups back :=
  List.filter_append ..

@[simp] theorem lookups_resolved (name : Ident) (fingerprint : String) (others : List Finding) :
    lookups (resolved name fingerprint :: others) =
      resolved name fingerprint :: lookups others := rfl

theorem lookups_fault {f : SemanticFault} (h : f.isLookup = true) (span : Span)
    (others : List Finding) : lookups (fault f span :: others) = fault f span :: lookups others :=
  List.filter_cons_of_pos h

/-- Whether something that is found comes of no reference: a name that is declared twice, or a
number of fields that does not fit a structure, at a region with a property. -/
def IsAside (P : Span → Prop) : Finding → Prop
  | error ⟨.alreadyDeclared _, _⟩ => True
  | error ⟨.argumentCount _ _ _, span⟩ => P span
  | _ => False

theorem isLookup_of_isAside {P : Span → Prop} {f : Finding} (h : f.IsAside P) :
    f.isLookup = false := by
  unfold IsAside at h
  split at h
  · rfl
  · rfl
  · cases h

/-- Whether what was found consists of given blocks in their order, with asides in between. -/
inductive Composed (P : Span → Prop) : List (List Finding) → List Finding → Prop where
  | nil : Composed P [] []
  | block {block : List Finding} {blocks : List (List Finding)} {found : List Finding}
      (h : Composed P blocks found) : Composed P (block :: blocks) (block ++ found)
  | aside {f : Finding} {blocks : List (List Finding)} {found : List Finding}
      (hf : f.IsAside P) (h : Composed P blocks found) : Composed P blocks (f :: found)

namespace Composed

variable {P : Span → Prop} {blocks others : List (List Finding)} {found back : List Finding}

theorem append (h : Composed P blocks found) (hothers : Composed P others back) :
    Composed P (blocks ++ others) (found ++ back) := by
  induction h with
  | nil => exact hothers
  | block _ ih =>
    rw [List.append_assoc]
    exact .block ih
  | aside hf _ ih => exact .aside hf ih

/-- The uses and the faults of looking up are those of the blocks. -/
theorem lookups_eq (h : Composed P blocks found) : lookups found = blocks.flatMap lookups := by
  induction h with
  | nil => rfl
  | block _ ih => rw [lookups_append, List.flatMap_cons, ih]
  | aside hf _ ih =>
    have hleft := isLookup_of_isAside hf
    rw [← ih]
    exact List.filter_cons_of_neg (by rw [hleft]; exact Bool.false_ne_true)

/-- Each block is found in one piece. -/
theorem exists_append {block : List Finding} (h : Composed P blocks found)
    (hblock : block ∈ blocks) : ∃ before after, found = before ++ block ++ after := by
  induction h with
  | nil => cases hblock
  | @block first blocks found _ ih =>
    rcases List.mem_cons.1 hblock with rfl | hblock
    · exact ⟨[], found, rfl⟩
    · obtain ⟨before, after, rfl⟩ := ih hblock
      exact ⟨first ++ before, after, by simp only [List.append_assoc]⟩
  | @aside f blocks found _ _ ih =>
    obtain ⟨before, after, rfl⟩ := ih hblock
    exact ⟨f :: before, after, rfl⟩

end Composed

end Finding

open Finding (Composed)

namespace Scope

/-- The package whose functions are used. -/
def usePackage (s : Scope) (name : Ident) : List Finding :=
  match s.lookupPackage? name.name with
  | some package => [.resolved name package.fingerprint]
  | none => [.fault (.undefinedPackage name.name) name.span, .unresolved name]

end Scope

namespace Reference

/-- What is found where a reference is looked up. -/
def findings (functions : List TypeFunction) (s : Scope) : Reference → List Finding
  | value n => s.useName n
  | target n => s.useTarget n
  | call callee count => s.useCallee callee count
  | packageCall package callee count => s.usePackageCall package callee count
  | typeCall receiver callee count => Scope.useTypeCall functions s receiver callee count
  | fieldOf object field => s.useField object field
  | type clause => s.useType clause
  | packageUse n => s.usePackage n
  | own r => r.findings functions s.program

/-- The second name of a reference if it is looked up: if the package is found, or the receiver, or
an object that is a variable of a structure. -/
def followed? (s : Scope) : Reference → Option Ident
  | packageCall package callee _ => (s.lookupPackage? package.name).map fun _ => callee
  | typeCall receiver callee _ => (s.lookup? receiver.name).map fun _ => callee
  | fieldOf object field =>
    ((s.lookupVariable? object.name).bind fun v => s.structOf? v.type).map fun _ => field
  | own r => r.followed? s.program
  | _ => none

/-- Whether the second name of a reference may stand for something that is not known: a function of
a package without a module that does not list it, or one of a value of which nothing is known. -/
def isUnchecked (functions : List TypeFunction) (s : Scope) : Reference → Bool
  | packageCall package callee _ =>
    (s.lookupPackage? package.name).any fun p =>
      !p.isResolved && (p.function? callee.name).isNone
  | typeCall receiver callee _ =>
    ((s.lookup? receiver.name).bind Scope.receiverType?).any fun type =>
      type.name == "any" && (findTypeFunction? functions type callee.name).isNone
  | own r => r.isUnchecked functions s.program
  | _ => false

/-- Whether an error says that a name of a reference stands for nothing: it stands where the name
does. In a written type, it may stand at any of its names. -/
def Concerns (e : SemanticError) (name : Ident) : Reference → Prop
  | type clause => name = clause.name ∧ ∃ n ∈ clause.names, e.span = n.span
  | own r => r.Concerns e name
  | _ => e.span = name.span

/-- What can come of looking up a reference. -/
inductive Outcome (functions : List TypeFunction) (s : Scope) (r : Reference) :
    List Finding → Prop
  /-- The name is found, and nothing follows it. -/
  | found {fingerprint : String} (hfollowed : r.followed? s = none)
      (hchecked : r.isUnchecked functions s = false) :
      Outcome functions s r [.resolved r.head fingerprint]
  | missing {f : SemanticFault} {span : Span} (hfollowed : r.followed? s = none)
      (hchecked : r.isUnchecked functions s = false) (hfault : f.isLookup = true)
      (hconcerns : r.Concerns ⟨f, span⟩ r.head) :
      Outcome functions s r [.fault f span, .unresolved r.head]
  /-- Both names are found. -/
  | followed {fingerprint : String} {n : Ident} {other : String}
      (hfollowed : r.followed? s = some n) (hchecked : r.isUnchecked functions s = false) :
      Outcome functions s r [.resolved r.head fingerprint, .resolved n other]
  | lost {fingerprint : String} {n : Ident} {f : SemanticFault} {span : Span}
      (hfollowed : r.followed? s = some n) (hchecked : r.isUnchecked functions s = false)
      (hfault : f.isLookup = true) (hconcerns : r.Concerns ⟨f, span⟩ n) :
      Outcome functions s r [.resolved r.head fingerprint, .fault f span, .unresolved n]
  | unchecked {fingerprint : String} {n : Ident} (hfollowed : r.followed? s = some n)
      (hunchecked : r.isUnchecked functions s = true) :
      Outcome functions s r [.resolved r.head fingerprint, .unresolved n]

open Scope

@[simp] theorem lookups_checkCount (name : String) (expected found : Nat) (span : Span) :
    lookups (checkCount name expected found span) = [] := by
  unfold checkCount
  split <;> rfl

mutual

/-- The fault of a written type is one of looking up one of its names. -/
theorem lookupType_error {s : Scope} {clause : TypeClause} {e : SemanticError}
    (h : s.lookupType clause = .error e) :
    e.fault.isOfType = true ∧ ∃ n ∈ clause.names, e.span = n.span := by
  obtain ⟨package, name, arguments, closing⟩ := clause
  unfold lookupType at h
  cases hall : s.lookupTypes arguments with
  | error f =>
    simp only [hall, Except.error.injEq] at h
    subst h
    obtain ⟨hfault, n, hn, hspan⟩ := lookupTypes_error hall
    refine ⟨hfault, n, ?_, hspan⟩
    simp [TypeClause.names, hn]
  | ok types =>
    simp only [hall] at h
    unfold namedType at h
    cases package with
    | some p =>
      cases hp : s.lookupPackage? p.name with
      | some q => simp [hp] at h
      | none =>
        simp only [hp, Except.error.injEq] at h
        subst h
        exact ⟨rfl, p, by simp [TypeClause.names], rfl⟩
    | none =>
      have herror : e = ⟨.undefinedType name.name, name.span⟩ := by
        dsimp only at h
        split at h <;> first | exact (Except.error.inj h).symm | cases h
      subst herror
      exact ⟨rfl, name, by simp [TypeClause.names], rfl⟩

theorem lookupTypes_error {s : Scope} {clauses : List TypeClause} {e : SemanticError}
    (h : s.lookupTypes clauses = .error e) :
    e.fault.isOfType = true ∧ ∃ n ∈ TypeClause.namesAll clauses, e.span = n.span := by
  cases clauses with
  | nil => simp [lookupTypes] at h
  | cons clause others =>
    unfold lookupTypes at h
    cases hfirst : s.lookupType clause with
    | error f =>
      simp only [hfirst, Except.error.injEq] at h
      subst h
      obtain ⟨hfault, n, hn, hspan⟩ := lookupType_error hfirst
      exact ⟨hfault, n, by simp [TypeClause.namesAll, hn], hspan⟩
    | ok type =>
      cases hothers : s.lookupTypes others with
      | ok types => simp [hfirst, hothers] at h
      | error f =>
        simp only [hfirst, hothers, Except.error.injEq] at h
        subst h
        obtain ⟨hfault, n, hn, hspan⟩ := lookupTypes_error hothers
        exact ⟨hfault, n, by simp [TypeClause.namesAll, hn], hspan⟩

end

variable (functions : List TypeFunction) (s : Scope)

theorem outcome_value (n : Ident) :
    (value n).Outcome functions s (lookups (s.useName n)) := by
  unfold useName
  cases s.lookup? n.name with
  | some symbol => exact .found rfl rfl
  | none => exact .missing rfl rfl rfl rfl

theorem outcome_target (n : Ident) :
    (target n).Outcome functions s (lookups (s.useTarget n)) := by
  unfold useTarget
  cases s.lookup? n.name with
  | some symbol =>
    dsimp only
    split <;> exact .found rfl rfl
  | none => exact .missing rfl rfl rfl rfl

theorem outcome_call (callee : Ident) (count : Nat) :
    (call callee count).Outcome functions s (lookups (s.useCallee callee count)) := by
  unfold useCallee
  cases s.lookup? callee.name with
  | none => exact .missing rfl rfl rfl rfl
  | some symbol =>
    cases symbol with
    | function f | type t =>
      simp only [Finding.lookups_append, lookups_checkCount, List.nil_append]
      exact .found rfl rfl
    | _ => exact .missing rfl rfl rfl rfl

theorem outcome_packageCall (package callee : Ident) (count : Nat) :
    (packageCall package callee count).Outcome functions s
      (lookups (s.usePackageCall package callee count)) := by
  unfold usePackageCall
  cases hp : s.lookupPackage? package.name with
  | none => exact .missing (by simp [followed?, hp]) (by simp [isUnchecked, hp]) rfl rfl
  | some p =>
    have hfollowed : (packageCall package callee count).followed? s = some callee := by
      simp [followed?, hp]
    dsimp only
    unfold usePackageFunction
    cases hf : p.function? callee.name with
    | some f =>
      simp only [Finding.lookups_resolved, Finding.lookups_append, lookups_checkCount,
        List.nil_append]
      exact .followed hfollowed (by simp [isUnchecked, hp, hf])
    | none =>
      dsimp only
      split
      · next hresolved =>
        exact .lost hfollowed (by simp [isUnchecked, hp, hresolved]) rfl rfl
      · next hresolved =>
        exact .unchecked hfollowed (by simp [isUnchecked, hp, hf, hresolved])

theorem outcome_typeCall (receiver callee : Ident) (count : Nat) :
    (typeCall receiver callee count).Outcome functions s
      (lookups (useTypeCall functions s receiver callee count)) := by
  unfold useTypeCall
  cases hr : s.lookup? receiver.name with
  | none => exact .missing (by simp [followed?, hr]) (by simp [isUnchecked, hr]) rfl rfl
  | some symbol =>
    have hfollowed : (typeCall receiver callee count).followed? s = some callee := by
      simp [followed?, hr]
    dsimp only
    cases ht : receiverType? symbol with
    | none => exact .lost hfollowed (by simp [isUnchecked, hr, ht]) rfl rfl
    | some type =>
      dsimp only
      unfold useTypeFunction
      cases hf : findTypeFunction? functions type callee.name with
      | some f =>
        simp only [Finding.lookups_resolved, Finding.lookups_append, lookups_checkCount,
          List.nil_append]
        exact .followed hfollowed (by simp [isUnchecked, hr, ht, hf])
      | none =>
        dsimp only
        split
        · next hany => exact .unchecked hfollowed (by simp [isUnchecked, hr, ht, hf, hany])
        · next hany => exact .lost hfollowed (by simp [isUnchecked, hr, ht, hany]) rfl rfl

theorem outcome_fieldOf (object field : Ident) :
    (fieldOf object field).Outcome functions s (lookups (s.useField object field)) := by
  unfold useField
  cases ho : s.lookup? object.name with
  | none => exact .missing (by simp [followed?, lookupVariable?, ho]) rfl rfl rfl
  | some symbol =>
    dsimp only
    cases hs : (symbol.asVariable?.map Variable.type).bind s.structOf? with
    | none =>
      have hfollowed : (fieldOf object field).followed? s = none := by
        rw [Option.bind_map] at hs
        simpa [followed?, lookupVariable?, ho] using hs
      exact .found hfollowed rfl
    | some owner =>
      have hfollowed : (fieldOf object field).followed? s = some field := by
        rw [Option.bind_map] at hs
        have howner : (symbol.asVariable?.bind fun v => s.structOf? v.type) = some owner := hs
        simp [followed?, lookupVariable?, ho, howner]
      dsimp only
      unfold useStructField
      split
      · exact .followed hfollowed rfl
      · exact .lost hfollowed rfl rfl rfl

theorem outcome_type (clause : TypeClause) :
    (type clause).Outcome functions s (lookups (s.useType clause)) := by
  unfold useType resolveType
  cases h : s.lookupType clause with
  | ok t => exact .found rfl rfl
  | error e =>
    obtain ⟨hkind, hconcerns⟩ := lookupType_error h
    have hfault := SemanticFault.isLookup_of_isOfType hkind
    dsimp only
    rw [show Finding.error e = .fault e.fault e.span from rfl, Finding.lookups_fault hfault]
    exact .missing rfl rfl hfault ⟨rfl, hconcerns⟩

theorem outcome_packageUse (n : Ident) :
    (packageUse n).Outcome functions s (lookups (s.usePackage n)) := by
  unfold usePackage
  cases s.lookupPackage? n.name with
  | some p => exact .found rfl rfl
  | none => exact .missing rfl rfl rfl rfl

/-- Behind `main`, what comes of a reference is what comes of it in the program's scope. -/
theorem Outcome.own {r : Reference} {found : List Finding}
    (h : r.Outcome functions s.program found) : (own r).Outcome functions s found := by
  cases h with
  | found hfollowed hchecked => exact .found hfollowed hchecked
  | missing hfollowed hchecked hfault hconcerns =>
    exact .missing hfollowed hchecked hfault hconcerns
  | followed hfollowed hchecked => exact .followed hfollowed hchecked
  | lost hfollowed hchecked hfault hconcerns => exact .lost hfollowed hchecked hfault hconcerns
  | unchecked hfollowed hunchecked => exact .unchecked hfollowed hunchecked

/-- What comes of looking up a reference. -/
theorem outcome (r : Reference) : r.Outcome functions s (lookups (r.findings functions s)) := by
  induction r generalizing s with
  | value n => exact outcome_value functions s n
  | target n => exact outcome_target functions s n
  | call callee count => exact outcome_call functions s callee count
  | packageCall package callee count => exact outcome_packageCall functions s package callee count
  | typeCall receiver callee count => exact outcome_typeCall functions s receiver callee count
  | fieldOf object field => exact outcome_fieldOf functions s object field
  | type clause => exact outcome_type functions s clause
  | packageUse n => exact outcome_packageUse functions s n
  | own r ih => exact .own functions s (ih s.program)

/-- The uses and the faults of looking up where a reference is looked up. -/
def lookups (r : Reference) : List Finding :=
  Finding.lookups (r.findings functions s)

/-- Whether what was found is what comes of given references, one after another. In between, only
fields of structures are counted, at regions with a property. -/
def Explains (P : Span → Prop) (references : List Reference) (found : List Finding) : Prop :=
  Composed P (references.map (Reference.findings functions s)) found

variable {functions s} {P : Span → Prop}

theorem explains_nil : Explains functions s P [] [] := .nil

theorem explains_single (r : Reference) :
    Explains functions s P [r] (r.findings functions s) := by
  have hsingle : Explains functions s P [r] (r.findings functions s ++ []) := .block .nil
  rwa [List.append_nil] at hsingle

/-- A fault that comes of no reference. -/
theorem explains_aside {f : Finding} (hf : f.IsAside P) : Explains functions s P [] [f] :=
  .aside hf .nil

/-- What is found in one part after another. -/
theorem Explains.both {references others : List Reference} {front back : List Finding}
    (h : Explains functions s P references front) (hothers : Explains functions s P others back) :
    Explains functions s P (references ++ others) (front ++ back) := by
  unfold Explains at *
  rw [List.map_append]
  exact h.append hothers

/-- What is found behind `main`. -/
theorem Explains.own {references : List Reference} {found : List Finding}
    (h : Explains functions s.program P references found) :
    Explains functions s P (references.map .own) found := by
  unfold Explains at *
  rw [List.map_map]
  exact h

/-- The number of fields of a new structure is checked beside its references. -/
theorem explains_checkFields (clause : TypeClause) (count : Nat) {span : Span} (hspan : P span) :
    Explains functions s P [] (s.checkFields clause count span) := by
  unfold checkFields checkCount
  cases s.structOf? (s.resolveType clause).1 with
  | none => exact explains_nil
  | some target =>
    dsimp only
    split
    · exact explains_nil
    · split
      · exact explains_nil
      · exact explains_aside hspan

end Reference

namespace Scope

open Reference

variable {P : Span → Prop}

mutual

/-- The references of an expression explain what is found in it. -/
theorem explains_expression (functions : List TypeFunction) (s : Scope) (e : Expression)
    (he : ∀ span ∈ e.structures, P span) :
    Explains functions s P e.references (bindExpression functions s e) := by
  cases e with
  | literal token => exact explains_nil
  | this keyword => exact explains_nil
  | parenthesized opening inner closing => exact explains_expression functions s inner he
  | name n => exact explains_single (.value n)
  | assignment target value =>
    have hvalue := explains_expression functions s value he
    exact hvalue.both (explains_single (.target target))
  | call callee arguments closing =>
    have harguments := explains_expressions functions s arguments he
    exact harguments.both (explains_single (.call callee arguments.length))
  | cast type arguments closing =>
    have harguments := explains_expressions functions s arguments he
    exact harguments.both (explains_single (.type type))
  | packageCall package callee arguments closing =>
    have harguments := explains_expressions functions s arguments he
    exact harguments.both (explains_single (.packageCall package callee arguments.length))
  | typeCall receiver callee arguments closing =>
    have harguments := explains_expressions functions s arguments he
    exact harguments.both (explains_single (.typeCall receiver callee arguments.length))
  | unary operator operand => exact explains_expression functions s operand he
  | binary left operator right =>
    obtain ⟨heleft, heright⟩ := List.forall_mem_append.1 he
    have hleft := explains_expression functions s left heleft
    have hright := explains_expression functions s right heright
    exact hleft.both hright
  | edit target operator value =>
    have hvalue := explains_expression functions s value he
    exact hvalue.both (explains_single (.target target))
  | step target operator => exact explains_single (.target target)
  | fieldAccess object field => exact explains_single (.fieldOf object field)
  | fieldAssignment object field value =>
    have hvalue := explains_expression functions s value he
    exact hvalue.both (explains_single (.fieldOf object field))
  | arrayAccess array index closing =>
    obtain ⟨hearray, heindex⟩ := List.forall_mem_append.1 he
    have harray := explains_expression functions s array hearray
    have hindex := explains_expression functions s index heindex
    exact harray.both hindex
  | arrayAssignment array index value =>
    obtain ⟨hefront, hevalue⟩ := List.forall_mem_append.1 he
    obtain ⟨hearray, heindex⟩ := List.forall_mem_append.1 hefront
    have harray := explains_expression functions s array hearray
    have hindex := explains_expression functions s index heindex
    have hvalue := explains_expression functions s value hevalue
    exact (harray.both hindex).both hvalue
  | reference ampersand n => exact explains_single (.value n)
  | dereference star operand => exact explains_expression functions s operand he
  | make keyword type arguments closing =>
    have harguments := explains_expressions functions s arguments he
    exact (explains_single (.type type)).both harguments
  | makeSized keyword type length closing =>
    have hlength := explains_expression functions s length he
    exact (explains_single (.type type)).both hlength
  | makeArray keyword type elements closing =>
    have helements := explains_expressions functions s elements he
    exact (explains_single (.type type)).both helements
  | makeStruct keyword type fields closing =>
    obtain ⟨hefields, hwhole⟩ := List.forall_mem_append.1 he
    have hfields := explains_expressions functions s fields hefields
    have hcount : Explains functions s P [] (s.checkFields type fields.length _) :=
      explains_checkFields type fields.length (hwhole _ (List.mem_singleton_self _))
    have hall := ((explains_single (.type type)).both hfields).both hcount
    rw [List.append_nil] at hall
    exact hall
  | main keyword inner =>
    have hinner : ∀ span ∈ inner.structures, P span := he
    -- Arguments and values are looked up where they are, the name in front of them is not.
    cases inner with
    | call callee arguments closing =>
      have harguments := explains_expressions functions s arguments he
      exact harguments.both (explains_single (.own (.call callee arguments.length)))
    | assignment target value =>
      have hvalue := explains_expression functions s value he
      exact hvalue.both (explains_single (.own (.target target)))
    | _ => exact (explains_expression functions s.program _ hinner).own

theorem explains_expressions (functions : List TypeFunction) (s : Scope) (es : List Expression)
    (hes : ∀ span ∈ Expression.structuresAll es, P span) :
    Explains functions s P (Expression.referencesAll es) (bindExpressions functions s es) := by
  cases es with
  | nil => exact explains_nil
  | cons e others =>
    obtain ⟨he, hothers⟩ := List.forall_mem_append.1 hes
    have hfirst := explains_expression functions s e he
    have hothers := explains_expressions functions s others hothers
    exact hfirst.both hothers

end

end Scope

end TodLang
