import TodLang.Proofs.Symbol.Fingerprint
import TodLang.Proofs.Symbol.Mapping
/-!
Other numbers for variables. Symbols, scopes and findings are renumbered by a function on numbers; a
fingerprint is renumbered as a text, since findings keep no more of a symbol. Names stand for the
same after renumbering, so looking up types and binding expressions is renumbered with the scope
(`Scope.bindExpression_renumber`).
-/

namespace TodLang

/-! ### Texts -/

namespace Fingerprint

/-- What the fingerprints of variables begin with. -/
def marks : List (List Char) :=
  [['G', 'V', '_'], ['L', 'V', '_'], ['P', 'R', '_']]

/-- The letters of a text up to the last line. -/
def front (letters : List Char) : List Char :=
  (letters.reverse.dropWhile (· != '_')).reverse

/-- The letters of a text behind the last line. -/
def digits (letters : List Char) : List Char :=
  (letters.reverse.takeWhile (· != '_')).reverse

/-- Whether a text is written like the fingerprint of a variable. -/
def isMarked (letters : List Char) : Bool :=
  marks.any (·.isPrefixOf (front letters))

/-- The letters of a fingerprint with another number, if it is one of a variable. -/
def renumberLetters (σ : Nat → Nat) (letters : List Char) : List Char :=
  if isMarked letters then
    front letters ++ Nat.toDigits 10 (σ (Nat.ofDigitChars 10 (digits letters) 0))
  else letters

/-- A fingerprint with another number, if it is one of a variable. -/
def renumber (σ : Nat → Nat) (text : String) : String :=
  .ofList (renumberLetters σ text.toList)

theorem notMem_toDigits (n : Nat) : '_' ∉ Nat.toDigits 10 n := by
  intro hmem
  have hdigit := Nat.isDigit_of_mem_toDigits (by decide) (by decide) hmem
  exact absurd hdigit (by decide)

theorem front_append {before behind : List Char} (h : '_' ∉ behind) :
    front (before ++ '_' :: behind) = before ++ ['_'] := by
  have hall : ∀ c ∈ behind.reverse, (c != '_') = true := by
    intro c hc
    rw [List.mem_reverse] at hc
    simpa using ne_of_mem_of_not_mem hc h
  rw [front, List.reverse_append, List.reverse_cons, List.append_assoc,
    List.dropWhile_append_of_pos hall]
  simp

theorem digits_append {before behind : List Char} (h : '_' ∉ behind) :
    digits (before ++ '_' :: behind) = behind := by
  have hall : ∀ c ∈ behind.reverse, (c != '_') = true := by
    intro c hc
    rw [List.mem_reverse] at hc
    simpa using ne_of_mem_of_not_mem hc h
  rw [digits, List.reverse_append, List.reverse_cons, List.append_assoc,
    List.takeWhile_append_of_pos hall]
  simp

/-- What stands in front of a number ends with a line. -/
theorem front_cases (letters : List Char) :
    front letters = [] ∨ ∃ before, front letters = before ++ ['_'] := by
  unfold front
  cases hrest : letters.reverse.dropWhile (· != '_') with
  | nil => exact .inl rfl
  | cons c others =>
    have hc : c = '_' := by
      have hhead := List.head?_dropWhile_not (· != '_') letters.reverse
      simpa [hrest] using hhead
    exact .inr ⟨others.reverse, by rw [List.reverse_cons, hc]⟩

theorem front_isPrefix (letters : List Char) : front letters <+: letters := by
  have hsuffix := List.dropWhile_suffix (· != '_') (l := letters.reverse)
  have hprefix := List.reverse_prefix.2 hsuffix
  rwa [List.reverse_reverse] at hprefix

/-- A text that ends with a number gets another one. -/
theorem renumberLetters_append {before : List Char} {n : Nat}
    (h : isMarked (before ++ '_' :: Nat.toDigits 10 n) = true) (σ : Nat → Nat) :
    renumberLetters σ (before ++ '_' :: Nat.toDigits 10 n) =
      before ++ '_' :: Nat.toDigits 10 (σ n) := by
  rw [renumberLetters, if_pos h, front_append (notMem_toDigits n),
    digits_append (notMem_toDigits n), Nat.ofDigitChars_ten_toDigits, List.append_assoc]
  rfl

theorem isMarked_append {before behind : List Char} (h : '_' ∉ behind) :
    isMarked (before ++ '_' :: behind) = marks.any (·.isPrefixOf (before ++ ['_'])) := by
  rw [isMarked, front_append h]

theorem renumberLetters_comp (σ τ : Nat → Nat) (letters : List Char) :
    renumberLetters τ (renumberLetters σ letters) = renumberLetters (τ ∘ σ) letters := by
  by_cases hmarked : isMarked letters = true
  · have hfront : ∃ before, front letters = before ++ ['_'] := by
      rcases front_cases letters with hnil | hline
      · rw [isMarked, hnil] at hmarked
        exact absurd hmarked (by decide)
      · exact hline
    obtain ⟨before, hbefore⟩ := hfront
    let n := Nat.ofDigitChars 10 (digits letters) 0
    have hletters (ρ : Nat → Nat) :
        renumberLetters ρ letters = before ++ '_' :: Nat.toDigits 10 (ρ n) := by
      rw [renumberLetters, if_pos hmarked, hbefore, List.append_assoc]
      rfl
    have hstill : isMarked (before ++ '_' :: Nat.toDigits 10 (σ n)) = true := by
      rw [isMarked_append (notMem_toDigits _), ← hbefore]
      exact hmarked
    rw [hletters, hletters, renumberLetters_append hstill]
    rfl
  · simp only [renumberLetters, if_neg hmarked]

theorem renumber_comp (σ τ : Nat → Nat) (text : String) :
    renumber τ (renumber σ text) = renumber (τ ∘ σ) text := by
  rw [renumber, renumber, String.toList_ofList, renumberLetters_comp]
  rfl

/-- The fingerprint of a variable gets another number. -/
theorem renumber_variable (mark : String) (h : mark.toList ∈ marks) (name : String) (n : Nat)
    (σ : Nat → Nat) :
    renumber σ (mark ++ name ++ "_" ++ toString n) = mark ++ name ++ "_" ++ toString (σ n) := by
  have hletters (m : Nat) : (mark ++ name ++ "_" ++ toString m).toList =
      (mark.toList ++ name.toList) ++ '_' :: Nat.toDigits 10 m := by
    simp [Nat.toString_eq_repr]
  have hmarked : isMarked ((mark.toList ++ name.toList) ++ '_' :: Nat.toDigits 10 n) = true := by
    rw [isMarked_append (notMem_toDigits n), List.any_eq_true]
    refine ⟨mark.toList, h, List.isPrefixOf_iff_prefix.2 ?_⟩
    rw [List.append_assoc]
    exact List.prefix_append ..
  rw [renumber, hletters, renumberLetters_append hmarked, ← hletters, String.ofList_toList]

/-- A text that does not begin like the fingerprint of a variable keeps its number. -/
theorem renumber_other {text : String} (h : ∀ mark ∈ marks, ¬ mark <+: text.toList)
    (σ : Nat → Nat) : renumber σ text = text := by
  have hmarked : isMarked text.toList = false := by
    rw [isMarked, List.any_eq_false]
    intro mark hmark hprefix
    exact h mark hmark ((List.isPrefixOf_iff_prefix.1 hprefix).trans (front_isPrefix _))
  rw [renumber, renumberLetters, hmarked, if_neg (by decide), String.ofList_toList]

/-- The fingerprints of functions, structures and types begin with other letters. -/
theorem renumber_of_head {text : String} {c : Char} (h : text.toList.head? = some c)
    (hc : c = 'F' ∨ c = 'S' ∨ c = 'T') (σ : Nat → Nat) : renumber σ text = text := by
  apply renumber_other
  obtain ⟨others, hletters⟩ := List.head?_eq_some_iff.1 h
  rw [hletters]
  rcases hc with rfl | rfl | rfl <;> simp [marks]

end Fingerprint

/-! ### Symbols -/

section

variable (σ : Nat → Nat)

def Variable.renumber (v : Variable) : Variable :=
  { v with id := σ v.id }

def FunctionSymbol.renumber (f : FunctionSymbol) : FunctionSymbol :=
  { f with parameters := f.parameters.map (Variable.renumber σ) }

def StructSymbol.renumber (s : StructSymbol) : StructSymbol :=
  { s with fields := s.fields.map (Variable.renumber σ) }

def PackageSymbol.renumber (p : PackageSymbol) : PackageSymbol :=
  { p with functions := p.functions.map (FunctionSymbol.renumber σ) }

/-- A symbol whose variables have other numbers. -/
def Symbol.renumber : Symbol → Symbol
  | .function f => .function (f.renumber σ)
  | .struct s => .struct (s.renumber σ)
  | .type t => .type t
  | .package p => .package (p.renumber σ)
  | .globalVariable v => .globalVariable (v.renumber σ)
  | .localVariable v => .localVariable (v.renumber σ)
  | .parameter v => .parameter (v.renumber σ)

def Region.renumber (r : Region) : Region :=
  ⟨r.symbols.map (Symbol.renumber σ)⟩

def Scope.renumber (s : Scope) : Scope :=
  ⟨s.inner.renumber σ, s.outer.map (Region.renumber σ)⟩

def Resolution.renumber (r : Resolution) : Resolution :=
  { r with fingerprint := r.fingerprint.map (Fingerprint.renumber σ) }

/-- What is found of a name with other numbers. Faults have none. -/
def Finding.renumber : Finding → Finding
  | .use r => .use (r.renumber σ)
  | .error e => .error e

def BoundFunction.renumber (f : BoundFunction) : BoundFunction :=
  ⟨f.symbol.renumber σ, f.locals.map (Symbol.renumber σ)⟩

@[simp] theorem Symbol.name_renumber (s : Symbol) : (s.renumber σ).name = s.name := by
  cases s <;> rfl

@[simp] theorem Symbol.asVariable?_renumber (s : Symbol) :
    (s.renumber σ).asVariable? = s.asVariable?.map (Variable.renumber σ) := by
  cases s <;> rfl

@[simp] theorem Symbol.asPackage?_renumber (s : Symbol) :
    (s.renumber σ).asPackage? = s.asPackage?.map (PackageSymbol.renumber σ) := by
  cases s <;> rfl

@[simp] theorem Symbol.asStruct?_renumber (s : Symbol) :
    (s.renumber σ).asStruct? = s.asStruct?.map (StructSymbol.renumber σ) := by
  cases s <;> rfl

@[simp] theorem FunctionSymbol.fingerprint_renumber (f : FunctionSymbol) :
    (f.renumber σ).fingerprint = f.fingerprint := by
  simp [fingerprint, renumber, Variable.renumber, Function.comp_def]

theorem FunctionSymbol.renumber_parameters_length (f : FunctionSymbol) :
    (f.renumber σ).parameters.length = f.parameters.length :=
  List.length_map _

@[simp] theorem Ty.renumber_fingerprint (t : Ty) :
    Fingerprint.renumber σ t.fingerprint = t.fingerprint :=
  Fingerprint.renumber_of_head t.fingerprint_head? (by simp) σ

@[simp] theorem FunctionSymbol.renumber_fingerprint (f : FunctionSymbol) :
    Fingerprint.renumber σ f.fingerprint = f.fingerprint := by
  apply Fingerprint.renumber_of_head (c := 'F') ?_ (by simp)
  rw [f.fingerprint_toList]
  rfl

@[simp] theorem TypeFunction.renumber_fingerprint (f : TypeFunction) :
    Fingerprint.renumber σ f.fingerprint = f.fingerprint := by
  apply Fingerprint.renumber_of_head (c := 'T') ?_ (by simp)
  simp [fingerprint]

@[simp] theorem StructSymbol.renumber_fingerprint (s : StructSymbol) :
    Fingerprint.renumber σ s.fingerprint = s.fingerprint := by
  apply Fingerprint.renumber_of_head (c := 'S') ?_ (by simp)
  simp [fingerprint]

@[simp] theorem StructSymbol.renumber_field (s : StructSymbol) (name : String) :
    Fingerprint.renumber σ (s.fingerprint ++ "." ++ name) = s.fingerprint ++ "." ++ name := by
  apply Fingerprint.renumber_of_head (c := 'S') ?_ (by simp)
  simp [fingerprint]

@[simp] theorem PackageSymbol.renumber_fingerprint (p : PackageSymbol) :
    Fingerprint.renumber σ p.fingerprint = p.fingerprint := by
  apply Fingerprint.renumber_other
  simp [fingerprint, Fingerprint.marks]

/-- The fingerprint of a symbol is renumbered with it. -/
theorem Symbol.fingerprint_renumber (s : Symbol) :
    (s.renumber σ).fingerprint = Fingerprint.renumber σ s.fingerprint := by
  cases s with
  | function f => exact (f.fingerprint_renumber σ).trans (f.renumber_fingerprint σ).symm
  | struct s => exact (s.renumber_fingerprint σ).symm
  | type t => exact (t.renumber_fingerprint σ).symm
  | package p => exact (p.renumber_fingerprint σ).symm
  | globalVariable v => exact (Fingerprint.renumber_variable "GV_" (by decide) ..).symm
  | localVariable v => exact (Fingerprint.renumber_variable "LV_" (by decide) ..).symm
  | parameter v => exact (Fingerprint.renumber_variable "PR_" (by decide) ..).symm

@[simp] theorem Finding.renumber_fault (f : SemanticFault) (span : Span) :
    (fault f span).renumber σ = fault f span := rfl

@[simp] theorem Finding.renumber_unresolved (name : Ident) :
    (unresolved name).renumber σ = unresolved name := rfl

@[simp] theorem Finding.renumber_resolved (name : Ident) (fingerprint : String) :
    (resolved name fingerprint).renumber σ =
      resolved name (Fingerprint.renumber σ fingerprint) := rfl

end

/-! ### One renumbering after another -/

section

variable (σ τ : Nat → Nat)

theorem Variable.renumber_comp (v : Variable) :
    (v.renumber σ).renumber τ = v.renumber (τ ∘ σ) := rfl

theorem FunctionSymbol.renumber_comp (f : FunctionSymbol) :
    (f.renumber σ).renumber τ = f.renumber (τ ∘ σ) := by
  simp [renumber, Variable.renumber]

theorem StructSymbol.renumber_comp (s : StructSymbol) :
    (s.renumber σ).renumber τ = s.renumber (τ ∘ σ) := by
  simp [renumber, Variable.renumber]

theorem PackageSymbol.renumber_comp (p : PackageSymbol) :
    (p.renumber σ).renumber τ = p.renumber (τ ∘ σ) := by
  simp [renumber, FunctionSymbol.renumber_comp]

theorem Symbol.renumber_comp (s : Symbol) : (s.renumber σ).renumber τ = s.renumber (τ ∘ σ) := by
  cases s with
  | function f => exact congrArg _ (f.renumber_comp σ τ)
  | struct s => exact congrArg _ (s.renumber_comp σ τ)
  | type t => rfl
  | package p => exact congrArg _ (p.renumber_comp σ τ)
  | globalVariable v | localVariable v | parameter v => rfl

theorem Region.renumber_comp (r : Region) : (r.renumber σ).renumber τ = r.renumber (τ ∘ σ) := by
  simp [renumber, Symbol.renumber_comp]

theorem Scope.renumber_comp (s : Scope) : (s.renumber σ).renumber τ = s.renumber (τ ∘ σ) := by
  simp [renumber, Region.renumber_comp]

theorem Finding.renumber_comp (f : Finding) : (f.renumber σ).renumber τ = f.renumber (τ ∘ σ) := by
  cases f with
  | use r => simp [renumber, Resolution.renumber, Function.comp_def, Fingerprint.renumber_comp]
  | error e => rfl

theorem BoundFunction.renumber_comp (f : BoundFunction) :
    (f.renumber σ).renumber τ = f.renumber (τ ∘ σ) := by
  simp [renumber, FunctionSymbol.renumber_comp, Symbol.renumber_comp]

end

/-! ### Regions and scopes -/

section

variable (σ : Nat → Nat)

namespace Region

theorem lookup?_renumber (r : Region) (name : String) :
    (r.renumber σ).lookup? name = (r.lookup? name).map (Symbol.renumber σ) :=
  lookup?_map (Symbol.name_renumber σ) r name

theorem map_insertSorted (s : Symbol) (l : List Symbol) :
    (insertSorted s l).map (Symbol.renumber σ) =
      insertSorted (s.renumber σ) (l.map (Symbol.renumber σ)) :=
  (insertSorted_map (Symbol.name_renumber σ) s l).symm

theorem setFields_renumber (r : Region) (name : String) (fields : List Variable) :
    (r.setFields name fields).renumber σ =
      (r.renumber σ).setFields name (fields.map (Variable.renumber σ)) := by
  simp only [setFields, renumber, List.map_map]
  congr 1
  apply List.map_congr_left
  intro symbol _
  cases symbol with
  | struct s =>
    by_cases hname : s.name = name
    · simp [Symbol.renumber, StructSymbol.renumber, hname]
    · simp [Symbol.renumber, StructSymbol.renumber, hname]
  | _ => rfl

end Region

namespace Scope

theorem declare?_renumber (s : Scope) (symbol : Symbol) :
    (s.renumber σ).declare? (symbol.renumber σ) = (s.declare? symbol).map (Scope.renumber σ) :=
  declare?_map (Symbol.name_renumber σ) s symbol

theorem lookup?_renumber (s : Scope) (name : String) :
    (s.renumber σ).lookup? name = (s.lookup? name).map (Symbol.renumber σ) :=
  lookup?_map (Symbol.name_renumber σ) s name

theorem lookupVariable?_renumber (s : Scope) (name : String) :
    (s.renumber σ).lookupVariable? name =
      (s.lookupVariable? name).map (Variable.renumber σ) := by
  rw [lookupVariable?, lookupVariable?, lookup?_renumber]
  cases s.lookup? name <;> simp

theorem lookupPackage?_renumber (s : Scope) (name : String) :
    (s.renumber σ).lookupPackage? name =
      (s.lookupPackage? name).map (PackageSymbol.renumber σ) := by
  rw [lookupPackage?, lookupPackage?, lookup?_renumber]
  cases s.lookup? name <;> simp

theorem lookupStruct?_renumber (s : Scope) (name : String) :
    (s.renumber σ).lookupStruct? name = (s.lookupStruct? name).map (StructSymbol.renumber σ) := by
  rw [lookupStruct?, lookupStruct?, lookup?_renumber]
  cases s.lookup? name <;> simp

theorem structOf?_renumber (s : Scope) (type : Ty) :
    (s.renumber σ).structOf? type = (s.structOf? type).map (StructSymbol.renumber σ) := by
  rw [structOf?, structOf?]
  cases type.structName with
  | none => rfl
  | some name => exact s.lookupStruct?_renumber σ name

theorem program_renumber (s : Scope) : (s.renumber σ).program = s.program.renumber σ :=
  program_map s

/-! ### Types -/

theorem namedType_renumber (s : Scope) (package : Option Ident) (name : Ident)
    (arguments : List Ty) :
    (s.renumber σ).namedType package name arguments = s.namedType package name arguments := by
  unfold namedType
  cases package with
  | some package =>
    dsimp only
    rw [lookupPackage?_renumber]
    cases s.lookupPackage? package.name <;> rfl
  | none =>
    dsimp only
    rw [lookup?_renumber]
    cases s.lookup? name.name with
    | none => rfl
    | some symbol => cases symbol <;> rfl

mutual

/-- Types have no numbers. -/
theorem lookupType_renumber (s : Scope) (clause : TypeClause) :
    (s.renumber σ).lookupType clause = s.lookupType clause := by
  cases clause with
  | mk package name arguments closing =>
    unfold lookupType
    rw [lookupTypes_renumber s arguments]
    simp only [namedType_renumber]

theorem lookupTypes_renumber (s : Scope) (clauses : List TypeClause) :
    lookupTypes (s.renumber σ) clauses = lookupTypes s clauses := by
  cases clauses with
  | nil => rfl
  | cons clause others =>
    unfold lookupTypes
    rw [lookupType_renumber s clause, lookupTypes_renumber s others]

end

theorem resolveType_renumber (s : Scope) (clause : TypeClause) :
    (s.renumber σ).resolveType clause = s.resolveType clause := by
  simp only [resolveType, lookupType_renumber]

@[simp] theorem map_resolveType (s : Scope) (clause : TypeClause) :
    (s.resolveType clause).2.map (Finding.renumber σ) = (s.resolveType clause).2 := by
  unfold resolveType
  cases s.lookupType clause with
  | ok type => simp
  | error e => rfl

theorem variableType_renumber (s : Scope) (name : Ident) :
    (s.renumber σ).variableType name = s.variableType name := by
  rw [variableType, variableType, lookupVariable?_renumber]
  cases s.lookupVariable? name.name <;> rfl

theorem clauseType_renumber (s : Scope) (clause : TypeClause) :
    (s.renumber σ).clauseType clause = s.clauseType clause := by
  rw [clauseType, clauseType, lookupType_renumber]

theorem callType_renumber (s : Scope) (callee : Ident) :
    (s.renumber σ).callType callee = s.callType callee := by
  rw [callType, callType, lookup?_renumber]
  cases s.lookup? callee.name with
  | none => rfl
  | some symbol => cases symbol <;> rfl

theorem function?_renumber (p : PackageSymbol) (name : String) :
    (p.renumber σ).function? name = (p.function? name).map (FunctionSymbol.renumber σ) := by
  rw [PackageSymbol.function?, PackageSymbol.renumber, List.find?_map]
  rfl

theorem packageCallType_renumber (s : Scope) (package callee : Ident) :
    (s.renumber σ).packageCallType package callee = s.packageCallType package callee := by
  rw [packageCallType, packageCallType, lookupPackage?_renumber]
  cases s.lookupPackage? package.name with
  | none => rfl
  | some p =>
    simp only [Option.map_some, Option.bind_some, function?_renumber]
    cases p.function? callee.name <;> rfl

theorem field?_renumber (s : StructSymbol) (name : String) :
    (s.renumber σ).field? name = (s.field? name).map (Variable.renumber σ) := by
  rw [StructSymbol.field?, StructSymbol.renumber, List.find?_map]
  rfl

theorem fieldType_renumber (s : Scope) (object field : Ident) :
    (s.renumber σ).fieldType object field = s.fieldType object field := by
  rw [fieldType, fieldType, variableType_renumber, structOf?_renumber]
  cases s.structOf? (s.variableType object) with
  | none => rfl
  | some owner =>
    simp only [Option.map_some, Option.bind_some, field?_renumber]
    cases owner.field? field.name <;> rfl

/-- What type an expression has does not depend on numbers. -/
theorem inferType_renumber (functions : List TypeFunction) (s : Scope) (e : Expression) :
    (s.renumber σ).inferType functions e = s.inferType functions e := by
  cases e with
  | literal token => rfl
  | this keyword => rfl
  | parenthesized opening inner closing => exact inferType_renumber functions s inner
  | name n => exact s.variableType_renumber σ n
  | assignment target value => exact inferType_renumber functions s value
  | call callee arguments closing => exact s.callType_renumber σ callee
  | cast type arguments closing => exact s.clauseType_renumber σ type
  | packageCall package callee arguments closing =>
    exact s.packageCallType_renumber σ package callee
  | typeCall receiver callee arguments closing =>
    simp only [inferType, variableType_renumber]
  | unary operator operand => simp only [inferType, inferType_renumber functions s operand]
  | binary left operator right => simp only [inferType, inferType_renumber functions s left]
  | edit target operator value => exact s.variableType_renumber σ target
  | step target operator => exact s.variableType_renumber σ target
  | fieldAccess object field => exact s.fieldType_renumber σ object field
  | fieldAssignment object field value => rfl
  | arrayAccess array index closing =>
    simp only [inferType, inferType_renumber functions s array]
  | arrayAssignment array index value => rfl
  | reference ampersand n => simp only [inferType, variableType_renumber]
  | dereference star operand => simp only [inferType, inferType_renumber functions s operand]
  | make keyword type arguments closing => exact s.clauseType_renumber σ type
  | makeSized keyword type length closing => exact s.clauseType_renumber σ type
  | makeArray keyword type elements closing => exact s.clauseType_renumber σ type
  | makeStruct keyword type fields closing => exact s.clauseType_renumber σ type
  | main keyword inner =>
    have hprogram := inferType_renumber functions s.program inner
    rw [← program_renumber] at hprogram
    cases inner with
    | assignment target value => exact inferType_renumber functions s value
    | _ => exact hprogram

/-! ### What is found -/

theorem useName_renumber (s : Scope) (name : Ident) :
    (s.renumber σ).useName name = (s.useName name).map (Finding.renumber σ) := by
  rw [useName, useName, lookup?_renumber]
  cases s.lookup? name.name with
  | none => rfl
  | some symbol => simp [Symbol.fingerprint_renumber]

theorem useTarget_renumber (s : Scope) (target : Ident) :
    (s.renumber σ).useTarget target = (s.useTarget target).map (Finding.renumber σ) := by
  rw [useTarget, useTarget, lookup?_renumber]
  cases s.lookup? target.name with
  | none => rfl
  | some symbol =>
    have hreadOnly : ((symbol.renumber σ).asVariable?.any Variable.readOnly) =
        symbol.asVariable?.any Variable.readOnly := by
      cases symbol <;> rfl
    simp only [Option.map_some, hreadOnly, Symbol.fingerprint_renumber, List.map_cons,
      Finding.renumber_resolved]
    split <;> rfl

@[simp] theorem map_checkCount (name : String) (expected found : Nat) (span : Span) :
    (checkCount name expected found span).map (Finding.renumber σ) =
      checkCount name expected found span := by
  unfold checkCount
  split <;> rfl

theorem useCallee_renumber (s : Scope) (callee : Ident) (count : Nat) :
    (s.renumber σ).useCallee callee count =
      (s.useCallee callee count).map (Finding.renumber σ) := by
  rw [useCallee, useCallee, lookup?_renumber]
  cases s.lookup? callee.name with
  | none => rfl
  | some symbol =>
    cases symbol with
    | function f => simp [Symbol.renumber, FunctionSymbol.renumber_parameters_length]
    | type t => simp [Symbol.renumber]
    | _ => rfl

theorem usePackageFunction_renumber (p : PackageSymbol) (package callee : Ident) (count : Nat) :
    usePackageFunction (p.renumber σ) package callee count =
      (usePackageFunction p package callee count).map (Finding.renumber σ) := by
  rw [usePackageFunction, usePackageFunction, function?_renumber]
  cases p.function? callee.name with
  | none =>
    dsimp only [Option.map_none]
    change (if p.isResolved then _ else _) = _
    split <;> rfl
  | some f => simp [FunctionSymbol.renumber_parameters_length]

theorem usePackageCall_renumber (s : Scope) (package callee : Ident) (count : Nat) :
    (s.renumber σ).usePackageCall package callee count =
      (s.usePackageCall package callee count).map (Finding.renumber σ) := by
  rw [usePackageCall, usePackageCall, lookupPackage?_renumber]
  cases s.lookupPackage? package.name with
  | none => rfl
  | some p =>
    have hname : (p.renumber σ).fingerprint = p.fingerprint := rfl
    simp [usePackageFunction_renumber, hname]

theorem map_useTypeFunction (functions : List TypeFunction) (type : Ty) (callee : Ident)
    (count : Nat) :
    (useTypeFunction functions type callee count).map (Finding.renumber σ) =
      useTypeFunction functions type callee count := by
  unfold useTypeFunction
  cases findTypeFunction? functions type callee.name with
  | some f => simp
  | none =>
    dsimp only
    split <;> rfl

theorem receiverType?_renumber (s : Symbol) : receiverType? (s.renumber σ) = receiverType? s := by
  cases s <;> rfl

theorem useTypeCall_renumber (functions : List TypeFunction) (s : Scope) (receiver callee : Ident)
    (count : Nat) :
    useTypeCall functions (s.renumber σ) receiver callee count =
      (useTypeCall functions s receiver callee count).map (Finding.renumber σ) := by
  rw [useTypeCall, useTypeCall, lookup?_renumber]
  cases s.lookup? receiver.name with
  | none => rfl
  | some symbol =>
    simp only [Option.map_some, receiverType?_renumber, List.map_cons, Finding.renumber_resolved,
      Symbol.fingerprint_renumber]
    cases receiverType? symbol with
    | none => rfl
    | some type => simp only [map_useTypeFunction]

theorem useStructField_renumber (owner : StructSymbol) (field : Ident) :
    useStructField (owner.renumber σ) field =
      (useStructField owner field).map (Finding.renumber σ) := by
  simp only [useStructField, field?_renumber, Option.isSome_map]
  split
  · simp only [List.map_cons, List.map_nil, Finding.renumber_resolved,
      StructSymbol.renumber_field]
    rfl
  · rfl

theorem useField_renumber (s : Scope) (object field : Ident) :
    (s.renumber σ).useField object field =
      (s.useField object field).map (Finding.renumber σ) := by
  rw [useField, useField, lookup?_renumber]
  cases s.lookup? object.name with
  | none => rfl
  | some symbol =>
    have htype : ((symbol.renumber σ).asVariable?.map Variable.type) =
        symbol.asVariable?.map Variable.type := by
      cases symbol <;> rfl
    simp only [Option.map_some, List.map_cons, Finding.renumber_resolved,
      Symbol.fingerprint_renumber, htype]
    cases symbol.asVariable?.map Variable.type with
    | none => rfl
    | some type =>
      simp only [Option.bind_some, structOf?_renumber]
      cases s.structOf? type with
      | none => rfl
      | some owner => simp only [Option.map_some, useStructField_renumber]

theorem useType_renumber (s : Scope) (clause : TypeClause) :
    (s.renumber σ).useType clause = (s.useType clause).map (Finding.renumber σ) := by
  rw [useType, useType, resolveType_renumber, map_resolveType]

theorem checkFields_renumber (s : Scope) (clause : TypeClause) (count : Nat) (span : Span) :
    (s.renumber σ).checkFields clause count span =
      (s.checkFields clause count span).map (Finding.renumber σ) := by
  rw [checkFields, checkFields, resolveType_renumber, structOf?_renumber]
  cases s.structOf? (s.resolveType clause).1 with
  | none => rfl
  | some target =>
    simp only [Option.map_some, StructSymbol.renumber, List.length_map]
    split
    · rfl
    · exact (map_checkCount ..).symm

mutual

/-- What is found in an expression is renumbered with the scope. -/
theorem bindExpression_renumber (functions : List TypeFunction) (s : Scope) (e : Expression) :
    bindExpression functions (s.renumber σ) e =
      (bindExpression functions s e).map (Finding.renumber σ) := by
  cases e with
  | literal token => rfl
  | this keyword => rfl
  | parenthesized opening inner closing => exact bindExpression_renumber functions s inner
  | name n => exact s.useName_renumber σ n
  | assignment target value =>
    simp only [bindExpression, bindExpression_renumber functions s value, useTarget_renumber,
      List.map_append]
  | call callee arguments closing =>
    simp only [bindExpression, bindExpressions_renumber functions s arguments,
      useCallee_renumber, List.map_append]
  | cast type arguments closing =>
    simp only [bindExpression, bindExpressions_renumber functions s arguments, useType_renumber,
      List.map_append]
  | packageCall package callee arguments closing =>
    simp only [bindExpression, bindExpressions_renumber functions s arguments,
      usePackageCall_renumber, List.map_append]
  | typeCall receiver callee arguments closing =>
    simp only [bindExpression, bindExpressions_renumber functions s arguments,
      useTypeCall_renumber, List.map_append]
  | unary operator operand => exact bindExpression_renumber functions s operand
  | binary left operator right =>
    simp only [bindExpression, bindExpression_renumber functions s left,
      bindExpression_renumber functions s right, List.map_append]
  | edit target operator value =>
    simp only [bindExpression, bindExpression_renumber functions s value, useTarget_renumber,
      List.map_append]
  | step target operator => exact s.useTarget_renumber σ target
  | fieldAccess object field => exact s.useField_renumber σ object field
  | fieldAssignment object field value =>
    simp only [bindExpression, bindExpression_renumber functions s value, useField_renumber,
      List.map_append]
  | arrayAccess array index closing =>
    simp only [bindExpression, bindExpression_renumber functions s array,
      bindExpression_renumber functions s index, List.map_append]
  | arrayAssignment array index value =>
    simp only [bindExpression, bindExpression_renumber functions s array,
      bindExpression_renumber functions s index, bindExpression_renumber functions s value,
      List.map_append]
  | reference ampersand n => exact s.useName_renumber σ n
  | dereference star operand => exact bindExpression_renumber functions s operand
  | make keyword type arguments closing =>
    simp only [bindExpression, bindExpressions_renumber functions s arguments, useType_renumber,
      List.map_append]
  | makeSized keyword type length closing =>
    simp only [bindExpression, bindExpression_renumber functions s length, useType_renumber,
      List.map_append]
  | makeArray keyword type elements closing =>
    simp only [bindExpression, bindExpressions_renumber functions s elements, useType_renumber,
      List.map_append]
  | makeStruct keyword type fields closing =>
    simp only [bindExpression, bindExpressions_renumber functions s fields, useType_renumber,
      checkFields_renumber, List.map_append]
  | main keyword inner =>
    have hprogram := bindExpression_renumber functions s.program inner
    rw [← program_renumber] at hprogram
    cases inner with
    | call callee arguments closing =>
      simp only [bindExpression, bindExpressions_renumber functions s arguments,
        program_renumber, useCallee_renumber, List.map_append]
    | assignment target value =>
      simp only [bindExpression, bindExpression_renumber functions s value, program_renumber,
        useTarget_renumber, List.map_append]
    | _ => exact hprogram

theorem bindExpressions_renumber (functions : List TypeFunction) (s : Scope)
    (es : List Expression) :
    bindExpressions functions (s.renumber σ) es =
      (bindExpressions functions s es).map (Finding.renumber σ) := by
  cases es with
  | nil => rfl
  | cons e others =>
    simp only [bindExpressions, bindExpression_renumber functions s e,
      bindExpressions_renumber functions s others, List.map_append]

end

end Scope

end

end TodLang
