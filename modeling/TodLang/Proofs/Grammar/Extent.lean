import TodLang.Proofs.Grammar.Spelling
/-!
How far a spelling goes. But for the commas that may stand behind the last of some expressions and
the semicolons that may stand behind statements, the tree says how many tokens spell it; so the
tokens behind what spells an expression are known from the tree alone. Two spellings of one
expression that begin the same rows of tokens are the same.
-/

namespace TodLang

/-- The tokens behind a comma, if one comes next. -/
def behindComma (tokens : List Token) : List Token :=
  if nextKind tokens = some (.sign .comma) then tokens.drop 1 else tokens

mutual

/-- The tokens behind those that spell a type, if some come next. -/
def TypeClause.behind (c : TypeClause) (tokens : List Token) : List Token :=
  match c with
  | ⟨package, _, arguments, closing⟩ =>
    let named := tokens.drop (if package.isSome then 3 else 1)
    match closing with
    | none => named
    | some _ => (TypeClause.behindAll arguments (named.drop 1)).drop 1

def TypeClause.behindAll (cs : List TypeClause) (tokens : List Token) : List Token :=
  match cs with
  | [] => tokens
  | c :: others => TypeClause.behindAll others (behindComma (c.behind tokens))

end

mutual

/-- The tokens behind those that spell an expression, if some come next. -/
def Expression.behind (e : Expression) (tokens : List Token) : List Token :=
  match e with
  | .literal _ | .name _ | .this _ => tokens.drop 1
  | .reference _ _ => tokens.drop 2
  | .step _ _ | .fieldAccess _ _ => tokens.drop 3
  | .unary _ inner | .dereference _ inner | .main _ inner => inner.behind (tokens.drop 1)
  | .parenthesized _ inner _ => (inner.behind (tokens.drop 1)).drop 1
  | .assignment _ value | .edit _ _ value => value.behind (tokens.drop 2)
  | .fieldAssignment _ _ value => value.behind (tokens.drop 4)
  | .binary left _ right => right.behind ((left.behind tokens).drop 1)
  | .arrayAccess array index _ => (index.behind ((array.behind tokens).drop 1)).drop 1
  | .arrayAssignment array index value =>
    value.behind ((index.behind ((array.behind tokens).drop 1)).drop 2)
  | .call _ arguments _ => (Expression.behindAll arguments (tokens.drop 2)).drop 1
  | .packageCall _ _ arguments _ | .typeCall _ _ arguments _ =>
    (Expression.behindAll arguments (tokens.drop 4)).drop 1
  | .cast type arguments _ => (Expression.behindAll arguments ((type.behind tokens).drop 1)).drop 1
  | .makeSized _ type length _ => (length.behind ((type.behind (tokens.drop 1)).drop 1)).drop 1
  | .make _ type parts _ | .makeArray _ type parts _ | .makeStruct _ type parts _ =>
    (Expression.behindAll parts ((type.behind (tokens.drop 1)).drop 1)).drop 1

def Expression.behindAll (es : List Expression) (tokens : List Token) : List Token :=
  match es with
  | [] => tokens
  | e :: others => Expression.behindAll others (behindComma (e.behind tokens))

end

/-! ### Types -/

section

variable {t : Token} {rest : List Token}

theorem behindComma_of_comma (h : t.kind = .sign .comma) : behindComma (t :: rest) = rest := by
  simp [behindComma, nextKind, kindAt, h]

theorem behindComma_of_ne (h : nextKind rest ≠ some (.sign .comma)) : behindComma rest = rest :=
  if_neg h

theorem nextKind_ne_comma {sign : Sign} (h : t.kind = .sign sign) (hsign : sign ≠ .comma)
    (rest : List Token) : nextKind (t :: rest) ≠ some (.sign .comma) := by
  simpa [nextKind, kindAt, h] using hsign

theorem QualifiedSpelling.behind {package : Option Ident} {name : Ident} {tokens : List Token}
    (h : QualifiedSpelling package name tokens) (rest : List Token) :
    (tokens ++ rest).drop (if package.isSome then 3 else 1) = rest := by
  rcases h with ⟨⟨_⟩⟩ | ⟨⟨_⟩, ⟨_⟩, ⟨_⟩⟩ <;> rfl

/-- What is behind tokens that spell where types are written. Behind several types no comma may
come next, for it would be theirs. -/
def TypePart.Ends (tokens : List Token) : TypePart → Prop
  | clause c => ∀ rest, c.behind (tokens ++ rest) = rest
  | clauses cs => ∀ rest, nextKind rest ≠ some (.sign .comma) →
      TypeClause.behindAll cs (tokens ++ rest) = rest

theorem SpellsType.ends {part : TypePart} {tokens : List Token} (h : SpellsType part tokens) :
    part.Ends tokens := by
  induction h with
  | plain hname =>
    intro rest
    rw [TypeClause.behind]
    exact hname.behind rest
  | generic hname hopening _ hclosing ih =>
    intro rest
    obtain ⟨hopening⟩ := hopening
    obtain ⟨hclosing⟩ := hclosing
    simp only [TypeClause.behind, List.append_assoc, hname.behind]
    simp only [List.cons_append, List.nil_append, List.drop_succ_cons, List.drop_zero]
    rw [ih _ (by simp [nextKind, kindAt, hclosing])]
    rfl
  | last _ ih =>
    intro rest hrest
    rw [TypeClause.behindAll, ih, behindComma_of_ne hrest, TypeClause.behindAll]
  | more _ hcomma _ ih ihothers =>
    intro rest hrest
    obtain ⟨hcomma⟩ := hcomma
    rw [List.append_assoc, List.append_assoc, TypeClause.behindAll, ih, List.singleton_append,
      behindComma_of_comma hcomma]
    exact ihothers rest hrest

theorem TypeSpelling.behind {type : TypeClause} {tokens : List Token} (h : TypeSpelling type tokens)
    (rest : List Token) : type.behind (tokens ++ rest) = rest :=
  SpellsType.ends h rest

end

/-! ### Expressions -/

/-- What is behind tokens that spell where expressions are written. Behind several expressions no
comma may come next, for it would be theirs. -/
def ExpressionPart.Ends (tokens : List Token) : ExpressionPart → Prop
  | expression e | operation _ e | operand e | accessed e | primary e | own e =>
    ∀ rest, e.behind (tokens ++ rest) = rest
  | arguments es => ∀ rest, nextKind rest ≠ some (.sign .comma) →
      Expression.behindAll es (tokens ++ rest) = rest

theorem SpellsExpression.ends {part : ExpressionPart} {tokens : List Token}
    (h : SpellsExpression part tokens) : part.Ends tokens := by
  induction h with
  | operation _ ih | operand _ ih | accessed _ ih | primary _ ih => exact ih
  | ownCall _ ih | ownAssignment _ ih => exact ih
  | literal _ => exact fun _ => rfl
  | this h | name h | ownName h =>
    obtain ⟨_⟩ := h
    exact fun _ => rfl
  | reference hfront hback =>
    obtain ⟨_⟩ := hfront
    obtain ⟨_⟩ := hback
    exact fun _ => rfl
  | step htarget _ _ _ _ =>
    obtain ⟨_⟩ := htarget
    exact fun _ => rfl
  | fieldAccess hobject hperiod hfield =>
    obtain ⟨_⟩ := hobject
    obtain ⟨_⟩ := hperiod
    obtain ⟨_⟩ := hfield
    exact fun _ => rfl
  | unary hfront _ _ _ ih | dereference hfront _ ih =>
    obtain ⟨_⟩ := hfront
    exact fun rest => ih rest
  | main _ _ _ _ _ ih => exact fun rest => ih rest
  | assignment htarget hsign _ ih | edit htarget hsign _ _ ih =>
    obtain ⟨_⟩ := htarget
    obtain ⟨_⟩ := hsign
    exact fun rest => ih rest
  | fieldAssignment hobject hperiod hfield hsign _ ih =>
    obtain ⟨_⟩ := hobject
    obtain ⟨_⟩ := hperiod
    obtain ⟨_⟩ := hfield
    obtain ⟨_⟩ := hsign
    exact fun rest => ih rest
  | parenthesized hopening _ hclosing ih =>
    intro rest
    obtain ⟨_⟩ := hopening
    obtain ⟨_⟩ := hclosing
    simp [Expression.behind, ih _]
  | binary _ _ hoperator _ ihleft ihright =>
    intro rest
    obtain ⟨_⟩ := hoperator
    simp [Expression.behind, ihleft _, ihright _]
  | arrayAccess _ hopening _ hclosing iharray ihindex =>
    intro rest
    obtain ⟨_⟩ := hopening
    obtain ⟨_⟩ := hclosing
    simp [Expression.behind, iharray _, ihindex _]
  | arrayAssignment _ hopening _ hclosing hsign _ iharray ihindex ihvalue =>
    intro rest
    obtain ⟨_⟩ := hopening
    obtain ⟨_⟩ := hclosing
    obtain ⟨_⟩ := hsign
    simp [Expression.behind, iharray _, ihindex _, ihvalue _]
  | element harray hopening _ hclosing ih =>
    intro rest
    obtain ⟨_⟩ := harray
    obtain ⟨_⟩ := hopening
    obtain ⟨_⟩ := hclosing
    simp [Expression.behind, ih _]
  | elementAssignment harray hopening _ hclosing hsign _ ihindex ihvalue =>
    intro rest
    obtain ⟨_⟩ := harray
    obtain ⟨_⟩ := hopening
    obtain ⟨_⟩ := hclosing
    obtain ⟨_⟩ := hsign
    simp [Expression.behind, ihindex _, ihvalue _]
  | call hcallee hopening _ hclosing ih =>
    intro rest
    obtain ⟨_⟩ := hcallee
    obtain ⟨_⟩ := hopening
    obtain ⟨hclosing⟩ := hclosing
    simp [Expression.behind, ih _ (nextKind_ne_comma hclosing (by decide) rest)]
  | packageCall hfront hsign hcallee hopening _ hclosing ih
  | typeCall hfront hsign hcallee hopening _ hclosing ih =>
    intro rest
    obtain ⟨_⟩ := hfront
    obtain ⟨_⟩ := hsign
    obtain ⟨_⟩ := hcallee
    obtain ⟨_⟩ := hopening
    obtain ⟨hclosing⟩ := hclosing
    simp [Expression.behind, ih _ (nextKind_ne_comma hclosing (by decide) rest)]
  | cast htype _ hopening _ hclosing ih =>
    intro rest
    obtain ⟨_⟩ := hopening
    obtain ⟨hclosing⟩ := hclosing
    simp [Expression.behind, htype.behind, ih _ (nextKind_ne_comma hclosing (by decide) rest)]
  | makeSized hkeyword htype _ hopening _ hclosing ih =>
    intro rest
    obtain ⟨_⟩ := hkeyword
    obtain ⟨_⟩ := hopening
    obtain ⟨_⟩ := hclosing
    simp [Expression.behind, htype.behind, ih _]
  | make hkeyword htype _ hopening _ hclosing ih
  | makeArray hkeyword htype _ hopening _ hclosing ih
  | makeStruct hkeyword htype _ hopening _ hclosing ih =>
    intro rest
    obtain ⟨_⟩ := hkeyword
    obtain ⟨_⟩ := hopening
    obtain ⟨hclosing⟩ := hclosing
    simp [Expression.behind, htype.behind, ih _ (nextKind_ne_comma hclosing (by decide) rest)]
  | none => exact fun _ _ => rfl
  | last _ ih =>
    intro rest hrest
    rw [Expression.behindAll, ih, behindComma_of_ne hrest, Expression.behindAll]
  | more _ hcomma _ ih ihothers =>
    intro rest hrest
    obtain ⟨hcomma⟩ := hcomma
    rw [List.append_assoc, List.append_assoc, Expression.behindAll, ih, List.singleton_append,
      behindComma_of_comma hcomma]
    exact ihothers rest hrest

theorem ExpressionSpelling.behind {e : Expression} {tokens : List Token}
    (h : ExpressionSpelling e tokens) (rest : List Token) : e.behind (tokens ++ rest) = rest :=
  SpellsExpression.ends h rest

/-! ### Declarations, conditions and parameters -/

section

variable {α : Type} {spells : α → List Token → Prop} {past : α → List Token → List Token}
  {tokens : List Token}

/-- The tokens behind those that spell what may be missing. -/
def behindOptional (past : α → List Token → List Token) (value : Option α)
    (tokens : List Token) : List Token :=
  match value with
  | none => tokens
  | some value => past value tokens

/-- The tokens behind those that spell some pieces with commas between them. -/
def behindEach (past : α → List Token → List Token) (values : List α) (tokens : List Token) :
    List Token :=
  match values with
  | [] => tokens
  | value :: others => behindEach past others (behindComma (past value tokens))

variable (hspells : ∀ value front, spells value front → ∀ rest, past value (front ++ rest) = rest)
include hspells

theorem Optionally.behind {value : Option α} (h : Optionally spells value tokens)
    (rest : List Token) : behindOptional past value (tokens ++ rest) = rest := by
  cases h with
  | missing => rfl
  | present h => exact hspells _ _ h rest

theorem Separated.behind {values : List α} (h : Separated spells values tokens) {rest : List Token}
    (hrest : nextKind rest ≠ some (.sign .comma)) :
    behindEach past values (tokens ++ rest) = rest := by
  induction h with
  | last h => rw [behindEach, hspells _ _ h, behindComma_of_ne hrest, behindEach]
  | more h hcomma _ ih =>
    obtain ⟨hcomma⟩ := hcomma
    rw [List.append_assoc, List.append_assoc, behindEach, hspells _ _ h, List.singleton_append,
      behindComma_of_comma hcomma]
    exact ih

theorem Listed.behind {values : List α} (h : Listed spells values tokens) {rest : List Token}
    (hrest : nextKind rest ≠ some (.sign .comma)) :
    behindEach past values (tokens ++ rest) = rest := by
  induction h with
  | none => rfl
  | last h => rw [behindEach, hspells _ _ h, behindComma_of_ne hrest, behindEach]
  | more h hcomma _ ih =>
    obtain ⟨hcomma⟩ := hcomma
    rw [List.append_assoc, List.append_assoc, behindEach, hspells _ _ h, List.singleton_append,
      behindComma_of_comma hcomma]
    exact ih

end

section

variable {tokens : List Token}

theorem InitialSpelling.behind {value : Expression} (h : InitialSpelling value tokens)
    (rest : List Token) : value.behind ((tokens ++ rest).drop 1) = rest := by
  obtain ⟨⟨_⟩, hvalue⟩ := h
  exact hvalue.behind rest

theorem VariableWordSpelling.behind {word : Span × Bool} (h : VariableWordSpelling word tokens)
    (rest : List Token) : (tokens ++ rest).drop 1 = rest := by
  rcases h with ⟨⟨_⟩⟩ | ⟨⟨_⟩⟩ <;> rfl

/-- The tokens behind those that spell a declaration. -/
def VariableDeclaration.behind (d : VariableDeclaration) (tokens : List Token) : List Token :=
  behindOptional (fun value tokens => value.behind (tokens.drop 1)) d.value
    ((behindOptional TypeClause.behind d.type (tokens.drop 1)).drop 1)

theorem DeclarationSpelling.behind {d : VariableDeclaration} (h : DeclarationSpelling d tokens)
    (rest : List Token) : d.behind (tokens ++ rest) = rest := by
  obtain ⟨hkeyword, htype, ⟨_⟩, hvalue⟩ := h
  simp only [VariableDeclaration.behind, List.append_assoc, hkeyword.behind]
  rw [htype.behind fun _ _ h => TypeSpelling.behind h]
  exact hvalue.behind (fun _ _ h => h.behind) rest

theorem ConditionSpelling.behind {condition : Expression} (h : ConditionSpelling condition tokens)
    (rest : List Token) : (condition.behind ((tokens ++ rest).drop 1)).drop 1 = rest := by
  obtain ⟨⟨_⟩, hcondition, ⟨_⟩⟩ := h
  simp [hcondition.behind]

/-- The tokens behind those that spell a parameter. -/
def Parameter.behind (p : Parameter) (tokens : List Token) : List Token :=
  p.type.behind (tokens.drop 1)

theorem ParameterSpelling.behind {p : Parameter} (h : ParameterSpelling p tokens)
    (rest : List Token) : p.behind (tokens ++ rest) = rest := by
  obtain ⟨⟨_⟩, htype⟩ := h
  exact htype.behind rest

theorem ParameterListSpelling.behind {parameters : List Parameter × Span}
    (h : ParameterListSpelling parameters tokens) (rest : List Token) :
    (behindEach Parameter.behind parameters.1 ((tokens ++ rest).drop 1)).drop 1 = rest := by
  rcases h with ⟨⟨_⟩, ⟨_⟩⟩ | ⟨⟨_⟩, hparameters, ⟨hclosing⟩⟩
  · rfl
  · have hinside := hparameters.behind (fun _ _ h => h.behind)
      (nextKind_ne_comma hclosing (by decide) rest)
    simp [hinside]

end

end TodLang
