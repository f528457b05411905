import TodLang.Proofs.Grammar.Everywhere
import TodLang.Proofs.Grammar.Expression
import TodLang.Proofs.Token.Tiling
/-!
Assignments to the left of an operator or a bracket. The value of an assignment goes as far to the
right as it can. Only a step is no operand, so that behind a value with a step at its end the
operators and brackets are left over; and where such a value is assigned to a field, to an element
or behind `main`, they are read as if the assignment were in parentheses. This is the only way in
which an assignment gets to the left of an operator or a bracket (`parseProgram_leftParts`).
-/

namespace TodLang

namespace Expression

/-- Whether it assigns to something or changes it, perhaps behind `main`. -/
def isAssignment : Expression → Bool
  | assignment .. | edit .. | step .. | fieldAssignment .. | arrayAssignment .. => true
  | main _ inner => inner.isAssignment
  | _ => false

/-- Whether it is an assignment that is read as an operand: to a field, to an element or behind
`main`. -/
def isOperandAssignment : Expression → Bool
  | fieldAssignment .. | arrayAssignment .. | main _ (.assignment ..) => true
  | _ => false

/-- Whether the two signs of a step are the last tokens of it. -/
def endsInStep : Expression → Bool
  | step .. => true
  | assignment _ last | edit _ _ last | fieldAssignment _ _ last | arrayAssignment _ _ last
  | unary _ last | binary _ _ last | dereference _ last | main _ last => last.endsInStep
  | _ => false

/-- What stands to the left of an operator or of brackets. -/
def leftPart? : Expression → Option Expression
  | binary left _ _ => some left
  | arrayAccess array _ _ => some array
  | arrayAssignment array _ _ => some array
  | _ => none

/-- If an assignment stands to the left of the operator or brackets of an expression, it is an
operand and ends in a step. -/
def StepsOnLeft (e : Expression) : Prop :=
  ∀ left ∈ e.leftPart?, left.isAssignment = true →
    left.isOperandAssignment = true ∧ left.endsInStep = true

end Expression

/-- No operator and no bracket comes next. -/
def AtClose (tokens : List Token) : Prop :=
  nextKind tokens ≠ some (.sign .lbrack) ∧ joiningOperator? 0 tokens = none

/-- What may stand in front of some tokens as an operand. -/
def MayPrecede (e : Expression) (tokens : List Token) : Prop :=
  e.isAssignment = true → e.isOperandAssignment = true ∧ (e.endsInStep = true ∨ AtClose tokens)

/-! ### Where values end -/

mutual

theorem ExpressionReading.ends {ts rest : List Token} {e : Expression}
    (h : ExpressionReading ts e rest) : e.endsInStep = true ∨ AtClose rest := by
  match h with
  | .assignment _ h => exact h.ends
  | .edit _ _ _ hvalue => exact hvalue.ends
  | .step _ _ _ _ => exact .inl rfl
  | .operand _ h => exact h.ends.imp_right fun hbracket => ⟨hbracket, h.stops⟩
termination_by structural h

theorem AssignmentReading.ends {ts rest : List Token} {e : Expression}
    (h : AssignmentReading ts e rest) : e.endsInStep = true ∨ AtClose rest := by
  match h with
  | .intro _ _ hvalue => exact hvalue.ends
termination_by structural h

theorem OperationReading.ends {parent : Nat} {ts rest : List Token} {e : Expression}
    (h : OperationReading parent ts e rest) :
    e.endsInStep = true ∨ nextKind rest ≠ some (.sign .lbrack) := by
  match h with
  | .leading _ _ hoperand hjoined => exact hjoined.ends hoperand.ends
  | .plain _ hoperand hjoined => exact hjoined.ends hoperand.ends
termination_by structural h

theorem JoinedReading.ends {parent : Nat} {left : Expression} {ts rest : List Token}
    {e : Expression} (h : JoinedReading parent left ts e rest)
    (hleft : left.endsInStep = true ∨ nextKind ts ≠ some (.sign .lbrack)) :
    e.endsInStep = true ∨ nextKind rest ≠ some (.sign .lbrack) := by
  match h with
  | .done _ => exact hleft
  | .joins _ _ hright hjoined => exact hjoined.ends hright.ends
termination_by structural h

theorem PostfixReading.ends {ts rest : List Token} {e : Expression}
    (h : PostfixReading ts e rest) :
    e.endsInStep = true ∨ nextKind rest ≠ some (.sign .lbrack) := by
  match h with
  | .intro _ hsuffixes => exact hsuffixes.ends
termination_by structural h

theorem SuffixesReading.ends {array : Expression} {ts rest : List Token} {e : Expression}
    (h : SuffixesReading array ts e rest) :
    e.endsInStep = true ∨ nextKind rest ≠ some (.sign .lbrack) := by
  match h with
  | .done hbracket => exact .inr hbracket
  | .last hsuffix hlast => exact (hsuffix.ends hlast).imp_right And.left
  | .more _ _ hsuffixes => exact hsuffixes.ends
termination_by structural h

theorem SuffixReading.ends {array : Expression} {ts rest : List Token} {e : Expression}
    (h : SuffixReading array ts e rest) (hassignment : e.isArrayAssignment = true) :
    e.endsInStep = true ∨ AtClose rest := by
  match h with
  | .access _ _ _ _ => cases hassignment
  | .assignment _ _ _ _ hvalue => exact hvalue.ends
termination_by structural h

end

/-! ### Operands -/

section

variable {ts rest : List Token} {e : Expression}

theorem mayPrecede_of_not (h : e.isAssignment = false) : MayPrecede e ts := by
  intro h'
  rw [h] at h'
  cases h'

theorem MayPrecede.bracket (h : MayPrecede e ts) (hbracket : nextKind ts = some (.sign .lbrack))
    (hassignment : e.isAssignment = true) :
    e.isOperandAssignment = true ∧ e.endsInStep = true :=
  ⟨(h hassignment).1, (h hassignment).2.resolve_right fun hclose => hclose.1 hbracket⟩

theorem MayPrecede.operator (h : MayPrecede e ts) {parent : Nat} {sign : Sign}
    (hoperator : joiningOperator? parent ts = some sign) (hassignment : e.isAssignment = true) :
    e.isOperandAssignment = true ∧ e.endsInStep = true := by
  refine ⟨(h hassignment).1, (h hassignment).2.resolve_right fun hclose => ?_⟩
  have hnone := hclose.2
  rw [joiningOperator?_le (Nat.zero_le parent) hoperator] at hnone
  cases hnone

theorem SuffixReading.mayPrecede {array : Expression} (h : SuffixReading array ts e rest) :
    MayPrecede e rest := by
  cases h with
  | access _ _ _ _ => exact mayPrecede_of_not rfl
  | assignment _ _ _ _ hvalue => exact fun _ => ⟨rfl, hvalue.ends⟩

theorem MainReading.mayPrecede (h : MainReading ts e rest) : MayPrecede e rest := by
  cases h with
  | call _ hcall =>
    obtain ⟨-, -, -⟩ := hcall
    exact mayPrecede_of_not rfl
  | assignment _ hassignment =>
    have hends := hassignment.ends
    obtain ⟨-, -, -⟩ := hassignment
    exact fun _ => ⟨rfl, hends⟩
  | name _ _ _ _ => exact mayPrecede_of_not rfl

theorem MemberOfReading.mayPrecede (h : MemberOfReading ts e rest) : MayPrecede e rest := by
  cases h with
  | call _ _ _ _ _ | access _ _ _ _ _ => exact mayPrecede_of_not rfl
  | assignment _ _ _ _ hvalue => exact fun _ => ⟨rfl, hvalue.ends⟩

theorem NamedReading.mayPrecede (h : NamedReading ts e rest) : MayPrecede e rest := by
  cases h with
  | call h =>
    obtain ⟨-, -, -⟩ := h
    exact mayPrecede_of_not rfl
  | packageCall h =>
    obtain ⟨-, -, -, -, -⟩ := h
    exact mayPrecede_of_not rfl
  | member h => exact h.mayPrecede
  | cast _ _ _ | name _ _ => exact mayPrecede_of_not rfl
  | element _ _ hsuffix => exact hsuffix.mayPrecede

theorem MakeReading.mayPrecede (h : MakeReading ts e rest) : MayPrecede e rest := by
  cases h with
  | array _ _ _ _ | struct _ _ _ _ | sized _ _ _ _ _ | called _ _ _ _ =>
    exact mayPrecede_of_not rfl

theorem PrimaryReading.mayPrecede (h : PrimaryReading ts e rest) : MayPrecede e rest := by
  cases h with
  | parenthesized _ _ _ | this _ | reference _ _ | dereference _ _ | literal _ =>
    exact mayPrecede_of_not rfl
  | make h => exact h.mayPrecede
  | main _ h => exact h.mayPrecede
  | named _ _ h => exact h.mayPrecede

end

theorem SuffixesReading.mayPrecede {array : Expression} {ts rest : List Token} {e : Expression}
    (h : SuffixesReading array ts e rest) (harray : MayPrecede array ts) : MayPrecede e rest := by
  match h with
  | .done _ => exact harray
  | .last hsuffix _ => exact hsuffix.mayPrecede
  | .more hsuffix _ hsuffixes => exact hsuffixes.mayPrecede hsuffix.mayPrecede
termination_by structural h

theorem PostfixReading.mayPrecede {ts rest : List Token} {e : Expression}
    (h : PostfixReading ts e rest) : MayPrecede e rest := by
  obtain ⟨hoperand, hsuffixes⟩ := h
  exact hsuffixes.mayPrecede hoperand.mayPrecede

/-! ### Left parts -/

/-- No assignment in an expression stands to the left of an operator or brackets, but for those that
are operands and end in a step. -/
abbrev StepsOnLeftThroughout (e : Expression) : Prop :=
  Node.EveryExpression Expression.StepsOnLeft (.expression e)

theorem stepsOnLeft_of_none {e : Expression} (hleft : e.leftPart? = none)
    (hparts : ∀ part ∈ e.parts, StepsOnLeftThroughout part) : StepsOnLeftThroughout e := by
  refine Node.everyExpression_iff_parts.2 ⟨fun left h => ?_, hparts⟩
  rw [hleft] at h
  cases h

theorem stepsOnLeft_of_some {e left : Expression} (hleft : e.leftPart? = some left)
    (hmay : left.isAssignment = true →
      left.isOperandAssignment = true ∧ left.endsInStep = true)
    (hparts : ∀ part ∈ e.parts, StepsOnLeftThroughout part) : StepsOnLeftThroughout e := by
  refine Node.everyExpression_iff_parts.2 ⟨fun other h => ?_, hparts⟩
  obtain rfl : left = other := Option.some.inj (hleft.symm.trans h)
  exact hmay

mutual

theorem ExpressionReading.leftParts {ts rest : List Token} {e : Expression}
    (h : ExpressionReading ts e rest) : StepsOnLeftThroughout e := by
  match h with
  | .assignment _ h => exact h.leftParts
  | .edit _ _ _ hvalue =>
    exact stepsOnLeft_of_none rfl (List.forall_mem_singleton.2 hvalue.leftParts)
  | .step _ _ _ _ => exact stepsOnLeft_of_none rfl (List.forall_mem_nil _)
  | .operand _ h => exact h.leftParts
termination_by structural h

theorem AssignmentReading.leftParts {ts rest : List Token} {e : Expression}
    (h : AssignmentReading ts e rest) : StepsOnLeftThroughout e := by
  match h with
  | .intro _ _ hvalue =>
    exact stepsOnLeft_of_none rfl (List.forall_mem_singleton.2 hvalue.leftParts)
termination_by structural h

theorem OperationReading.leftParts {parent : Nat} {ts rest : List Token} {e : Expression}
    (h : OperationReading parent ts e rest) : StepsOnLeftThroughout e := by
  match h with
  | .leading _ _ hoperand hjoined =>
    refine hjoined.leftParts (stepsOnLeft_of_none rfl ?_) (mayPrecede_of_not rfl)
    exact List.forall_mem_singleton.2 hoperand.leftParts
  | .plain _ hoperand hjoined => exact hjoined.leftParts hoperand.leftParts hoperand.mayPrecede
termination_by structural h

theorem JoinedReading.leftParts {parent : Nat} {left : Expression} {ts rest : List Token}
    {e : Expression} (h : JoinedReading parent left ts e rest)
    (hleft : StepsOnLeftThroughout left) (hmay : MayPrecede left ts) :
    StepsOnLeftThroughout e := by
  match h with
  | .done _ => exact hleft
  | .joins hjoins _ hright hjoined =>
    refine hjoined.leftParts (stepsOnLeft_of_some rfl (hmay.operator hjoins) ?_)
      (mayPrecede_of_not rfl)
    exact List.forall_mem_cons.2 ⟨hleft, List.forall_mem_singleton.2 hright.leftParts⟩
termination_by structural h

theorem PostfixReading.leftParts {ts rest : List Token} {e : Expression}
    (h : PostfixReading ts e rest) : StepsOnLeftThroughout e := by
  match h with
  | .intro hoperand hsuffixes => exact hsuffixes.leftParts hoperand.leftParts hoperand.mayPrecede
termination_by structural h

theorem SuffixesReading.leftParts {array : Expression} {ts rest : List Token} {e : Expression}
    (h : SuffixesReading array ts e rest) (harray : StepsOnLeftThroughout array)
    (hmay : MayPrecede array ts) : StepsOnLeftThroughout e := by
  match h with
  | .done _ => exact harray
  | .last hsuffix _ => exact hsuffix.leftParts harray (hmay.bracket hsuffix.nextKind_eq)
  | .more hsuffix _ hsuffixes =>
    have helement := hsuffix.leftParts harray (hmay.bracket hsuffix.nextKind_eq)
    exact hsuffixes.leftParts helement hsuffix.mayPrecede
termination_by structural h

theorem SuffixReading.leftParts {array : Expression} {ts rest : List Token} {e : Expression}
    (h : SuffixReading array ts e rest) (harray : StepsOnLeftThroughout array)
    (hmay : array.isAssignment = true →
      array.isOperandAssignment = true ∧ array.endsInStep = true) : StepsOnLeftThroughout e := by
  match h with
  | .access _ hindex _ _ =>
    exact stepsOnLeft_of_some rfl hmay
      (List.forall_mem_cons.2 ⟨harray, List.forall_mem_singleton.2 hindex.leftParts⟩)
  | .assignment _ hindex _ _ hvalue =>
    exact stepsOnLeft_of_some rfl hmay (List.forall_mem_cons.2 ⟨harray,
      List.forall_mem_cons.2 ⟨hindex.leftParts, List.forall_mem_singleton.2 hvalue.leftParts⟩⟩)
termination_by structural h

theorem PrimaryReading.leftParts {ts rest : List Token} {e : Expression}
    (h : PrimaryReading ts e rest) : StepsOnLeftThroughout e := by
  match h with
  | .parenthesized _ hinner _ =>
    exact stepsOnLeft_of_none rfl (List.forall_mem_singleton.2 hinner.leftParts)
  | .this _ => exact stepsOnLeft_of_none rfl (List.forall_mem_nil _)
  | .make h => exact h.leftParts
  | .reference _ _ => exact stepsOnLeft_of_none rfl (List.forall_mem_nil _)
  | .dereference _ hoperand =>
    exact stepsOnLeft_of_none rfl (List.forall_mem_singleton.2 hoperand.leftParts)
  | .main _ h => exact h.leftParts
  | .named _ _ h => exact h.leftParts
  | .literal _ => exact stepsOnLeft_of_none rfl (List.forall_mem_nil _)
termination_by structural h

theorem MainReading.leftParts {ts rest : List Token} {e : Expression} (h : MainReading ts e rest) :
    StepsOnLeftThroughout e := by
  match h with
  | .call _ hcall => exact stepsOnLeft_of_none rfl (List.forall_mem_singleton.2 hcall.leftParts)
  | .assignment _ hassignment =>
    exact stepsOnLeft_of_none rfl (List.forall_mem_singleton.2 hassignment.leftParts)
  | .name _ _ _ _ =>
    exact stepsOnLeft_of_none rfl (List.forall_mem_singleton.2
      (stepsOnLeft_of_none rfl (List.forall_mem_nil _)))
termination_by structural h

theorem NamedReading.leftParts {ts rest : List Token} {e : Expression}
    (h : NamedReading ts e rest) : StepsOnLeftThroughout e := by
  match h with
  | .call h => exact h.leftParts
  | .packageCall h => exact h.leftParts
  | .member h => exact h.leftParts
  | .cast _ _ harguments => exact stepsOnLeft_of_none rfl harguments.leftParts
  | .element _ _ hsuffix =>
    exact hsuffix.leftParts (stepsOnLeft_of_none rfl (List.forall_mem_nil _)) (by rintro ⟨⟩)
  | .name _ _ => exact stepsOnLeft_of_none rfl (List.forall_mem_nil _)
termination_by structural h

theorem CallReading.leftParts {ts rest : List Token} {e : Expression} (h : CallReading ts e rest) :
    StepsOnLeftThroughout e := by
  match h with
  | .intro _ _ harguments => exact stepsOnLeft_of_none rfl harguments.leftParts
termination_by structural h

theorem PackageCallReading.leftParts {ts rest : List Token} {e : Expression}
    (h : PackageCallReading ts e rest) : StepsOnLeftThroughout e := by
  match h with
  | .intro _ _ _ _ harguments => exact stepsOnLeft_of_none rfl harguments.leftParts
termination_by structural h

theorem MemberOfReading.leftParts {ts rest : List Token} {e : Expression}
    (h : MemberOfReading ts e rest) : StepsOnLeftThroughout e := by
  match h with
  | .call _ _ _ _ harguments => exact stepsOnLeft_of_none rfl harguments.leftParts
  | .assignment _ _ _ _ hvalue =>
    exact stepsOnLeft_of_none rfl (List.forall_mem_singleton.2 hvalue.leftParts)
  | .access _ _ _ _ _ => exact stepsOnLeft_of_none rfl (List.forall_mem_nil _)
termination_by structural h

theorem MakeReading.leftParts {ts rest : List Token} {e : Expression} (h : MakeReading ts e rest) :
    StepsOnLeftThroughout e := by
  match h with
  | .array _ _ _ hparts => exact stepsOnLeft_of_none rfl hparts.leftParts
  | .struct _ _ _ hparts => exact stepsOnLeft_of_none rfl hparts.leftParts
  | .sized _ _ _ hlength _ =>
    exact stepsOnLeft_of_none rfl (List.forall_mem_singleton.2 hlength.leftParts)
  | .called _ _ _ harguments => exact stepsOnLeft_of_none rfl harguments.leftParts
termination_by structural h

theorem ArgumentsReading.leftParts {closing : Sign} {ts rest : List Token}
    {arguments : List Expression} {stop : Span}
    (h : ArgumentsReading closing ts arguments stop rest) :
    ∀ e ∈ arguments, StepsOnLeftThroughout e := by
  match h with
  | .none _ => exact List.forall_mem_nil _
  | .last _ hfirst _ _ => exact List.forall_mem_singleton.2 hfirst.leftParts
  | .more _ hfirst _ hothers =>
    exact List.forall_mem_cons.2 ⟨hfirst.leftParts, hothers.leftParts⟩
termination_by structural h

end

theorem parseExpression_leftParts {ts : List Token} {p : Parsed Expression ts.length}
    (h : parseExpression ts = .ok p) : StepsOnLeftThroughout p.value :=
  (parseExpression_iff.1 ⟨p.shorter, h⟩).leftParts

/-- Wherever in a program an assignment stands to the left of an operator or of brackets without
parentheses of its own, it assigns to a field, to an element or behind `main`, and ends in a
step. -/
theorem parseProgram_leftParts {tokens : List Token} {members : List Member}
    (h : parseProgram tokens = .ok members) :
    ∀ m ∈ members, ∀ e, Node.Within (.expression e) (.member m) → ∀ left ∈ e.leftPart?,
      left.isAssignment = true →
        left.isOperandAssignment = true ∧ left.endsInStep = true :=
  fun m hm e he => parseProgram_everyExpression parseExpression_leftParts h m hm e he

/-- `x.f = y++ + z` -/
def addedTokens : List Token :=
  [⟨.identifier, "x", none, ⟨1, 0, 1, 1, 1, 1, 2⟩, false⟩,
    ⟨.sign .period, ".", none, ⟨1, 1, 2, 1, 2, 1, 3⟩, false⟩,
    ⟨.identifier, "f", none, ⟨1, 2, 3, 1, 3, 1, 4⟩, true⟩,
    ⟨.sign .assign, "=", none, ⟨1, 4, 5, 1, 5, 1, 6⟩, true⟩,
    ⟨.identifier, "y", none, ⟨1, 6, 7, 1, 7, 1, 8⟩, false⟩,
    ⟨.sign .add, "+", none, ⟨1, 7, 8, 1, 8, 1, 9⟩, false⟩,
    ⟨.sign .add, "+", none, ⟨1, 8, 9, 1, 9, 1, 10⟩, true⟩,
    ⟨.sign .add, "+", none, ⟨1, 10, 11, 1, 11, 1, 12⟩, true⟩,
    ⟨.identifier, "z", none, ⟨1, 12, 13, 1, 13, 1, 14⟩, true⟩,
    Token.ending ⟨1, 13, 13, 1, 14, 1, 14⟩]

/-- `x.f = y++` -/
def addedLeft : Expression :=
  .fieldAssignment ⟨"x", ⟨1, 0, 1, 1, 1, 1, 2⟩⟩ ⟨"f", ⟨1, 2, 3, 1, 3, 1, 4⟩⟩
    (.step ⟨"y", ⟨1, 6, 7, 1, 7, 1, 8⟩⟩ ⟨.add, ⟨1, 7, 9, 1, 8, 1, 10⟩⟩)

/-- `x.f = y++ + z` -/
def addedWhole : Expression :=
  .binary addedLeft ⟨.add, ⟨1, 10, 11, 1, 11, 1, 12⟩⟩ (.name ⟨"z", ⟨1, 12, 13, 1, 13, 1, 14⟩⟩)

/-- An operator behind a step that is assigned to a field has the assignment on its left. -/
theorem parseProgram_leftParts_added :
    tokenize 1 true "x.f = y++ + z" = .ok addedTokens ∧
      parseProgram addedTokens = .ok [.statement (.expression addedWhole)] ∧
      addedLeft ∈ addedWhole.leftPart? ∧ addedLeft.isAssignment = true ∧
      addedLeft.isOperandAssignment = true ∧ addedLeft.endsInStep = true := by
  have hparse : parseProgram addedTokens = .ok [.statement (.expression addedWhole)] := by
    cbv
  have hwithin : Node.Within (.expression addedWhole)
      (.member (.statement (.expression addedWhole))) :=
    .under (List.mem_singleton.2 rfl) (.under (List.mem_singleton.2 rfl) .self)
  exact ⟨by decide +kernel, hparse, rfl, rfl,
    parseProgram_leftParts hparse _ (List.mem_singleton.2 rfl) _ hwithin _ rfl rfl⟩

/-- `a[b] = y++ [c]` -/
def indexedTokens : List Token :=
  [⟨.identifier, "a", none, ⟨1, 0, 1, 1, 1, 1, 2⟩, false⟩,
    ⟨.sign .lbrack, "[", none, ⟨1, 1, 2, 1, 2, 1, 3⟩, false⟩,
    ⟨.identifier, "b", none, ⟨1, 2, 3, 1, 3, 1, 4⟩, false⟩,
    ⟨.sign .rbrack, "]", none, ⟨1, 3, 4, 1, 4, 1, 5⟩, true⟩,
    ⟨.sign .assign, "=", none, ⟨1, 5, 6, 1, 6, 1, 7⟩, true⟩,
    ⟨.identifier, "y", none, ⟨1, 7, 8, 1, 8, 1, 9⟩, false⟩,
    ⟨.sign .add, "+", none, ⟨1, 8, 9, 1, 9, 1, 10⟩, false⟩,
    ⟨.sign .add, "+", none, ⟨1, 9, 10, 1, 10, 1, 11⟩, true⟩,
    ⟨.sign .lbrack, "[", none, ⟨1, 11, 12, 1, 12, 1, 13⟩, false⟩,
    ⟨.identifier, "c", none, ⟨1, 12, 13, 1, 13, 1, 14⟩, false⟩,
    ⟨.sign .rbrack, "]", none, ⟨1, 13, 14, 1, 14, 1, 15⟩, true⟩,
    Token.ending ⟨1, 14, 14, 1, 15, 1, 15⟩]

/-- An assignment to an element, which ends brackets where brackets are read behind an operand, is
the array of an access itself where it is read as a name with its brackets. -/
theorem arrayAssignment_indexed :
    tokenize 1 true "a[b] = y++ [c]" = .ok indexedTokens ∧
      ∃ members, parseProgram indexedTokens = .ok members ∧
        ∃ m ∈ members, ∃ e, Node.Within (.expression e) (.member m) ∧
          ∃ left ∈ e.leftPart?, left.isArrayAssignment = true ∧ left.isAssignment = true := by
  have hparse : parseProgram indexedTokens =
      .ok [.statement (.expression (.arrayAccess
        (.arrayAssignment (.name ⟨"a", ⟨1, 0, 1, 1, 1, 1, 2⟩⟩)
          (.name ⟨"b", ⟨1, 2, 3, 1, 3, 1, 4⟩⟩)
          (.step ⟨"y", ⟨1, 7, 8, 1, 8, 1, 9⟩⟩ ⟨.add, ⟨1, 8, 10, 1, 9, 1, 11⟩⟩))
        (.name ⟨"c", ⟨1, 12, 13, 1, 13, 1, 14⟩⟩) ⟨1, 13, 14, 1, 14, 1, 15⟩))] := by
    cbv
  exact ⟨by decide +kernel, _, hparse, _, List.mem_singleton.2 rfl, _,
    .under (List.mem_singleton.2 rfl) (.under (List.mem_singleton.2 rfl) .self), _, rfl, rfl, rfl⟩

end TodLang
