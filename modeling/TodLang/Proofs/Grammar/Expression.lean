import TodLang.Proofs.Grammar.ExpressionReadings
import TodLang.Proofs.Grammar.Reads
/-!
What a reader of expressions has gone over spells the expression that it gives. The lemmas go by
induction on how an expression was read. The main results are `parseExpression_spells` and, for
operators, `JoinedReading.spells`, which carries the operand that was read so far.
-/

namespace TodLang

/-! ### What the look-ahead says -/

theorem opening_edit {tokens : List Token} {sign : Sign} (h : opening tokens = .edit sign) :
    sign.isEdit = true := by
  unfold opening at h
  split at h
  · split at h
    · split at h
      · cases h
      · split at h
        · next hedit =>
          cases h
          exact hedit
        · split at h
          · cases h
          · cases h
    · cases h
  · cases h

theorem opening_step {tokens : List Token} {sign : Sign} (h : opening tokens = .step sign) :
    ∃ target first others, tokens = target :: first :: others ∧ sign.isStep = true ∧
      first.spaceAfter = false := by
  unfold opening at h
  split at h
  · next target first others =>
    split at h
    · split at h
      · cases h
      · split at h
        · cases h
        · split at h
          · next hstep =>
            cases h
            exact ⟨target, first, others, rfl, hstep.1, hstep.2.1⟩
          · cases h
    · cases h
  · cases h

theorem leadingOperator?_eq_some {parent : Nat} {tokens : List Token} {sign : Sign}
    (h : leadingOperator? parent tokens = some sign) :
    sign.unaryPrecedence ≠ 0 ∧ parent ≤ sign.unaryPrecedence := by
  unfold leadingOperator? at h
  split at h
  · split at h
    · next hlevel =>
      cases h
      exact hlevel
    · cases h
  · cases h

/-- The sign before an operand is the first token. -/
theorem nextKind_of_leadingOperator? {parent : Nat} {tokens : List Token} {sign : Sign}
    (h : leadingOperator? parent tokens = some sign) : nextKind tokens = some (.sign sign) := by
  unfold leadingOperator? at h
  split at h
  · next hnext =>
    split at h
    · rw [hnext, Option.some.inj h]
    · cases h
  · cases h

theorem joiningOperator?_eq_some {parent : Nat} {tokens : List Token} {sign : Sign}
    (h : joiningOperator? parent tokens = some sign) :
    nextKind tokens = some (.sign sign) ∧ parent < sign.binaryPrecedence := by
  unfold joiningOperator? at h
  split at h
  · next hkind =>
    split at h
    · next hlevel =>
      cases h
      exact ⟨hkind, hlevel⟩
    · cases h
  · cases h

/-- What binds more tightly than a level binds more tightly than every lower one. -/
theorem joiningOperator?_le {parent level : Nat} {tokens : List Token} {sign : Sign}
    (hle : parent ≤ level) (h : joiningOperator? level tokens = some sign) :
    joiningOperator? parent tokens = some sign := by
  obtain ⟨hkind, hlevel⟩ := joiningOperator?_eq_some h
  simp only [joiningOperator?, hkind]
  exact if_pos (Nat.lt_of_le_of_lt hle hlevel)

/-- An operator behind operands that were read at a level does not bind more tightly than that. -/
theorem binaryPrecedence_le_of_joiningOperator? {level parent : Nat} {tokens : List Token}
    {sign : Sign} (hstop : joiningOperator? level tokens = none)
    (h : joiningOperator? parent tokens = some sign) : sign.binaryPrecedence ≤ level := by
  obtain ⟨hkind, -⟩ := joiningOperator?_eq_some h
  refine Nat.le_of_not_lt fun hlevel => ?_
  simp [joiningOperator?, hkind, hlevel] at hstop

theorem atMain_eq_true {tokens : List Token} (h : atMain tokens = true) :
    ∃ word name others, tokens = word :: name :: others ∧ word.kind = .identifier ∧
      word.literal = mainWord ∧ name.kind = .identifier ∧
      name.span.startLine = word.span.stopLine := by
  unfold atMain at h
  split at h
  · next word name others =>
    simp only [Bool.and_eq_true, decide_eq_true_eq] at h
    obtain ⟨⟨⟨hkind, hliteral⟩, hname⟩, hline⟩ := h
    exact ⟨word, name, others, rfl, hkind, hliteral, hname, hline⟩
  · cases h

/-- A type in front of a parenthesis has types in brackets, if a bracket stands where it would
open them. -/
theorem TypeSpelling.isGeneric {type : TypeClause} {clause opened rest : List Token}
    (htype : TypeSpelling type clause) (hopening : Fixed (.sign .lparen) opened)
    (h : kindAt (clause ++ opened ++ rest) 1 = some (.sign .lbrack) ∨
      kindAt (clause ++ opened ++ rest) 1 = some (.sign .pathSep) ∧
        kindAt (clause ++ opened ++ rest) 3 = some (.sign .lbrack)) :
    type.isGeneric = true := by
  cases hopening with
  | token hopening =>
    cases htype with
    | plain hname =>
      cases hname with
      | plain hname =>
        cases hname with
        | token hname => simp [kindAt, hopening] at h
      | qualified hpackage hseparator hname =>
        cases hpackage with
        | token hpackage =>
          cases hseparator with
          | token hseparator =>
            cases hname with
            | token hname => simp [kindAt, hopening, hseparator] at h
    | generic _ _ harguments _ =>
      cases harguments with
      | last _ => rfl
      | more _ _ _ => rfl

theorem Marks.exists_token {kind : TokenKind} {span : Span} {tokens : List Token}
    (h : Marks kind span tokens) : ∃ t, tokens = [t] ∧ t.kind = kind ∧ span = t.span := by
  cases h with
  | token h => exact ⟨_, rfl, h, rfl⟩

theorem NameSpelling.exists_token {name : Ident} {tokens : List Token}
    (h : NameSpelling name tokens) : ∃ t, tokens = [t] ∧ t.kind = .identifier ∧ name = t.ident := by
  cases h with
  | token h => exact ⟨_, rfl, h, rfl⟩

/-- What stands behind `main` begins with some token. -/
theorem exists_cons_of_own {e : Expression} {tokens : List Token}
    (h : SpellsExpression (.own e) tokens) : ∃ t back, tokens = t :: back := by
  cases h with
  | ownName h =>
    obtain ⟨t, rfl, -⟩ := h.exists_token
    exact ⟨t, [], rfl⟩
  | ownCall h =>
    cases h with
    | call hcallee _ _ _ =>
      obtain ⟨t, rfl, -⟩ := hcallee.exists_token
      exact ⟨t, _, rfl⟩
  | ownAssignment h =>
    cases h with
    | assignment htarget _ _ =>
      obtain ⟨t, rfl, -⟩ := htarget.exists_token
      exact ⟨t, _, rfl⟩
    | operation h =>
      cases h with
      | operand h =>
        cases h with
        | accessed h =>
          cases h with
          | primary h => cases h

/-! ### Expressions -/

/-- What brackets behind an array make of it. -/
inductive SuffixSpelling (array : Expression) : Expression → List Token → Prop
  | access {index : Expression} {closing : Span} {opened inside closed : List Token}
      (hopening : Fixed (.sign .lbrack) opened) (hindex : ExpressionSpelling index inside)
      (hclosing : Marks (.sign .rbrack) closing closed) :
      SuffixSpelling array (.arrayAccess array index closing) (opened ++ inside ++ closed)
  | assignment {index value : Expression} {opened inside closed sign back : List Token}
      (hopening : Fixed (.sign .lbrack) opened) (hindex : ExpressionSpelling index inside)
      (hclosing : Fixed (.sign .rbrack) closed) (hsign : Fixed (.sign .assign) sign)
      (hvalue : ExpressionSpelling value back) :
      SuffixSpelling array (.arrayAssignment array index value)
        (opened ++ inside ++ closed ++ sign ++ back)

theorem SuffixSpelling.element {name : Ident} {e : Expression} {front back : List Token}
    (hname : NameSpelling name front) (h : SuffixSpelling (.name name) e back) :
    SpellsExpression (.primary e) (front ++ back) := by
  cases h with
  | access hopening hindex hclosing =>
    simpa only [List.append_assoc] using SpellsExpression.element hname hopening hindex hclosing
  | assignment hopening hindex hclosing hsign hvalue =>
    simpa only [List.append_assoc] using
      SpellsExpression.elementAssignment hname hopening hindex hclosing hsign hvalue

section

variable {array e : Expression} {front back : List Token}

theorem SuffixSpelling.accessed (harray : SpellsExpression (.accessed array) front)
    (h : SuffixSpelling array e back) (hmore : e.isArrayAssignment = false) :
    SpellsExpression (.accessed e) (front ++ back) := by
  cases h with
  | access hopening hindex hclosing =>
    simpa only [List.append_assoc] using
      SpellsExpression.arrayAccess harray hopening hindex hclosing
  | assignment _ _ _ _ _ => cases hmore

theorem SuffixSpelling.operand (harray : SpellsExpression (.accessed array) front)
    (h : SuffixSpelling array e back) (hlast : e.isArrayAssignment = true) :
    SpellsExpression (.operand e) (front ++ back) := by
  cases h with
  | access _ _ _ => cases hlast
  | assignment hopening hindex hclosing hsign hvalue =>
    simpa only [List.append_assoc] using
      SpellsExpression.arrayAssignment harray hopening hindex hclosing hsign hvalue

end

/-- Behind `main` stands what it speaks of. -/
theorem main_of_own {keyword : Ident} {e : Expression} {ts r₁ rest back : List Token}
    (hmain : atMain ts = true) (hkeyword : ReadsAs takeIdent ts keyword r₁)
    (hback : r₁ = back ++ rest) (hown : SpellsExpression (.own e) back) :
    ∃ front, ts = front ++ rest ∧ SpellsExpression (.primary (.main keyword.span e)) front := by
  obtain ⟨word, name, others, htokens, hkind, hliteral, hname, hline⟩ := atMain_eq_true hmain
  obtain ⟨t, heq, -, rfl⟩ := takeIdent_iff.1 hkeyword
  obtain ⟨second, back, rfl⟩ := exists_cons_of_own hown
  rw [htokens, hback, List.cons_append, List.cons.injEq, List.cons.injEq] at heq
  obtain ⟨rfl, rfl, rfl⟩ := heq
  exact ⟨_, by simpa using htokens, SpellsExpression.main hkind hliteral hname hline hown⟩

mutual

theorem ExpressionReading.spells {ts rest : List Token} {e : Expression}
    (h : ExpressionReading ts e rest) :
    ∃ front, ts = front ++ rest ∧ ExpressionSpelling e front := by
  match h with
  | .assignment _ h =>
    obtain ⟨front, htokens, hwhole, -⟩ := h.spells
    exact ⟨front, htokens, hwhole⟩
  | .edit hopening htarget hoperator hvalue =>
    obtain ⟨front, heq₁, htarget⟩ := takeIdent_spells htarget
    obtain ⟨middle, heq₂, hoperator, hsign⟩ := takeOperator_spells hoperator
    obtain ⟨back, heq₃, hvalue⟩ := hvalue.spells
    refine ⟨_, ?_, SpellsExpression.edit htarget hoperator (hsign ▸ opening_edit hopening) hvalue⟩
    simp [heq₁, heq₂, heq₃]
  | .step hopening htarget hfirst hsecond =>
    obtain ⟨target, first, others, htokens, hstep, hclose⟩ := opening_step hopening
    obtain ⟨t₁, heq₁, hkind₁, rfl⟩ := takeIdent_iff.1 htarget
    obtain ⟨t₂, heq₂, hkind₂, rfl⟩ := takeSign_iff.1 hfirst
    obtain ⟨t₃, heq₃, hkind₃, rfl⟩ := takeSign_iff.1 hsecond
    have hsame : t₂ = first := by
      simp only [heq₁, heq₂, List.cons.injEq] at htokens
      exact htokens.2.1
    rw [← hsame] at hclose
    refine ⟨_, ?_, SpellsExpression.step (.token hkind₁) hkind₂ hkind₃ hstep hclose⟩
    simp [heq₁, heq₂, heq₃]
  | .operand _ h =>
    obtain ⟨front, htokens, hwhole⟩ := h.spells
    exact ⟨front, htokens, SpellsExpression.operation hwhole⟩
termination_by structural h

theorem AssignmentReading.spells {ts rest : List Token} {e : Expression}
    (h : AssignmentReading ts e rest) :
    ∃ front, ts = front ++ rest ∧ ExpressionSpelling e front ∧ SpellsExpression (.own e) front := by
  match h with
  | .intro htarget hsign hvalue =>
    obtain ⟨front, heq₁, htarget⟩ := takeIdent_spells htarget
    obtain ⟨sign, heq₂, hsign⟩ := takeSign_spells hsign
    obtain ⟨back, heq₃, hvalue⟩ := hvalue.spells
    have hwhole := SpellsExpression.assignment htarget hsign.fixed hvalue
    refine ⟨_, ?_, hwhole, SpellsExpression.ownAssignment hwhole⟩
    simp [heq₁, heq₂, heq₃]
termination_by structural h

theorem OperationReading.spells {parent : Nat} {ts rest : List Token} {e : Expression}
    (h : OperationReading parent ts e rest) :
    ∃ front, ts = front ++ rest ∧ SpellsExpression (.operation parent e) front := by
  match h with
  | @OperationReading.leading _ _ _ _ _ sign operator _ _ hleading hoperator hoperand hjoined =>
    obtain ⟨hunary, hlevel⟩ := leadingOperator?_eq_some hleading
    obtain ⟨front, heq₁, hoperator, hsign⟩ := takeOperator_spells hoperator
    obtain ⟨middle, heq₂, hoperand⟩ := hoperand.spells
    rw [← hsign] at hunary hlevel hoperand
    have hleft {level : Nat} (hle : level ≤ operator.sign.unaryPrecedence) :=
      SpellsExpression.unary hoperator hunary hle hoperand
    obtain ⟨back, heq₃, hwhole⟩ := hjoined.spells (hleft hlevel) fun next _ => hleft (by
      have := next.binaryPrecedence_lt_unary _ hunary
      omega)
    refine ⟨_, ?_, hwhole⟩
    simp [heq₁, heq₂, heq₃]
  | .plain _ hoperand hjoined =>
    obtain ⟨front, heq₁, hoperand⟩ := hoperand.spells
    obtain ⟨back, heq₂, hwhole⟩ := hjoined.spells (SpellsExpression.operand hoperand)
      fun _ _ => SpellsExpression.operand hoperand
    refine ⟨_, ?_, hwhole⟩
    simp [heq₁, heq₂]
termination_by structural h

/-- The operand that was read is one for the level, and one in front of the operator that joins
it to the next. -/
theorem JoinedReading.spells {parent : Nat} {left : Expression} {ts rest : List Token}
    {e : Expression} (h : JoinedReading parent left ts e rest) {front : List Token}
    (hleft : SpellsExpression (.operation parent left) front)
    (hnext : ∀ sign, joiningOperator? parent ts = some sign →
      SpellsExpression (.operation (sign.binaryPrecedence - 1) left) front) :
    ∃ back, ts = back ++ rest ∧ SpellsExpression (.operation parent e) (front ++ back) := by
  match h with
  | .done _ => exact ⟨[], rfl, by simpa using hleft⟩
  | @JoinedReading.joins _ _ _ _ _ _ _ _ sign operator hjoins hoperator hright hjoined =>
    have hstops := hright.stops
    have hleft' := hnext sign hjoins
    obtain ⟨-, hlevel⟩ := joiningOperator?_eq_some hjoins
    obtain ⟨middle, heq₁, hoperator, hsame⟩ := takeOperator_spells hoperator
    obtain ⟨back, heq₂, hright⟩ := hright.spells
    rw [← hsame] at hleft' hright hlevel hstops
    have hbinary {level : Nat} (hlt : level < operator.sign.binaryPrecedence) :=
      SpellsExpression.binary hlt hleft' hoperator hright
    obtain ⟨others, heq₃, hwhole⟩ := hjoined.spells (hbinary hlevel) fun next hjoins =>
      hbinary (by
        have hle := binaryPrecedence_le_of_joiningOperator? hstops hjoins
        have hlt := (joiningOperator?_eq_some hjoins).2
        omega)
    refine ⟨middle ++ back ++ others, ?_, ?_⟩
    · simp [heq₁, heq₂, heq₃]
    · simpa using hwhole
termination_by structural h

theorem PostfixReading.spells {ts rest : List Token} {e : Expression}
    (h : PostfixReading ts e rest) :
    ∃ front, ts = front ++ rest ∧ SpellsExpression (.operand e) front := by
  match h with
  | .intro hoperand hsuffixes =>
    obtain ⟨front, heq₁, hoperand⟩ := hoperand.spells
    obtain ⟨back, heq₂, hwhole⟩ := hsuffixes.spells (SpellsExpression.primary hoperand)
    refine ⟨_, ?_, hwhole⟩
    simp [heq₁, heq₂]
termination_by structural h

theorem SuffixesReading.spells {array : Expression} {ts rest : List Token} {e : Expression}
    (h : SuffixesReading array ts e rest) {front : List Token}
    (harray : SpellsExpression (.accessed array) front) :
    ∃ back, ts = back ++ rest ∧ SpellsExpression (.operand e) (front ++ back) := by
  match h with
  | .done _ => exact ⟨[], rfl, by simpa using SpellsExpression.accessed harray⟩
  | .last hsuffix hlast =>
    obtain ⟨back, htokens, hsuffix⟩ := hsuffix.spells
    exact ⟨back, htokens, hsuffix.operand harray hlast⟩
  | .more hsuffix hmore hsuffixes =>
    obtain ⟨middle, heq₁, hsuffix⟩ := hsuffix.spells
    obtain ⟨back, heq₂, hwhole⟩ := hsuffixes.spells (hsuffix.accessed harray hmore)
    refine ⟨middle ++ back, ?_, ?_⟩
    · rw [heq₁, heq₂, List.append_assoc]
    · rwa [← List.append_assoc]
termination_by structural h

theorem SuffixReading.spells {array : Expression} {ts rest : List Token} {e : Expression}
    (h : SuffixReading array ts e rest) :
    ∃ front, ts = front ++ rest ∧ SuffixSpelling array e front := by
  match h with
  | .access hopening hindex hclosing _ =>
    obtain ⟨opened, heq₁, hopening⟩ := takeSign_spells hopening
    obtain ⟨inside, heq₂, hindex⟩ := hindex.spells
    obtain ⟨closed, heq₃, hclosing⟩ := takeSign_spells hclosing
    refine ⟨_, ?_, SuffixSpelling.access hopening.fixed hindex hclosing⟩
    simp [heq₁, heq₂, heq₃]
  | .assignment hopening hindex hclosing hsign hvalue =>
    obtain ⟨opened, heq₁, hopening⟩ := takeSign_spells hopening
    obtain ⟨inside, heq₂, hindex⟩ := hindex.spells
    obtain ⟨closed, heq₃, hclosing⟩ := takeSign_spells hclosing
    obtain ⟨sign, heq₄, hsign⟩ := takeSign_spells hsign
    obtain ⟨back, heq₅, hvalue⟩ := hvalue.spells
    refine ⟨_, ?_, SuffixSpelling.assignment hopening.fixed hindex hclosing.fixed hsign.fixed
      hvalue⟩
    simp [heq₁, heq₂, heq₃, heq₄, heq₅]
termination_by structural h

theorem PrimaryReading.spells {ts rest : List Token} {e : Expression}
    (h : PrimaryReading ts e rest) :
    ∃ front, ts = front ++ rest ∧ SpellsExpression (.primary e) front := by
  match h with
  | .parenthesized hopening hinner hclosing =>
    obtain ⟨opened, heq₁, hopening⟩ := takeSign_spells hopening
    obtain ⟨inside, heq₂, hinner⟩ := hinner.spells
    obtain ⟨closed, heq₃, hclosing⟩ := takeSign_spells hclosing
    refine ⟨_, ?_, SpellsExpression.parenthesized hopening hinner hclosing⟩
    simp [heq₁, heq₂, heq₃]
  | .this hkeyword =>
    obtain ⟨front, htokens, hkeyword⟩ := takeKeyword_spells hkeyword
    exact ⟨front, htokens, SpellsExpression.this hkeyword⟩
  | .make h => exact h.spells
  | .reference hampersand hname =>
    obtain ⟨front, heq₁, hampersand⟩ := takeSign_spells hampersand
    obtain ⟨back, heq₂, hname⟩ := takeIdent_spells hname
    refine ⟨_, ?_, SpellsExpression.reference hampersand hname⟩
    simp [heq₁, heq₂]
  | .dereference hstar hoperand =>
    obtain ⟨front, heq₁, hstar⟩ := takeSign_spells hstar
    obtain ⟨back, heq₂, hoperand⟩ := hoperand.spells
    refine ⟨_, ?_, SpellsExpression.dereference hstar hoperand⟩
    simp [heq₁, heq₂]
  | .main hmain h => exact h.spells hmain
  | .named _ _ h => exact h.spells
  | @PrimaryReading.literal t _ hliteral => exact ⟨[t], rfl, SpellsExpression.literal hliteral⟩
termination_by structural h

theorem MainReading.spells {ts rest : List Token} {e : Expression} (h : MainReading ts e rest)
    (hmain : atMain ts = true) :
    ∃ front, ts = front ++ rest ∧ SpellsExpression (.primary e) front := by
  match h with
  | .call hkeyword hcall =>
    obtain ⟨back, htokens, -, hown⟩ := hcall.spells
    exact main_of_own hmain hkeyword htokens hown
  | .assignment hkeyword hassignment =>
    obtain ⟨back, htokens, -, hown⟩ := hassignment.spells
    exact main_of_own hmain hkeyword htokens hown
  | .name hkeyword hname _ _ =>
    obtain ⟨back, htokens, hname⟩ := takeIdent_spells hname
    exact main_of_own hmain hkeyword htokens (SpellsExpression.ownName hname)
termination_by structural h

theorem NamedReading.spells {ts rest : List Token} {e : Expression} (h : NamedReading ts e rest) :
    ∃ front, ts = front ++ rest ∧ SpellsExpression (.primary e) front := by
  match h with
  | .call h =>
    obtain ⟨front, htokens, hwhole, -⟩ := h.spells
    exact ⟨front, htokens, hwhole⟩
  | .packageCall h => exact h.spells
  | .member h => exact h.spells
  | .cast hbracket hhead harguments =>
    obtain ⟨clause, opened, heq₁, htype, hopening⟩ := tryCastHead?_spells hhead
    obtain ⟨_, heq₂, inside, closed, rfl, harguments, hclosing⟩ := harguments.spells
    have hgeneric := htype.isGeneric hopening (heq₁ ▸ hbracket)
    refine ⟨_, ?_, SpellsExpression.cast htype hgeneric hopening harguments hclosing⟩
    simp [heq₁, heq₂]
  | .element _ harray hsuffix =>
    obtain ⟨front, heq₁, harray⟩ := takeIdent_spells harray
    obtain ⟨back, heq₂, hsuffix⟩ := hsuffix.spells
    refine ⟨_, ?_, hsuffix.element harray⟩
    simp [heq₁, heq₂]
  | .name hname _ =>
    obtain ⟨front, htokens, hname⟩ := takeIdent_spells hname
    exact ⟨front, htokens, SpellsExpression.name hname⟩
termination_by structural h

theorem CallReading.spells {ts rest : List Token} {e : Expression} (h : CallReading ts e rest) :
    ∃ front, ts = front ++ rest ∧ SpellsExpression (.primary e) front ∧
      SpellsExpression (.own e) front := by
  match h with
  | .intro hcallee hopening harguments =>
    obtain ⟨front, heq₁, hcallee⟩ := takeIdent_spells hcallee
    obtain ⟨opened, heq₂, hopening⟩ := takeSign_spells hopening
    obtain ⟨_, heq₃, inside, closed, rfl, harguments, hclosing⟩ := harguments.spells
    have hwhole := SpellsExpression.call hcallee hopening.fixed harguments hclosing
    refine ⟨_, ?_, hwhole, SpellsExpression.ownCall hwhole⟩
    simp [heq₁, heq₂, heq₃]
termination_by structural h

theorem PackageCallReading.spells {ts rest : List Token} {e : Expression}
    (h : PackageCallReading ts e rest) :
    ∃ front, ts = front ++ rest ∧ SpellsExpression (.primary e) front := by
  match h with
  | .intro hpackage hseparator hcallee hopening harguments =>
    obtain ⟨front, heq₁, hpackage⟩ := takeIdent_spells hpackage
    obtain ⟨separator, heq₂, hseparator⟩ := takeSign_spells hseparator
    obtain ⟨middle, heq₃, hcallee⟩ := takeIdent_spells hcallee
    obtain ⟨opened, heq₄, hopening⟩ := takeSign_spells hopening
    obtain ⟨_, heq₅, inside, closed, rfl, harguments, hclosing⟩ := harguments.spells
    refine ⟨_, ?_, SpellsExpression.packageCall hpackage hseparator.fixed hcallee hopening.fixed
      harguments hclosing⟩
    simp [heq₁, heq₂, heq₃, heq₄, heq₅]
termination_by structural h

theorem MemberOfReading.spells {ts rest : List Token} {e : Expression}
    (h : MemberOfReading ts e rest) :
    ∃ front, ts = front ++ rest ∧ SpellsExpression (.primary e) front := by
  match h with
  | .call hobject hperiod hcallee hopening harguments =>
    obtain ⟨front, heq₁, hobject⟩ := takeIdent_spells hobject
    obtain ⟨period, heq₂, hperiod⟩ := takeSign_spells hperiod
    obtain ⟨middle, heq₃, hcallee⟩ := takeIdent_spells hcallee
    obtain ⟨opened, heq₄, hopening⟩ := takeSign_spells hopening
    obtain ⟨_, heq₅, inside, closed, rfl, harguments, hclosing⟩ := harguments.spells
    refine ⟨_, ?_, SpellsExpression.typeCall hobject hperiod.fixed hcallee hopening.fixed
      harguments hclosing⟩
    simp [heq₁, heq₂, heq₃, heq₄, heq₅]
  | .assignment hobject hperiod hfield hsign hvalue =>
    obtain ⟨front, heq₁, hobject⟩ := takeIdent_spells hobject
    obtain ⟨period, heq₂, hperiod⟩ := takeSign_spells hperiod
    obtain ⟨middle, heq₃, hfield⟩ := takeIdent_spells hfield
    obtain ⟨sign, heq₄, hsign⟩ := takeSign_spells hsign
    obtain ⟨back, heq₅, hvalue⟩ := hvalue.spells
    refine ⟨_, ?_, SpellsExpression.fieldAssignment hobject hperiod.fixed hfield hsign.fixed
      hvalue⟩
    simp [heq₁, heq₂, heq₃, heq₄, heq₅]
  | .access hobject hperiod hfield _ _ =>
    obtain ⟨front, heq₁, hobject⟩ := takeIdent_spells hobject
    obtain ⟨period, heq₂, hperiod⟩ := takeSign_spells hperiod
    obtain ⟨middle, heq₃, hfield⟩ := takeIdent_spells hfield
    refine ⟨_, ?_, SpellsExpression.fieldAccess hobject hperiod.fixed hfield⟩
    simp [heq₁, heq₂, heq₃]
termination_by structural h

theorem MakeReading.spells {ts rest : List Token} {e : Expression} (h : MakeReading ts e rest) :
    ∃ front, ts = front ++ rest ∧ SpellsExpression (.primary e) front := by
  match h with
  | .array ⟨hkeyword, htype⟩ hgeneric hopening hparts =>
    obtain ⟨word, heq₁, hkeyword⟩ := takeKeyword_spells hkeyword
    obtain ⟨front, heq₂, htype⟩ := parseTypeClause_spells htype
    obtain ⟨opened, heq₃, hopening⟩ := takeSign_spells hopening
    obtain ⟨_, heq₄, inside, closed, rfl, hparts, hclosing⟩ := hparts.spells
    refine ⟨_, ?_, SpellsExpression.makeArray hkeyword htype hgeneric hopening.fixed hparts
      hclosing⟩
    simp [heq₁, heq₂, heq₃, heq₄]
  | .struct ⟨hkeyword, htype⟩ hgeneric hopening hparts =>
    obtain ⟨word, heq₁, hkeyword⟩ := takeKeyword_spells hkeyword
    obtain ⟨front, heq₂, htype⟩ := parseTypeClause_spells htype
    obtain ⟨opened, heq₃, hopening⟩ := takeSign_spells hopening
    obtain ⟨_, heq₄, inside, closed, rfl, hparts, hclosing⟩ := hparts.spells
    refine ⟨_, ?_, SpellsExpression.makeStruct hkeyword htype hgeneric hopening.fixed hparts
      hclosing⟩
    simp [heq₁, heq₂, heq₃, heq₄]
  | .sized ⟨hkeyword, htype⟩ hgeneric hopening hlength hclosing =>
    obtain ⟨word, heq₁, hkeyword⟩ := takeKeyword_spells hkeyword
    obtain ⟨front, heq₂, htype⟩ := parseTypeClause_spells htype
    obtain ⟨opened, heq₃, hopening⟩ := takeSign_spells hopening
    obtain ⟨inside, heq₄, hlength⟩ := hlength.spells
    obtain ⟨closed, heq₅, hclosing⟩ := takeSign_spells hclosing
    refine ⟨_, ?_, SpellsExpression.makeSized hkeyword htype hgeneric hopening.fixed hlength
      hclosing⟩
    simp [heq₁, heq₂, heq₃, heq₄, heq₅]
  | .called ⟨hkeyword, htype⟩ hgeneric hopening harguments =>
    obtain ⟨word, heq₁, hkeyword⟩ := takeKeyword_spells hkeyword
    obtain ⟨front, heq₂, htype⟩ := parseTypeClause_spells htype
    obtain ⟨opened, heq₃, hopening⟩ := takeSign_spells hopening
    obtain ⟨_, heq₄, inside, closed, rfl, harguments, hclosing⟩ := harguments.spells
    refine ⟨_, ?_, SpellsExpression.make hkeyword htype hgeneric hopening.fixed harguments
      hclosing⟩
    simp [heq₁, heq₂, heq₃, heq₄]
termination_by structural h

theorem ArgumentsReading.spells {closing : Sign} {ts rest : List Token}
    {arguments : List Expression} {stop : Span}
    (h : ArgumentsReading closing ts arguments stop rest) :
    ∃ front, ts = front ++ rest ∧
      ClosedBy (.sign closing) (fun es => SpellsExpression (.arguments es)) (arguments, stop)
        front := by
  match h with
  | .none hstop =>
    obtain ⟨closed, htokens, hstop⟩ := takeSign_spells hstop
    exact ⟨closed, htokens, [], closed, rfl, SpellsExpression.none, hstop⟩
  | .last _ hfirst _ hstop =>
    obtain ⟨front, heq₁, hfirst⟩ := hfirst.spells
    obtain ⟨closed, heq₂, hstop⟩ := takeSign_spells hstop
    refine ⟨_, ?_, front, closed, rfl, SpellsExpression.last hfirst, hstop⟩
    simp [heq₁, heq₂]
  | .more _ hfirst hcomma hothers =>
    obtain ⟨front, heq₁, hfirst⟩ := hfirst.spells
    obtain ⟨comma, heq₂, hcomma⟩ := takeSign_spells hcomma
    obtain ⟨_, heq₃, inside, closed, rfl, hothers, hstop⟩ := hothers.spells
    refine ⟨_, ?_, _, closed, rfl, SpellsExpression.more hfirst hcomma.fixed hothers, hstop⟩
    simp [heq₁, heq₂, heq₃]
termination_by structural h

end

theorem parseExpression_spells {ts rest : List Token} {e : Expression}
    (h : ReadsAs parseExpression ts e rest) :
    ∃ front, ts = front ++ rest ∧ ExpressionSpelling e front :=
  (parseExpression_reading h).spells

end TodLang
