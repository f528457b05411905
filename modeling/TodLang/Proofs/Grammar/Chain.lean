import TodLang.Proofs.Grammar.Expression
/-!
Operands and operators as a chain. Reading by precedence, with a level for the operators that may
join an operand, comes to what a plainer reading comes to: first all operands and operators are read
as they stand there one after another, and then the chain is split at the last of the operators that
bind least tightly, and its two sides likewise. The main result is `parseOperation_eq_parseChain`;
it rests on what a level cuts off a chain (`parseLinks_eq_parts`) and on how what was joined first
stands in the tree of the whole (`joinLinks_binary`).
-/

namespace TodLang

/-! ### Chains -/

/-- An operand and the operators in front of it. -/
structure Operand where
  leading : List Operator
  base : Expression

/-- An operator between two operands, and the second of them. -/
structure Link where
  operator : Operator
  operand : Operand

/-- Operands with operators between them, one after another. -/
structure Chain where
  first : Operand
  links : List Link

/-- The operators in front of an operand apply to nothing but this operand. -/
def Operand.tree (o : Operand) : Expression :=
  o.leading.foldr .unary o.base

def Link.precedence (link : Link) : Nat :=
  link.operator.sign.binaryPrecedence

/-- What stands in front of a link, and behind it. -/
structure ChainSplit where
  front : List Link
  root : Link
  back : List Link

/-- A split at the last of the links whose operator binds least tightly. -/
def splitAtRoot? : List Link → Option ChainSplit
  | [] => none
  | link :: links =>
    match splitAtRoot? links with
    | none => some ⟨[], link, []⟩
    | some ⟨front, root, back⟩ =>
      if link.precedence < root.precedence then some ⟨[], link, links⟩
      else some ⟨link :: front, root, back⟩

/-- A split of some links at a root: no operator binds less tightly, and none of those behind it
binds as loosely. -/
structure ChainSplit.Of (s : ChainSplit) (links : List Link) : Prop where
  eq : links = s.front ++ s.root :: s.back
  front : ∀ link ∈ s.front, s.root.precedence ≤ link.precedence
  back : ∀ link ∈ s.back, s.root.precedence < link.precedence

theorem eq_nil_of_splitAtRoot? {links : List Link} (h : splitAtRoot? links = none) :
    links = [] := by
  cases links with
  | nil => rfl
  | cons link links =>
    unfold splitAtRoot? at h
    split at h
    · cases h
    · split at h <;> cases h

theorem splitAtRoot?_of {links : List Link} {s : ChainSplit} (h : splitAtRoot? links = some s) :
    s.Of links := by
  induction links generalizing s with
  | nil => cases h
  | cons link links ih =>
    unfold splitAtRoot? at h
    split at h
    · next hnone =>
      cases h
      obtain rfl := eq_nil_of_splitAtRoot? hnone
      exact ⟨rfl, by simp, by simp⟩
    · next front root back hsome =>
      obtain ⟨rfl, hfront, hback⟩ := ih hsome
      split at h
      · next hlt =>
        cases h
        refine ⟨rfl, by simp, fun other hother => ?_⟩
        obtain hother | rfl | hother : other ∈ front ∨ other = root ∨ other ∈ back := by
          simpa using hother
        · exact Nat.lt_of_lt_of_le hlt (hfront other hother)
        · exact hlt
        · exact Nat.lt_trans hlt (hback other hother)
      · next hle =>
        cases h
        refine ⟨rfl, fun other hother => ?_, hback⟩
        obtain rfl | hother : other = link ∨ other ∈ front := by simpa using hother
        · exact Nat.le_of_not_lt hle
        · exact hfront other hother

/-- There is one such split only. -/
theorem ChainSplit.Of.splitAtRoot? {links : List Link} {s : ChainSplit} (h : s.Of links) :
    splitAtRoot? links = some s := by
  obtain ⟨front, root, back⟩ := s
  obtain ⟨rfl, hfront, hback⟩ := h
  induction front with
  | nil =>
    rw [List.nil_append, TodLang.splitAtRoot?]
    cases hsplit : TodLang.splitAtRoot? back with
    | none =>
      obtain rfl := eq_nil_of_splitAtRoot? hsplit
      rfl
    | some t =>
      have hmem : t.root ∈ back := by simp [(splitAtRoot?_of hsplit).eq]
      exact if_pos (hback t.root hmem)
  | cons link front ih =>
    have hle := hfront link List.mem_cons_self
    rw [List.cons_append, TodLang.splitAtRoot?,
      ih (fun other hother => hfront other (List.mem_cons_of_mem _ hother)) hback]
    exact if_neg (Nat.not_lt_of_le hle)

/-- What links make of the operand in front of them: the root of the tree is the last of the
operators that bind least tightly, and its operands are made of the links on either side. -/
def joinLinks (left : Expression) (links : List Link) : Expression :=
  match _hsplit : splitAtRoot? links with
  | none => left
  | some ⟨front, root, back⟩ =>
    .binary (joinLinks left front) root.operator (joinLinks root.operand.tree back)
termination_by links.length
decreasing_by
  all_goals
    have hlength := congrArg List.length (splitAtRoot?_of ‹_›).eq
    simp only [List.length_append, List.length_cons] at hlength
    omega

def Chain.tree (c : Chain) : Expression :=
  joinLinks c.first.tree c.links

@[simp] theorem joinLinks_nil (left : Expression) : joinLinks left [] = left := by
  unfold joinLinks
  rfl

theorem ChainSplit.Of.joinLinks {links : List Link} {s : ChainSplit} (h : s.Of links)
    (left : Expression) :
    joinLinks left links =
      .binary (TodLang.joinLinks left s.front) s.root.operator
        (TodLang.joinLinks s.root.operand.tree s.back) := by
  rw [TodLang.joinLinks]
  split
  · next hnone => rw [h.splitAtRoot?] at hnone; cases hnone
  · next hsome => rw [h.splitAtRoot?] at hsome; cases hsome; rfl

/-- Links whose operators bind more tightly than the one in front of them are joined first, and the
links behind them go on with what that came to, if the first of them binds no more tightly. -/
theorem joinLinks_binary (left : Expression) (link : Link) (inner links : List Link)
    (hinner : ∀ other ∈ inner, link.precedence < other.precedence)
    (hlinks : ∀ other ∈ links.head?, other.precedence ≤ link.precedence) :
    joinLinks left (link :: inner ++ links) =
      joinLinks (.binary left link.operator (joinLinks link.operand.tree inner)) links := by
  cases hsplit : splitAtRoot? links with
  | none =>
    obtain rfl := eq_nil_of_splitAtRoot? hsplit
    have hroot : ChainSplit.Of ⟨[], link, inner⟩ (link :: inner ++ []) :=
      ⟨by simp, by simp, hinner⟩
    rw [hroot.joinLinks, joinLinks_nil, joinLinks_nil]
  | some s =>
    obtain ⟨front, root, back⟩ := s
    have hof := splitAtRoot?_of hsplit
    obtain ⟨rfl, hfront, hback⟩ := hof
    have hroot : root.precedence ≤ link.precedence := by
      cases front with
      | nil => exact hlinks root rfl
      | cons other front =>
        exact Nat.le_trans (hfront other List.mem_cons_self) (hlinks other rfl)
    have hwhole : ChainSplit.Of ⟨link :: inner ++ front, root, back⟩
        (link :: inner ++ (front ++ root :: back)) := by
      refine ⟨by simp, fun other hother => ?_, hback⟩
      obtain rfl | hother | hother : other = link ∨ other ∈ inner ∨ other ∈ front := by
        simpa using hother
      · exact hroot
      · exact Nat.le_trans hroot (Nat.le_of_lt (hinner other hother))
      · exact hfront other hother
    have hnext : ∀ other ∈ front.head?, other.precedence ≤ link.precedence := by
      cases front with
      | nil => simp
      | cons other front => exact hlinks
    rw [hwhole.joinLinks, ChainSplit.Of.joinLinks ⟨rfl, hfront, hback⟩,
      joinLinks_binary left link inner front hinner hnext]
termination_by links.length

/-! ### Reading a chain -/

/-- Operators in front of an operand, as many as there are, and the operand with the brackets behind
it. -/
def parseOperand (tokens : List Token) : Parse Operand tokens.length :=
  match leadingOperator? 0 tokens with
  | some sign => do
    let ⟨operator, r₁, h₁⟩ ← takeOperator sign tokens
    let ⟨⟨leading, base⟩, r₂, h₂⟩ ← after h₁ (parseOperand r₁)
    return ⟨⟨operator :: leading, base⟩, r₂, h₂⟩
  | none => do
    let ⟨base, r₁, h₁⟩ ← parsePostfix tokens
    return ⟨⟨[], base⟩, r₁, h₁⟩
termination_by tokens.length

/-- Operators with an operand behind each, for as long as an operator comes next that binds more
tightly than a given level. -/
def parseLinks (level : Nat) (tokens : List Token) : Parse (List Link) (tokens.length + 1) :=
  match joiningOperator? level tokens with
  | none => return Parsed.unread [] tokens
  | some sign => do
    let ⟨operator, r₁, h₁⟩ ← takeOperator sign tokens
    let ⟨operand, r₂, h₂⟩ ← after h₁ (parseOperand r₁)
    let ⟨links, r₃, h₃⟩ ← afterOptional h₂ (parseLinks level r₂)
    return Parsed.optional ⟨⟨operator, operand⟩ :: links, r₃, h₃⟩
termination_by tokens.length

/-- A chain, for as long as an operator comes next that can stand between operands. -/
def parseChain (tokens : List Token) : Parse Chain tokens.length := do
  let ⟨first, r₁, h₁⟩ ← parseOperand tokens
  let ⟨links, r₂, h₂⟩ ← afterOptional h₁ (parseLinks 0 r₁)
  return ⟨⟨first, links⟩, r₂, h₂⟩

/-! ### Levels -/

theorem except_pure {α : Type} (a : α) : (pure a : Except Mismatch α) = .ok a := rfl

theorem except_ok_bind {α β : Type} (a : α) (f : α → Except Mismatch β) :
    ((.ok a : Except Mismatch α) >>= f) = f a := rfl

section

variable {level parent : Nat} {tokens : List Token}

/-- Where a sign comes next, it is read as an operator. -/
theorem takeOperator_of_nextKind {sign : Sign} (h : nextKind tokens = some (.sign sign)) :
    ∃ p, takeOperator sign tokens = .ok p ∧ p.value.sign = sign := by
  cases tokens with
  | nil => cases h
  | cons t rest =>
    have ht : t.kind = .sign sign := Option.some.inj h
    refine ⟨⟨⟨sign, t.span⟩, rest, Nat.lt_succ_self _⟩, ?_, rfl⟩
    rw [takeOperator, take, accept?, if_pos ht]
    rfl

/-- The links that are read at a level have operators that bind more tightly than that. -/
theorem parseLinks_tighter {tokens : List Token} {p : Parsed (List Link) (tokens.length + 1)}
    (h : parseLinks level tokens = .ok p) : ∀ link ∈ p.value, level < link.precedence := by
  rw [parseLinks] at h
  split at h
  · cases h
    simp [Parsed.unread]
  · next sign hsign =>
    obtain ⟨hkind, hlevel⟩ := joiningOperator?_eq_some hsign
    obtain ⟨p₁, h₁, h⟩ := bind_ok h
    obtain ⟨p₂, -, h⟩ := bind_ok h
    obtain ⟨p₃, h₃, h⟩ := bind_ok h
    obtain ⟨q, hq, hvalue, -⟩ := afterOptional_eq_ok.1 h₃
    have := p₂.shorter
    have ih := parseLinks_tighter hq
    obtain ⟨p₁', h₁', hsame⟩ := takeOperator_of_nextKind hkind
    obtain rfl : p₁ = p₁' := Except.ok.inj (h₁.symm.trans h₁')
    cases h
    intro link hlink
    obtain rfl | hlink : link = _ ∨ link ∈ p₃.value := List.mem_cons.1 hlink
    · rwa [Link.precedence, hsame]
    · exact ih link (hvalue ▸ hlink)
termination_by tokens.length

/-- The links that are read at a level go on until an operator comes next that binds no more
tightly, or none does. -/
theorem parseLinks_stops {tokens : List Token} {p : Parsed (List Link) (tokens.length + 1)}
    (h : parseLinks level tokens = .ok p) : joiningOperator? level p.rest = none := by
  rw [parseLinks] at h
  split at h
  · next hnone =>
    cases h
    exact hnone
  · obtain ⟨p₁, -, h⟩ := bind_ok h
    obtain ⟨p₂, -, h⟩ := bind_ok h
    obtain ⟨p₃, h₃, h⟩ := bind_ok h
    obtain ⟨q, hq, -, hrest⟩ := afterOptional_eq_ok.1 h₃
    have := p₂.shorter
    have ih := parseLinks_stops hq
    cases h
    rwa [hrest] at ih
termination_by tokens.length

/-- Where the links of one level stop, the first that is read at another level has an operator that
binds no more tightly. -/
theorem parseLinks_head {p : Parsed (List Link) (tokens.length + 1)}
    (hstop : joiningOperator? level tokens = none) (h : parseLinks parent tokens = .ok p) :
    ∀ link ∈ p.value.head?, link.precedence ≤ level := by
  rw [parseLinks] at h
  split at h
  · cases h
    simp [Parsed.unread]
  · next sign hsign =>
    obtain ⟨p₁, h₁, h⟩ := bind_ok h
    obtain ⟨p₂, -, h⟩ := bind_ok h
    obtain ⟨p₃, -, h⟩ := bind_ok h
    obtain ⟨p₁', h₁', hsame⟩ := takeOperator_of_nextKind (joiningOperator?_eq_some hsign).1
    obtain rfl : p₁ = p₁' := Except.ok.inj (h₁.symm.trans h₁')
    cases h
    rintro link ⟨⟩
    rw [Link.precedence, hsame]
    exact binaryPrecedence_le_of_joiningOperator? hstop hsign

/-- The links of a level are read in two parts: those of a higher level, and then those behind
them. -/
theorem parseLinks_eq_parts (hle : parent ≤ level) (tokens : List Token) :
    parseLinks parent tokens = (do
      let ⟨front, r₁, h₁⟩ ← parseLinks level tokens
      let ⟨back, r₂, h₂⟩ ← afterOptional h₁ (parseLinks parent r₁)
      return ⟨front ++ back, r₂, h₂⟩) := by
  rw [parseLinks.eq_def level]
  cases hlevel : joiningOperator? level tokens with
  | none =>
    cases hback : parseLinks parent tokens with
    | error mismatch => simp [Parsed.unread, afterOptional, hback]
    | ok back => simp [Parsed.unread, afterOptional, hback, Parsed.optionalBelow]
  | some sign =>
    obtain ⟨⟨operator, r₁, h₁⟩, hoperator, -⟩ :=
      takeOperator_of_nextKind (joiningOperator?_eq_some hlevel).1
    rw [parseLinks, joiningOperator?_le hle hlevel]
    simp only [hoperator, except_ok_bind]
    rcases parseOperand r₁ with mismatch | ⟨operand, r₂, h₂⟩
    · rfl
    have ih := parseLinks_eq_parts hle r₂
    simp only [after, except_ok_bind, Parsed.below]
    rw [ih]
    rcases parseLinks level r₂ with mismatch | ⟨front, r₃, h₃⟩
    · rfl
    simp only [afterOptional, except_pure, except_ok_bind, Parsed.optionalBelow, Parsed.optional]
    rcases parseLinks parent r₃ with mismatch | ⟨back, r₄, h₄⟩ <;> rfl
termination_by tokens.length

end

/-! ### Reading by precedence -/

/-- A level at which every operator in front of an operand is read. -/
def Admits (level : Nat) : Prop :=
  ∀ s : Sign, s.unaryPrecedence ≠ 0 → level ≤ s.unaryPrecedence

theorem admits_zero : Admits 0 := fun _ _ => Nat.zero_le _

theorem admits_binary (s : Sign) : Admits s.binaryPrecedence := fun t ht =>
  Nat.le_of_lt (Sign.binaryPrecedence_lt_unary s t ht)

theorem admits_unary (s : Sign) : Admits s.unaryPrecedence := by
  intro t ht
  cases t <;> first | exact absurd rfl ht | (cases s <;> decide)

theorem leadingOperator?_of_admits {level : Nat} (h : Admits level) (tokens : List Token) :
    leadingOperator? level tokens = leadingOperator? 0 tokens := by
  unfold leadingOperator?
  split
  · next sign _ =>
    by_cases hunary : sign.unaryPrecedence = 0
    · simp [hunary]
    · simp [hunary, h sign hunary]
  · rfl

theorem joiningOperator?_unary {sign : Sign} (h : sign.unaryPrecedence ≠ 0) (tokens : List Token) :
    joiningOperator? sign.unaryPrecedence tokens = none := by
  unfold joiningOperator?
  split
  · next other _ => exact if_neg (Nat.lt_asymm (Sign.binaryPrecedence_lt_unary other sign h))
  · rfl

/-- An operator in front of an operand takes that operand and nothing that is joined to it. -/
theorem parseOperation_eq_parseOperand {level : Nat} (h : Admits level) (tokens : List Token) :
    parseOperation level tokens = (do
      let ⟨operand, r₁, h₁⟩ ← parseOperand tokens
      afterOptional h₁ (parseJoined level operand.tree r₁)) := by
  rw [parseOperation, parseOperand, leadingOperator?_of_admits h]
  cases hsign : leadingOperator? 0 tokens with
  | none =>
    rcases parsePostfix tokens with mismatch | ⟨base, r₁, h₁⟩ <;> rfl
  | some sign =>
    obtain ⟨⟨operator, r₁, h₁⟩, hoperator, -⟩ :=
      takeOperator_of_nextKind (nextKind_of_leadingOperator? hsign)
    simp only [hoperator, except_ok_bind]
    rw [parseOperation_eq_parseOperand (admits_unary sign) r₁]
    rcases parseOperand r₁ with mismatch | ⟨operand, r₂, h₂⟩
    · rfl
    simp only [except_ok_bind]
    rw [parseJoined, joiningOperator?_unary (leadingOperator?_eq_some hsign).1]
    rfl
termination_by tokens.length

/-- What is joined to an operand at a level is the tree of the links that are read at that level. -/
theorem parseJoined_eq_parseLinks {level : Nat} (h : Admits level) (left : Expression)
    (tokens : List Token) :
    parseJoined level left tokens = (do
      let ⟨links, r₁, h₁⟩ ← parseLinks level tokens
      return ⟨joinLinks left links, r₁, h₁⟩) := by
  rw [parseJoined, parseLinks]
  cases hsign : joiningOperator? level tokens with
  | none => simp [Parsed.unread]
  | some sign =>
    obtain ⟨hkind, hlevel⟩ := joiningOperator?_eq_some hsign
    obtain ⟨⟨operator, r₁, h₁⟩, hoperator, rfl⟩ := takeOperator_of_nextKind hkind
    simp only [hoperator, except_ok_bind]
    rw [parseOperation_eq_parseOperand (admits_binary operator.sign)]
    rcases parseOperand r₁ with mismatch | ⟨operand, r₂, h₂⟩
    · rfl
    simp only [except_ok_bind, after, Parsed.below]
    rw [parseJoined_eq_parseLinks (admits_binary operator.sign) operand.tree r₂,
      parseLinks_eq_parts (Nat.le_of_lt hlevel) r₂]
    cases hinner : parseLinks operator.sign.binaryPrecedence r₂ with
    | error mismatch => rfl
    | ok inner =>
      have hlt := inner.shorter
      have htighter := parseLinks_tighter hinner
      have hstops := parseLinks_stops hinner
      obtain ⟨inner, r₃, h₃⟩ := inner
      simp only [except_pure, except_ok_bind, afterOptional, Parsed.optionalBelow]
      rw [parseJoined_eq_parseLinks h _ r₃]
      cases hlinks : parseLinks level r₃ with
      | error mismatch => rfl
      | ok links =>
        have hhead := parseLinks_head hstops hlinks
        have htree := joinLinks_binary left ⟨operator, operand⟩ inner links.value htighter hhead
        simp only [except_pure, except_ok_bind, Parsed.optional]
        rw [← List.cons_append, htree]
termination_by tokens.length

/-- Reading operands with operators by precedence comes to what reading them as a chain comes to,
and to the tree of that chain. -/
theorem parseOperation_eq_parseChain (tokens : List Token) :
    parseOperation 0 tokens = (do
      let ⟨chain, r₁, h₁⟩ ← parseChain tokens
      return ⟨chain.tree, r₁, h₁⟩) := by
  rw [parseOperation_eq_parseOperand admits_zero, parseChain]
  rcases parseOperand tokens with mismatch | ⟨first, r₁, h₁⟩
  · rfl
  simp only [except_ok_bind]
  rw [parseJoined_eq_parseLinks admits_zero]
  rcases parseLinks 0 r₁ with mismatch | ⟨links, r₂, h₂⟩ <;> rfl

end TodLang
