import TodLang.Proofs.Grammar.Reread
/-!
A semicolon put among tokens leaves what is read in front of it as it was. The readers look at more
tokens than they read, so the semicolon may come into their view; there it changes nothing, since
it goes on with no type and no expression. The lemmas go by induction on how something was read:
the tokens that a reader has gone over when it is done are the same in both rows.
-/

namespace TodLang

/-! ### A token put in -/

/-- One row of tokens is another one, perhaps with a token put in front of those at its end. -/
def Inserted (t : Token) (r ts us : List Token) : Prop :=
  us = ts ∨ ∃ front, ts = front ++ r ∧ us = front ++ t :: r

/-- Something is read that leaves some tokens, perhaps with a token put in. -/
def ReadsOn (t : Token) (r : List Token) (reading : List Token → Prop) (rest : List Token) : Prop :=
  ∃ rest', reading rest' ∧ Inserted t r rest rest'

section

variable {α : Type} {t : Token} {r ts us front : List Token} {kind : TokenKind}

theorem Inserted.refl (t : Token) (r ts : List Token) : Inserted t r ts ts :=
  .inl rfl

/-- Nothing was put in before the tokens at the end were reached. -/
theorem Inserted.behind (h : Inserted t r (front ++ ts) us) (hlen : r.length ≤ ts.length) :
    ∃ us', us = front ++ us' ∧ Inserted t r ts us' := by
  rcases h with rfl | ⟨before, hts, rfl⟩
  · exact ⟨ts, rfl, .refl t r ts⟩
  · have hlength : front.length ≤ before.length := by
      have := congrArg List.length hts
      simp only [List.length_append] at this
      omega
    obtain ⟨middle, rfl⟩ := List.prefix_of_prefix_length_le (List.prefix_append front ts)
      (hts ▸ List.prefix_append before r) hlength
    rw [List.append_assoc, List.append_cancel_left_eq] at hts
    exact ⟨middle ++ t :: r, List.append_assoc _ _ _, .inr ⟨middle, hts, rfl⟩⟩

/-- What was put in is seen at some distance only if it stands there. -/
theorem Inserted.kindAt_or (h : Inserted t r ts us) (distance : Nat)
    (hlen : r.length + distance ≤ ts.length) :
    kindAt us distance = kindAt ts distance ∨ kindAt us distance = some t.kind := by
  rw [← List.take_append_drop distance ts] at h
  obtain ⟨us', rfl, hus'⟩ := h.behind (by rw [List.length_drop]; omega)
  have hus : kindAt (ts.take distance ++ us') distance = nextKind us' := by
    rw [nextKind, kindAt, kindAt, List.getElem?_append_right (List.length_take_le _ _)]
    rw [List.length_take, Nat.min_eq_left (by omega), Nat.sub_self]
  have hts : kindAt ts distance = nextKind (ts.drop distance) := by
    rw [nextKind, kindAt, kindAt, List.getElem?_drop, Nat.add_zero]
  rw [hus, hts]
  rcases hus' with rfl | ⟨_ | ⟨first, others⟩, hdrop, rfl⟩
  · exact .inl rfl
  · exact .inr rfl
  · exact .inl (by rw [hdrop]; rfl)

/-- What stands in front of the place is seen as before. -/
theorem Inserted.kindAt_eq (h : Inserted t r ts us) {distance : Nat}
    (hlen : r.length + distance < ts.length) : kindAt us distance = kindAt ts distance := by
  rw [← List.take_append_drop (distance + 1) ts] at h
  obtain ⟨us', rfl, -⟩ := h.behind (by rw [List.length_drop]; omega)
  rw [kindAt, kindAt, List.getElem?_append_left (by rw [List.length_take]; omega),
    List.getElem?_take_of_lt (Nat.lt_succ_self distance)]

theorem Inserted.nextKind_eq (h : Inserted t r ts us) (hlen : r.length < ts.length) :
    nextKind us = nextKind ts :=
  h.kindAt_eq hlen

/-- A kind other than that of what was put in is not seen where it was not seen before. -/
theorem Inserted.kindAt_ne (h : Inserted t r ts us) {distance : Nat}
    (hlen : r.length + distance ≤ ts.length) (hother : t.kind ≠ kind)
    (hkind : kindAt ts distance ≠ some kind) : kindAt us distance ≠ some kind := by
  rcases h.kindAt_or distance hlen with heq | heq
  · rwa [heq]
  · rw [heq]
    simpa using hother

theorem Inserted.nextKind_ne (h : Inserted t r ts us) (hlen : r.length ≤ ts.length)
    (hother : t.kind ≠ kind) (hkind : nextKind ts ≠ some kind) : nextKind us ≠ some kind := by
  have hlen : r.length + 0 ≤ ts.length := hlen
  exact h.kindAt_ne hlen hother hkind

end

/-! ### Single tokens -/

section

variable {t : Token} {r ts us rest : List Token}

/-- A token that is read is read with another one put in behind it. -/
theorem Inserted.token {holds : Token → Prop} (h : Inserted t r ts us)
    (hts : ∃ c, ts = c :: rest ∧ holds c) (hlen : r.length ≤ rest.length) :
    ReadsOn t r (fun rest' => ∃ c, us = c :: rest' ∧ holds c) rest := by
  obtain ⟨c, rfl, hc⟩ := hts
  have h : Inserted t r ([c] ++ rest) us := h
  obtain ⟨rest', hus, hrest⟩ := h.behind hlen
  exact ⟨rest', ⟨c, hus, hc⟩, hrest⟩

theorem takeIdent_inserted (h : Inserted t r ts us) {name : Ident}
    (hp : ReadsAs takeIdent ts name rest) (hlen : r.length ≤ rest.length) :
    ReadsOn t r (ReadsAs takeIdent us name) rest := by
  obtain ⟨rest', hread, hrest⟩ := h.token (takeIdent_iff.1 hp) hlen
  exact ⟨rest', takeIdent_iff.2 hread, hrest⟩

theorem takeSign_inserted (h : Inserted t r ts us) {sign : Sign} {span : Span}
    (hp : ReadsAs (takeSign sign) ts span rest) (hlen : r.length ≤ rest.length) :
    ReadsOn t r (ReadsAs (takeSign sign) us span) rest := by
  obtain ⟨rest', hread, hrest⟩ := h.token (takeSign_iff.1 hp) hlen
  exact ⟨rest', takeSign_iff.2 hread, hrest⟩

theorem takeOperator_inserted (h : Inserted t r ts us) {sign : Sign} {operator : Operator}
    (hp : ReadsAs (takeOperator sign) ts operator rest) (hlen : r.length ≤ rest.length) :
    ReadsOn t r (ReadsAs (takeOperator sign) us operator) rest := by
  obtain ⟨rest', hread, hrest⟩ := h.token (takeOperator_iff.1 hp) hlen
  exact ⟨rest', takeOperator_iff.2 hread, hrest⟩

theorem takeKeyword_inserted (h : Inserted t r ts us) {word : Keyword} {span : Span}
    (hp : ReadsAs (takeKeyword word) ts span rest) (hlen : r.length ≤ rest.length) :
    ReadsOn t r (ReadsAs (takeKeyword word) us span) rest := by
  obtain ⟨rest', hread, hrest⟩ := h.token (takeKeyword_iff.1 hp) hlen
  exact ⟨rest', takeKeyword_iff.2 hread, hrest⟩

end

/-! ### Written types -/

section

variable {t : Token} {r : List Token}

theorem QualifiedNameReading.inserted (ht : t.kind = .sign .semicolon) {ts us rest : List Token}
    {name : QualifiedName} (h : QualifiedNameReading ts name rest) (hus : Inserted t r ts us)
    (hlen : r.length ≤ rest.length) : ReadsOn t r (QualifiedNameReading us name) rest := by
  cases h with
  | plain hname hseparator =>
    obtain ⟨u₁, hname, h₁⟩ := takeIdent_inserted hus hname hlen
    exact ⟨u₁, .plain hname (h₁.nextKind_ne hlen (by simp [ht]) hseparator), h₁⟩
  | qualified hpackage hseparator hname =>
    obtain ⟨u₁, hpackage, h₁⟩ := takeIdent_inserted hus hpackage (by grind)
    obtain ⟨u₂, hseparator, h₂⟩ := takeSign_inserted h₁ hseparator (by grind)
    obtain ⟨u₃, hname, h₃⟩ := takeIdent_inserted h₂ hname hlen
    exact ⟨u₃, .qualified hpackage hseparator hname, h₃⟩

mutual

theorem TypeReading.inserted (ht : t.kind = .sign .semicolon) {ts us rest : List Token}
    {type : TypeClause} (h : TypeReading ts type rest) (hus : Inserted t r ts us)
    (hlen : r.length ≤ rest.length) : ReadsOn t r (TypeReading us type) rest := by
  match h with
  | .plain hname hopening =>
    obtain ⟨u₁, hname, h₁⟩ := hname.inserted ht hus hlen
    exact ⟨u₁, .plain hname (h₁.nextKind_ne hlen (by simp [ht]) hopening), h₁⟩
  | .generic hname hopening harguments hclosing =>
    obtain ⟨u₁, hname, h₁⟩ := hname.inserted ht hus (by grind)
    obtain ⟨u₂, hopening, h₂⟩ := takeSign_inserted h₁ hopening (by grind)
    obtain ⟨u₃, harguments, h₃⟩ := harguments.inserted ht h₂ (by grind)
    obtain ⟨u₄, hclosing, h₄⟩ := takeSign_inserted h₃ hclosing hlen
    exact ⟨u₄, .generic hname hopening harguments hclosing, h₄⟩
termination_by structural h

theorem TypeArgumentsReading.inserted (ht : t.kind = .sign .semicolon) {ts us rest : List Token}
    {types : List TypeClause} (h : TypeArgumentsReading ts types rest) (hus : Inserted t r ts us)
    (hlen : r.length ≤ rest.length) : ReadsOn t r (TypeArgumentsReading us types) rest := by
  match h with
  | .last hfirst hcomma =>
    obtain ⟨u₁, hfirst, h₁⟩ := hfirst.inserted ht hus hlen
    exact ⟨u₁, .last hfirst (h₁.nextKind_ne hlen (by simp [ht]) hcomma), h₁⟩
  | .more hfirst hcomma hothers =>
    obtain ⟨u₁, hfirst, h₁⟩ := hfirst.inserted ht hus (by grind)
    obtain ⟨u₂, hcomma, h₂⟩ := takeSign_inserted h₁ hcomma (by grind)
    obtain ⟨u₃, hothers, h₃⟩ := hothers.inserted ht h₂ hlen
    exact ⟨u₃, .more hfirst hcomma hothers, h₃⟩
termination_by structural h

end

theorem parseTypeClause_inserted (ht : t.kind = .sign .semicolon) {ts us rest : List Token}
    (h : Inserted t r ts us) {type : TypeClause} (hp : ReadsAs parseTypeClause ts type rest)
    (hlen : r.length ≤ rest.length) : ReadsOn t r (ReadsAs parseTypeClause us type) rest := by
  obtain ⟨rest', hread, hrest⟩ := (parseTypeClause_iff.1 hp).inserted ht h hlen
  exact ⟨rest', hread.reads, hrest⟩

end

/-! ### Casts -/

section

variable {t : Token} {r ts us rest : List Token}

theorem QualifiedSpelling.semicolon_notMem {package : Option Ident} {name : Ident}
    {tokens : List Token} (h : QualifiedSpelling package name tokens) :
    ∀ u ∈ tokens, u.kind ≠ .sign .semicolon := by
  rcases h with ⟨⟨hname⟩⟩ | ⟨⟨hpackage⟩, ⟨hseparator⟩, ⟨hname⟩⟩
  · simp [hname]
  · simp [hpackage, hseparator, hname]

/-- No token of a written type is a semicolon. -/
theorem SpellsType.semicolon_notMem {part : TypePart} {tokens : List Token}
    (h : SpellsType part tokens) : ∀ u ∈ tokens, u.kind ≠ .sign .semicolon := by
  induction h with
  | plain hname => exact hname.semicolon_notMem
  | generic hname hopening _ hclosing ih =>
    obtain ⟨hopening⟩ := hopening
    obtain ⟨hclosing⟩ := hclosing
    have hfront := hname.semicolon_notMem
    simp_all [or_imp]
  | last _ ih => exact ih
  | more _ hcomma _ ih ihothers =>
    obtain ⟨hcomma⟩ := hcomma
    simp_all [or_imp]

/-- What stands in front of the place where a token was put in stood there without it too. -/
theorem Inserted.unbehind {front rest : List Token} (h : Inserted t r ts (front ++ rest))
    (hfront : t ∉ front) : ∃ rest', ts = front ++ rest' := by
  rcases h with h | ⟨before, rfl, h⟩
  · exact ⟨rest, h.symm⟩
  · rcases List.append_eq_append_iff.1 h with ⟨between, rfl, -⟩ | ⟨between, rfl, hrest⟩
    · exact ⟨between ++ r, List.append_assoc _ _ _⟩
    · cases between with
      | nil => exact ⟨r, by simp⟩
      | cons u others =>
        obtain ⟨rfl, -⟩ := List.cons.inj hrest
        simp at hfront

theorem tryCastHead?_inserted (h : Inserted t r ts us) {type : TypeClause}
    {hlt : rest.length < ts.length} (hp : tryCastHead? ts = some ⟨type, rest, hlt⟩)
    (hlen : r.length ≤ rest.length) :
    ∃ rest', Inserted t r rest rest' ∧ ∃ hlt, tryCastHead? us = some ⟨type, rest', hlt⟩ := by
  obtain ⟨clause, opened, rfl, htype, ⟨hopening⟩⟩ := tryCastHead?_spells hp
  obtain ⟨rest', rfl, hrest⟩ := h.behind hlen
  refine ⟨rest', hrest, ?_⟩
  rw [List.append_assoc]
  exact tryCastHead?_iff.2 ⟨_, htype.parses _ (by simp [goesOnType, hopening]), hopening⟩

theorem tryCastHead?_none_inserted (ht : t.kind = .sign .semicolon) (h : Inserted t r ts us)
    (hp : tryCastHead? ts = none) : tryCastHead? us = none := by
  cases hq : tryCastHead? us with
  | none => rfl
  | some q =>
    obtain ⟨clause, _, hus, htype, @⟨lparen, hopening⟩⟩ := tryCastHead?_spells hq
    rw [hus] at h
    obtain ⟨rest, rfl⟩ := h.unbehind (by
      intro hmem
      rcases List.mem_append.1 hmem with hclause | hopened
      · exact SpellsType.semicolon_notMem htype t hclause ht
      · rw [List.mem_singleton.1 hopened, hopening] at ht
        cases ht)
    rw [List.append_assoc, List.singleton_append] at hp
    have hclause := htype.parses (lparen :: rest) (by simp [goesOnType, hopening])
    obtain ⟨_, hfound⟩ := tryCastHead?_iff.2 ⟨_, hclause, hopening⟩
    rw [hfound] at hp
    cases hp

/-- A written type in front of a parenthesis takes up one token at least, and three if a package
is named. -/
theorem tryCastHead?_shorter {type : TypeClause} {hlt : rest.length < ts.length}
    (hp : tryCastHead? ts = some ⟨type, rest, hlt⟩) :
    rest.length + 1 < ts.length ∧
      (kindAt ts 1 = some (.sign .pathSep) → rest.length + 3 < ts.length) := by
  obtain ⟨clause, opened, rfl, htype, ⟨hopening⟩⟩ := tryCastHead?_spells hp
  rcases htype with ⟨⟨⟨hname⟩⟩ | ⟨⟨_⟩, ⟨_⟩, ⟨_⟩⟩⟩ | ⟨⟨⟨_⟩⟩ | ⟨⟨_⟩, ⟨_⟩, ⟨_⟩⟩, ⟨_⟩, _, ⟨_⟩⟩
  · simp [hopening]
  all_goals
    simp only [List.length_append, List.length_cons, List.length_nil]
    omega

end

/-! ### Looking ahead in expressions -/

section

variable {t : Token} {r ts us : List Token}

theorem Inserted.opening_eq (h : Inserted t r ts us) (hlen : r.length + 3 ≤ ts.length) :
    opening us = opening ts := by
  match ts, hlen with
  | target :: operator :: third :: others, hlen =>
    have hrest : r.length ≤ others.length := by
      simp only [List.length_cons] at hlen
      omega
    have h : Inserted t r ([target, operator, third] ++ others) us := h
    obtain ⟨us', rfl, -⟩ := h.behind hrest
    rfl

/-- Behind a name and a sign, a semicolon completes no step. -/
theorem opening_semicolon {target operator : Token} (ht : t.kind = .sign .semicolon)
    (hopening : opening (target :: operator :: r) = .operand) :
    opening (target :: operator :: t :: r) = .operand := by
  unfold opening at hopening ⊢
  dsimp only at hopening ⊢
  split
  · next sign htarget hoperator =>
    rw [htarget, hoperator] at hopening
    dsimp only at hopening
    by_cases hassign : sign = .assign
    · rw [if_pos hassign] at hopening
      cases hopening
    by_cases hedit : sign.isEdit = true
    · rw [if_neg hassign, if_pos hedit] at hopening
      cases hopening
    rw [if_neg hassign, if_neg hedit, if_neg]
    rintro ⟨hstep, -, hnext⟩
    rw [nextKind_cons, ht] at hnext
    cases hnext
    cases hstep
  · rfl

/-- What begins an operand begins one with a semicolon put in too. -/
theorem Inserted.opening_operand (ht : t.kind = .sign .semicolon) (h : Inserted t r ts us)
    (hlen : r.length < ts.length) (hopening : opening ts = .operand) : opening us = .operand := by
  rcases h with rfl | ⟨_ | ⟨target, _ | ⟨operator, _ | ⟨third, others⟩⟩⟩, rfl, rfl⟩
  · exact hopening
  · exact absurd hlen (Nat.lt_irrefl _)
  · cases hkind : target.kind <;> simp [opening, hkind, ht, Sign.isEdit, Sign.isStep]
  · exact opening_semicolon ht hopening
  · exact hopening

theorem Inserted.atMain_eq (h : Inserted t r ts us) (hlen : r.length + 2 ≤ ts.length) :
    atMain us = atMain ts := by
  match ts, hlen with
  | word :: name :: others, hlen =>
    have hrest : r.length ≤ others.length := by
      simp only [List.length_cons] at hlen
      omega
    have h : Inserted t r ([word, name] ++ others) us := h
    obtain ⟨us', rfl, -⟩ := h.behind hrest
    rfl

theorem Inserted.atMain_false (ht : t.kind = .sign .semicolon) (h : Inserted t r ts us)
    (hlen : r.length < ts.length) (hmain : atMain ts = false) : atMain us = false := by
  rcases h with rfl | ⟨_ | ⟨word, _ | ⟨name, others⟩⟩, rfl, rfl⟩
  · exact hmain
  · exact absurd hlen (Nat.lt_irrefl _)
  · simp [atMain, ht]
  · exact hmain

end

end TodLang
