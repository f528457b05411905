import TodLang.Grammar.Parsed
/-!
What a reader of the grammar gives, as a relation: the value it reads from some tokens and the
tokens it leaves. Readers in a row are put together from what each of them gives, and taken apart
into it, so that no proof has to look at bounds. What the readers of single tokens give is said by
the token alone.
-/

namespace TodLang

/-! ### Outcomes -/

section

variable {α β : Type} {m n : Nat} {bound : List Token → Nat} {a : α} {b : β}
  {tokens rest rest' : List Token} {reader : (tokens : List Token) → Parse α (bound tokens)}

/-- A reader's outcome is a value, with certain tokens left. -/
def Gives (outcome : Parse α n) (value : α) (rest : List Token) : Prop :=
  ∃ h, outcome = .ok ⟨value, rest, h⟩

/-- A reader reads a value from some tokens and leaves the rest of them. -/
def ReadsAs (reader : (tokens : List Token) → Parse α (bound tokens)) (tokens : List Token)
    (value : α) (rest : List Token) : Prop :=
  Gives (reader tokens) value rest

theorem gives_return {h : rest.length < n} : Gives (pure ⟨a, rest, h⟩ : Parse α n) a rest :=
  ⟨h, rfl⟩

theorem Gives.bind {outcome : Parse α m} {next : Parsed α m → Parse β n}
    (h : Gives outcome a rest) (hnext : ∀ h, Gives (next ⟨a, rest, h⟩) b rest') :
    Gives (outcome >>= next) b rest' := by
  obtain ⟨hlt, rfl⟩ := h
  exact hnext hlt

theorem ReadsAs.bind {next : Parsed α (bound tokens) → Parse β n}
    (h : ReadsAs reader tokens a rest) (hnext : ∀ h, Gives (next ⟨a, rest, h⟩) b rest') :
    Gives (reader tokens >>= next) b rest' :=
  Gives.bind h hnext

theorem ReadsAs.after {reader : (tokens : List Token) → Parse α tokens.length}
    (h : ReadsAs reader tokens a rest) {hlt : tokens.length < n} :
    Gives (TodLang.after hlt (reader tokens)) a rest := by
  obtain ⟨_, heq⟩ := h
  rw [heq]
  exact ⟨_, rfl⟩

theorem ReadsAs.afterOptional {reader : (tokens : List Token) → Parse α (tokens.length + 1)}
    (h : ReadsAs reader tokens a rest) {hlt : tokens.length < n} :
    Gives (TodLang.afterOptional hlt (reader tokens)) a rest := by
  obtain ⟨_, heq⟩ := h
  rw [heq]
  exact ⟨_, rfl⟩

end

/-! ### Outcomes, step by step -/

section

variable {α β : Type} {k m n : Nat} {a : α} {b : β} {tokens rest rest' : List Token}

theorem Gives.shorter {outcome : Parse α n} (h : Gives outcome a rest) : rest.length < n := by
  obtain ⟨hlt, -⟩ := h
  exact hlt

/-- A reader of what has to be there leaves fewer tokens. -/
@[grind →]
theorem ReadsAs.length_lt {reader : (tokens : List Token) → Parse α tokens.length}
    (h : ReadsAs reader tokens a rest) : rest.length < tokens.length :=
  Gives.shorter h

/-- A reader of what may be missing leaves no more tokens. -/
theorem ReadsAs.length_le {reader : (tokens : List Token) → Parse α (tokens.length + 1)}
    (h : ReadsAs reader tokens a rest) : rest.length ≤ tokens.length :=
  Nat.le_of_lt_succ (Gives.shorter h)

theorem ReadsAs.isEmpty_eq_false {reader : (tokens : List Token) → Parse α tokens.length}
    (h : ReadsAs reader tokens a rest) : ¬tokens.isEmpty = true := by
  rintro hempty
  have hlt := h.length_lt
  rw [List.isEmpty_iff.1 hempty] at hlt
  exact absurd hlt (Nat.not_lt_zero _)

/-- What the first of two steps gives, if both succeed. -/
theorem bind_ok {outcome : Except Mismatch α} {next : α → Except Mismatch β}
    (h : outcome >>= next = .ok b) : ∃ a, outcome = .ok a ∧ next a = .ok b := by
  cases outcome with
  | error mismatch => cases h
  | ok a => exact ⟨a, rfl, h⟩

theorem Gives.of_return {h : rest.length < n} {a' : α}
    (hgives : Gives (pure ⟨a, rest, h⟩ : Parse α n) a' rest') : a = a' ∧ rest = rest' := by
  obtain ⟨_, heq⟩ := hgives
  cases heq
  exact ⟨rfl, rfl⟩

theorem Gives.of_optional {h : rest.length < n} {a' : α}
    (hgives : Gives (pure (Parsed.optional ⟨a, rest, h⟩) : Parse α (n + 1)) a' rest') :
    a = a' ∧ rest = rest' :=
  hgives.of_return

theorem Gives.of_unread {a' : α}
    (hgives : Gives (pure (Parsed.unread a rest) : Parse α (rest.length + 1)) a' rest') :
    a = a' ∧ rest = rest' :=
  hgives.of_return

theorem Gives.of_bind {outcome : Parse α m} {next : Parsed α m → Parse β n}
    (h : Gives (outcome >>= next) b rest') :
    ∃ a rest, ∃ hlt : rest.length < m, Gives outcome a rest ∧
      Gives (next ⟨a, rest, hlt⟩) b rest' := by
  obtain ⟨hlt, h⟩ := h
  obtain ⟨p, rfl, h⟩ := bind_ok h
  exact ⟨p.value, p.rest, p.shorter, ⟨p.shorter, rfl⟩, hlt, h⟩

theorem Gives.of_after {outcome : Parse α k} {hk : k < m} (h : Gives (after hk outcome) a rest) :
    rest.length < k ∧ Gives outcome a rest := by
  obtain ⟨_, h⟩ := h
  obtain ⟨q, rfl, rfl, rfl⟩ := after_eq_ok.1 h
  exact ⟨q.shorter, q.shorter, rfl⟩

theorem Gives.of_afterOptional {outcome : Parse α (k + 1)} {hk : k < m}
    (h : Gives (afterOptional hk outcome) a rest) : rest.length ≤ k ∧ Gives outcome a rest := by
  obtain ⟨_, h⟩ := h
  obtain ⟨q, rfl, rfl, rfl⟩ := afterOptional_eq_ok.1 h
  exact ⟨Nat.le_of_lt_succ q.shorter, q.shorter, rfl⟩

theorem Gives.of_bind_after {outcome : Parse α k} {hk : k < m} {next : Parsed α m → Parse β n}
    (h : Gives (after hk outcome >>= next) b rest') :
    ∃ a rest, ∃ hlt : rest.length < m, rest.length < k ∧ Gives outcome a rest ∧
      Gives (next ⟨a, rest, hlt⟩) b rest' := by
  obtain ⟨a, rest, hlt, hfirst, hnext⟩ := h.of_bind
  obtain ⟨hshorter, hfirst⟩ := hfirst.of_after
  exact ⟨a, rest, hlt, hshorter, hfirst, hnext⟩

theorem Gives.of_bind_afterOptional {outcome : Parse α (k + 1)} {hk : k < m}
    {next : Parsed α m → Parse β n} (h : Gives (afterOptional hk outcome >>= next) b rest') :
    ∃ a rest, ∃ hlt : rest.length < m, rest.length ≤ k ∧ Gives outcome a rest ∧
      Gives (next ⟨a, rest, hlt⟩) b rest' := by
  obtain ⟨a, rest, hlt, hfirst, hnext⟩ := h.of_bind
  obtain ⟨hshorter, hfirst⟩ := hfirst.of_afterOptional
  exact ⟨a, rest, hlt, hshorter, hfirst, hnext⟩

end

/-! ### Single tokens -/

@[simp] theorem nextKind_cons (t : Token) (tokens : List Token) :
    nextKind (t :: tokens) = some t.kind := rfl

@[simp] theorem kindAt_succ_cons (t : Token) (tokens : List Token) (distance : Nat) :
    kindAt (t :: tokens) (distance + 1) = kindAt tokens distance := by
  simp [kindAt]

@[simp] theorem kindAt_zero (tokens : List Token) : kindAt tokens 0 = nextKind tokens := rfl

section

variable {t : Token} {ts rest : List Token} {kind : TokenKind} {n : Nat}

theorem accept?_of_kind (h : t.kind = kind) :
    accept? kind (t :: rest) = some ⟨t, rest, Nat.lt_succ_self rest.length⟩ := by
  simp [accept?, h]

theorem acceptAfter?_of_kind (hn : (t :: rest).length < n) (h : t.kind = kind) :
    ∃ hlt, acceptAfter? hn kind = some ⟨t, rest, hlt⟩ := by
  rw [acceptAfter?, accept?_of_kind h]
  exact ⟨_, rfl⟩

theorem acceptAfter?_eq_none {hn : rest.length < n} (h : nextKind rest ≠ some kind) :
    acceptAfter? hn kind = none := by
  rw [acceptAfter?, accept?_eq_none_iff.2 h]
  rfl

theorem nextKind_of_acceptAfter? {hn : rest.length < n} (h : acceptAfter? hn kind = none) :
    nextKind rest ≠ some kind := by
  rw [acceptAfter?, findAfter?, Option.map_eq_none_iff] at h
  exact accept?_eq_none_iff.1 h

theorem take_of_kind (h : t.kind = kind) : ReadsAs (take kind) (t :: rest) t rest := by
  rw [ReadsAs, take, accept?_of_kind h]
  exact ⟨_, rfl⟩

theorem take_iff : ReadsAs (take kind) ts t rest ↔ ts = t :: rest ∧ t.kind = kind := by
  constructor
  · rintro ⟨_, h⟩
    unfold take at h
    split at h
    · next hfound =>
      cases h
      exact accept?_eq_some hfound
    · cases h
  · rintro ⟨rfl, hkind⟩
    exact take_of_kind hkind

/-- What may be missing is taken if it comes next. -/
theorem takeOptional_iff {found : Option Token} : ReadsAs (takeOptional kind) ts found rest ↔
    match found with
    | none => nextKind ts ≠ some kind ∧ rest = ts
    | some t => ts = t :: rest ∧ t.kind = kind := by
  rw [ReadsAs, takeOptional]
  constructor
  · intro h
    split at h
    · next hfound =>
      obtain ⟨rfl, rfl⟩ := Gives.of_optional h
      exact accept?_eq_some hfound
    · next hnone =>
      obtain ⟨rfl, rfl⟩ := Gives.of_unread h
      exact ⟨accept?_eq_none_iff.1 hnone, rfl⟩
  · intro h
    cases found with
    | none =>
      obtain ⟨hkind, rfl⟩ := h
      rw [accept?_eq_none_iff.2 hkind]
      exact gives_return
    | some t =>
      obtain ⟨rfl, hkind⟩ := h
      rw [accept?_of_kind hkind]
      exact gives_return

/-- A reader of one token gives what it makes of the token. -/
theorem take_map_iff {α : Type} {f : Token → α} {value : α} :
    Gives (take kind ts >>= fun p => return ⟨f p.value, p.rest, p.shorter⟩) value rest ↔
      ∃ t, ts = t :: rest ∧ t.kind = kind ∧ f t = value := by
  constructor
  · intro h
    obtain ⟨t, r, _, htaken, h⟩ := h.of_bind
    obtain ⟨rfl, rfl⟩ := h.of_return
    obtain ⟨heq, hkind⟩ := take_iff.1 htaken
    exact ⟨t, heq, hkind, rfl⟩
  · rintro ⟨t, rfl, hkind, rfl⟩
    refine (take_of_kind hkind).bind fun _ => ?_
    exact gives_return

theorem takeIdent_iff {name : Ident} : ReadsAs takeIdent ts name rest ↔
    ∃ t, ts = t :: rest ∧ t.kind = .identifier ∧ t.ident = name :=
  take_map_iff

theorem takeSign_iff {sign : Sign} {span : Span} : ReadsAs (takeSign sign) ts span rest ↔
    ∃ t, ts = t :: rest ∧ t.kind = .sign sign ∧ t.span = span :=
  take_map_iff

theorem takeKeyword_iff {word : Keyword} {span : Span} :
    ReadsAs (takeKeyword word) ts span rest ↔
      ∃ t, ts = t :: rest ∧ t.kind = .keyword word ∧ t.span = span :=
  take_map_iff

theorem takeOperator_iff {sign : Sign} {operator : Operator} :
    ReadsAs (takeOperator sign) ts operator rest ↔
      ∃ t, ts = t :: rest ∧ t.kind = .sign sign ∧ ⟨sign, t.span⟩ = operator :=
  take_map_iff (f := fun t => (⟨sign, t.span⟩ : Operator))

theorem eq_cons_of_acceptAfter? {hn : ts.length < n} {hlt : rest.length < n}
    (h : acceptAfter? hn kind = some ⟨t, rest, hlt⟩) : ts = t :: rest ∧ t.kind = kind := by
  obtain ⟨q, hq, heq⟩ := Option.map_eq_some_iff.1 h
  cases heq
  exact accept?_eq_some hq

theorem takeIdent_of_kind (h : t.kind = .identifier) : ReadsAs takeIdent (t :: rest) t.ident rest :=
  takeIdent_iff.2 ⟨t, rfl, h, rfl⟩

theorem takeSign_of_kind {sign : Sign} (h : t.kind = .sign sign) :
    ReadsAs (takeSign sign) (t :: rest) t.span rest :=
  takeSign_iff.2 ⟨t, rfl, h, rfl⟩

theorem takeKeyword_of_kind {word : Keyword} (h : t.kind = .keyword word) :
    ReadsAs (takeKeyword word) (t :: rest) t.span rest :=
  takeKeyword_iff.2 ⟨t, rfl, h, rfl⟩

theorem ReadsAs.nextKind_sign {sign : Sign} {span : Span}
    (h : ReadsAs (takeSign sign) ts span rest) : nextKind ts = some (.sign sign) := by
  obtain ⟨_, rfl, hkind, -⟩ := takeSign_iff.1 h
  rw [nextKind_cons, hkind]

theorem ReadsAs.nextKind_keyword {word : Keyword} {span : Span}
    (h : ReadsAs (takeKeyword word) ts span rest) : nextKind ts = some (.keyword word) := by
  obtain ⟨_, rfl, hkind, -⟩ := takeKeyword_iff.1 h
  rw [nextKind_cons, hkind]

theorem ReadsAs.nextKind_identifier {name : Ident} (h : ReadsAs takeIdent ts name rest) :
    nextKind ts = some .identifier := by
  obtain ⟨_, rfl, hkind, -⟩ := takeIdent_iff.1 h
  rw [nextKind_cons, hkind]

/-- Behind a name the tokens are seen that it leaves. -/
theorem ReadsAs.kindAt_succ {name : Ident} (h : ReadsAs takeIdent ts name rest) (distance : Nat) :
    kindAt ts (distance + 1) = kindAt rest distance := by
  obtain ⟨_, rfl, -⟩ := takeIdent_iff.1 h
  exact kindAt_succ_cons _ _ _

end

end TodLang
