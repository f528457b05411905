import TodLang.Proofs.Cursor.Trail
/-!
What it means that a reader with a cursor does what a reader of lists does (`Follows`): from a
cursor with the same tokens ahead it leaves a trail to where the other reader stops, with the same
value or for the same reason. The lemmas here say of the steps that readers are made of what they do
with the tokens ahead.
-/

namespace TodLang

namespace Steps

section

variable {α β : Type} {tokens : List Token} {c d : Cursor} {x : Steps α} {f : α → Steps β}

theorem outcome?_bind_ok {a : α} (h : outcome? tokens c x = some (.ok a, d)) :
    outcome? tokens c (x >>= f) = outcome? tokens d (f a) := by
  simp only [outcome?, ReaderT.run_bind, ExceptT.run_bind, StateT.run_bind] at h ⊢
  rw [h]
  rfl

theorem outcome?_bind_error {e : SyntaxError} (h : outcome? tokens c x = some (.error e, d)) :
    outcome? tokens c (x >>= f) = some (.error e, d) := by
  simp only [outcome?, ReaderT.run_bind, ExceptT.run_bind, StateT.run_bind] at h ⊢
  rw [h]
  rfl

end

end Steps

/-! ### What readers do -/

section

variable {α β : Type} {m n : Nat} {tokens ts : List Token} {p q : Nat}

/-- A reader that gives a value and leaves the cursor where it is. -/
def Looks (tokens : List Token) (p : Nat) (x : Steps α) (a : α) : Prop :=
  ∀ moves, Steps.outcome? tokens ⟨p, moves⟩ x = some (.ok a, ⟨p, moves⟩)

/-- A reader that goes over the first token ahead and gives a value. -/
def Passes (tokens : List Token) (p : Nat) (x : Steps α) (a : α) : Prop :=
  ahead tokens p ≠ [] ∧ ∀ moves, Steps.outcome? tokens ⟨p, moves⟩ x =
    some (.ok a, ⟨p + 1, moves ++ [.onward (p + 1)]⟩)

/-- A value with the tokens behind it, or an error, as the readers with and without a cursor have
it: what is ahead of the cursor is what the other reader has left. -/
def Meets (tokens : List Token) (q : Nat) : Except SyntaxError α → Parse α n → Prop
  | .ok a, .ok p => a = p.value ∧ ahead tokens q = p.rest
  | .error e, .error m => e = ⟨tokenAt tokens q, m.wanted⟩ ∧ ahead tokens q = m.rest
  | _, _ => False

/-- A reader with a cursor at a given position that comes to what a reader of lists comes to. -/
def Follows (tokens : List Token) (p : Nat) (x : Steps α) (y : Parse α n) : Prop :=
  ∀ moves, ∃ q trail result, Trail tokens p q trail ∧
    Steps.outcome? tokens ⟨p, moves⟩ x = some (result, ⟨q, moves ++ trail⟩) ∧
      Meets tokens q result y

/-- A reader that only tries and finds what a reader of lists finds. The cursor may be left anywhere
if there is nothing to find. -/
def Tries (tokens : List Token) (p : Nat) (x : Steps (Option α)) (found : Option (Parsed α n)) :
    Prop :=
  ∀ moves, ∃ q trail, Forward tokens p q trail ∧
    Steps.outcome? tokens ⟨p, moves⟩ x =
      some (.ok (found.map Parsed.value), ⟨q, moves ++ trail⟩) ∧
        ∀ a ∈ found, ahead tokens q = a.rest

namespace Looks

variable {x : Steps α} {a : α} {f : α → Steps β}

theorem bind {b : β} (h : Looks tokens p x a) (hnext : Looks tokens p (f a) b) :
    Looks tokens p (x >>= f) b := fun moves => by
  rw [Steps.outcome?_bind_ok (h moves)]
  exact hnext moves

theorem passes {b : β} (h : Looks tokens p x a) (hnext : Passes tokens p (f a) b) :
    Passes tokens p (x >>= f) b :=
  ⟨hnext.1, fun moves => by
    rw [Steps.outcome?_bind_ok (h moves)]
    exact hnext.2 moves⟩

theorem follows {y : Parse β n} (h : Looks tokens p x a) (hnext : Follows tokens p (f a) y) :
    Follows tokens p (x >>= f) y := fun moves => by
  rw [Steps.outcome?_bind_ok (h moves)]
  exact hnext moves

theorem tries {g : α → Steps (Option β)} {found : Option (Parsed β n)} (h : Looks tokens p x a)
    (hnext : Tries tokens p (g a) found) : Tries tokens p (x >>= g) found := fun moves => by
  rw [Steps.outcome?_bind_ok (h moves)]
  exact hnext moves

end Looks

namespace Passes

variable {x : Steps α} {a : α} {f : α → Steps β}

/-- What is made of a value for which a token was passed. -/
theorem map {g : α → β} (h : Passes tokens p x a) :
    Passes tokens p (x >>= fun a => pure (g a)) (g a) :=
  ⟨h.1, fun moves => by rw [Steps.outcome?_bind_ok (h.2 moves)]; rfl⟩

theorem follows {y : Parse β n} (h : Passes tokens p x a)
    (hnext : Follows tokens (p + 1) (f a) y) : Follows tokens p (x >>= f) y := fun moves => by
  obtain ⟨q, trail, result, htrail, houtcome, hmeets⟩ := hnext (moves ++ [.onward (p + 1)])
  refine ⟨q, .onward (p + 1) :: trail, result, .onward h.1 htrail, ?_, hmeets⟩
  rw [Steps.outcome?_bind_ok (h.2 moves), houtcome, List.append_assoc]
  rfl

theorem tries {g : α → Steps (Option β)} {found : Option (Parsed β n)} (h : Passes tokens p x a)
    (hnext : Tries tokens (p + 1) (g a) found) : Tries tokens p (x >>= g) found := fun moves => by
  obtain ⟨q, trail, htrail, houtcome, hahead⟩ := hnext (moves ++ [.onward (p + 1)])
  refine ⟨q, .onward (p + 1) :: trail, .onward h.1 htrail, ?_, hahead⟩
  rw [Steps.outcome?_bind_ok (h.2 moves), houtcome, List.append_assoc]
  rfl

end Passes

namespace Follows

/-- A value for which nothing more is read. -/
theorem pure {value : α} {a : Parsed α n} (hvalue : value = a.value)
    (h : ahead tokens p = a.rest) : Follows tokens p (Pure.pure value) (Pure.pure a) := fun moves =>
  ⟨p, [], .ok value, .stay p, by rw [List.append_nil]; rfl, hvalue, h⟩

theorem bind_of {x : Steps α} {f : α → Steps β} {y : Parse α m} {g : Parsed α m → Parse β n}
    (h : Follows tokens p x y)
    (hnext : ∀ q a, y = .ok a → ahead tokens q = a.rest → Follows tokens q (f a.value) (g a)) :
    Follows tokens p (x >>= f) (y >>= g) := fun moves => by
  obtain ⟨q, trail, result, htrail, houtcome, hmeets⟩ := h moves
  match result, y, hmeets with
  | .error e, .error mismatch, hmeets =>
    exact ⟨q, trail, .error e, htrail, Steps.outcome?_bind_error houtcome, hmeets⟩
  | .ok _, .ok a, ⟨rfl, hrest⟩ =>
    obtain ⟨r, others, result, hothers, houtcome', hmeets⟩ := hnext q a rfl hrest (moves ++ trail)
    refine ⟨r, trail ++ others, result, htrail.trans hothers, ?_, hmeets⟩
    rw [Steps.outcome?_bind_ok houtcome, houtcome', List.append_assoc]

/-- Readers that go on in the same way where two others stop. -/
theorem bind {x : Steps α} {f : α → Steps β} {y : Parse α m} {g : Parsed α m → Parse β n}
    (h : Follows tokens p x y)
    (hnext : ∀ q a, ahead tokens q = a.rest → Follows tokens q (f a.value) (g a)) :
    Follows tokens p (x >>= f) (y >>= g) :=
  h.bind_of fun q a _ => hnext q a

theorem after {h : m < n} {x : Steps α} {y : Parse α m} (hxy : Follows tokens p x y) :
    Follows tokens p x (TodLang.after h y) := fun moves => by
  obtain ⟨q, trail, result, htrail, houtcome, hmeets⟩ := hxy moves
  refine ⟨q, trail, result, htrail, houtcome, ?_⟩
  match result, y, hmeets with
  | .error _, .error _, hmeets => exact hmeets
  | .ok _, .ok _, hmeets => exact hmeets

theorem afterOptional {h : m < n} {x : Steps α} {y : Parse α (m + 1)}
    (hxy : Follows tokens p x y) : Follows tokens p x (TodLang.afterOptional h y) := fun moves => by
  obtain ⟨q, trail, result, htrail, houtcome, hmeets⟩ := hxy moves
  refine ⟨q, trail, result, htrail, houtcome, ?_⟩
  match result, y, hmeets with
  | .error _, .error _, hmeets => exact hmeets
  | .ok _, .ok _, hmeets => exact hmeets

theorem optional {x : Steps α} {y : Parse α n} (hxy : Follows tokens p x y) :
    Follows tokens p x (y >>= fun a => Pure.pure a.optional) := fun moves => by
  obtain ⟨q, trail, result, htrail, houtcome, hmeets⟩ := hxy moves
  refine ⟨q, trail, result, htrail, houtcome, ?_⟩
  match result, y, hmeets with
  | .error _, .error _, hmeets => exact hmeets
  | .ok _, .ok _, hmeets => exact hmeets

/-- Where one reader stops, those that would go on from there do not begin. -/
theorem stop {x : Steps α} {f : α → Steps β} {mismatch : Mismatch}
    (h : Follows tokens p x (.error mismatch : Parse α m)) :
    Follows tokens p (x >>= f) (.error mismatch : Parse β n) := fun moves => by
  obtain ⟨q, trail, result, htrail, houtcome, hmeets⟩ := h moves
  match result, hmeets with
  | .error e, hmeets =>
    exact ⟨q, trail, .error e, htrail, Steps.outcome?_bind_error houtcome, hmeets⟩

/-- The token at the cursor is reported where the other reader stops. -/
theorem unexpected (wanted : Wanted) (h : ahead tokens p = ts) :
    Follows tokens p (Steps.unexpected wanted : Steps α) (.error ⟨wanted, ts⟩ : Parse α n) :=
  fun moves =>
    ⟨p, [], .error ⟨tokenAt tokens p, wanted⟩, .stay p, by rw [List.append_nil]; rfl, rfl, h⟩

end Follows

namespace Tries

theorem bind {x : Steps (Option α)} {f : Option α → Steps (Option β)}
    {found : Option (Parsed α m)} {g : Parsed α m → Option (Parsed β n)}
    (h : Tries tokens p x found) (hnone : f none = Pure.pure none)
    (hsome : ∀ q a, ahead tokens q = a.rest → Tries tokens q (f (some a.value)) (g a)) :
    Tries tokens p (x >>= f) (found >>= g) := fun moves => by
  obtain ⟨q, trail, htrail, houtcome, hahead⟩ := h moves
  cases found with
  | none =>
    refine ⟨q, trail, htrail, ?_, by simp⟩
    rw [Steps.outcome?_bind_ok houtcome, Option.map_none, hnone]
    rfl
  | some a =>
    obtain ⟨r, others, hothers, houtcome', hahead'⟩ := hsome q a (hahead a rfl) (moves ++ trail)
    refine ⟨r, trail ++ others, htrail.trans hothers, ?_, hahead'⟩
    rw [Steps.outcome?_bind_ok houtcome, Option.map_some, houtcome', List.append_assoc]
    rfl

theorem findAfter? {h : m < n} {x : Steps (Option α)} {found : Option (Parsed α m)}
    (hx : Tries tokens p x found) : Tries tokens p x (TodLang.findAfter? h found) := fun moves => by
  obtain ⟨q, trail, htrail, houtcome, hahead⟩ := hx moves
  cases found with
  | none => exact ⟨q, trail, htrail, houtcome, by simp [TodLang.findAfter?]⟩
  | some a => exact ⟨q, trail, htrail, houtcome, by rintro _ ⟨⟩; exact hahead a rfl⟩

/-- A value that was found without more ado. -/
theorem pure {value : α} {a : Parsed α n} (hvalue : value = a.value)
    (h : ahead tokens p = a.rest) :
    Tries tokens p (Pure.pure (some value)) (Pure.pure a) := fun moves =>
  ⟨p, [], .stay p, by rw [hvalue, List.append_nil]; rfl, by rintro _ ⟨⟩; exact h⟩

theorem none : Tries tokens p (Pure.pure .none : Steps (Option α)) (.none : Option (Parsed α n)) :=
  fun moves => ⟨p, [], .stay p, by rw [List.append_nil]; rfl, by simp⟩

/-- Where nothing is found, a reader that needs it finds nothing either. -/
theorem stop {x : Steps (Option α)} {f : Option α → Steps (Option β)}
    (h : Tries tokens p x (.none : Option (Parsed α m))) (hnone : f .none = Pure.pure .none) :
    Tries tokens p (x >>= f) (.none : Option (Parsed β n)) := fun moves => by
  obtain ⟨q, trail, htrail, houtcome, -⟩ := h moves
  refine ⟨q, trail, htrail, ?_, by simp⟩
  rw [Steps.outcome?_bind_ok houtcome, Option.map_none, hnone]
  rfl

/-- What is read where something was found. -/
theorem follows {x : Steps (Option α)} {f : Option α → Steps β} {a : Parsed α m} {y : Parse β n}
    (h : Tries tokens p x (some a))
    (hnext : ∀ q, ahead tokens q = a.rest → Follows tokens q (f (some a.value)) y) :
    Follows tokens p (x >>= f) y := fun moves => by
  obtain ⟨q, trail, htrail, houtcome, hahead⟩ := h moves
  obtain ⟨r, others, result, hothers, houtcome', hmeets⟩ := hnext q (hahead a rfl) (moves ++ trail)
  refine ⟨r, trail ++ others, result, htrail.trail.trans hothers, ?_, hmeets⟩
  rw [Steps.outcome?_bind_ok houtcome, Option.map_some, houtcome', List.append_assoc]

/-- Where nothing was found the cursor goes back and then over the first token ahead. -/
theorem retry {γ : Type} {x : Steps (Option α)} {f : Option α → Steps β} {s : Steps γ} {c : γ}
    {next : γ → Steps β} {y : Parse β n} (h : Tries tokens p x (.none : Option (Parsed α m)))
    (hnone : f .none = (Steps.restore p >>= fun _ => s >>= next)) (hs : Passes tokens p s c)
    (hnext : Follows tokens (p + 1) (next c) y) : Follows tokens p (x >>= f) y := fun moves => by
  obtain ⟨q, trail, htrail, houtcome, -⟩ := h moves
  obtain ⟨r, others, result, hothers, houtcome', hmeets⟩ :=
    hnext (moves ++ trail ++ [.back p] ++ [.onward (p + 1)])
  refine ⟨r, trail ++ .back p :: .onward (p + 1) :: others, result,
    .retry htrail hs.1 hothers, ?_, hmeets⟩
  have hback : Steps.outcome? tokens ⟨q, moves ++ trail⟩ (Steps.restore p) =
      some (.ok (), ⟨p, moves ++ trail ++ [.back p]⟩) := rfl
  rw [Steps.outcome?_bind_ok houtcome, Option.map_none, hnone, Steps.outcome?_bind_ok hback,
    Steps.outcome?_bind_ok (hs.2 _), houtcome']
  simp

end Tries

end

/-! ### Looking ahead -/

section

variable {tokens ts : List Token} {p : Nat}

theorem looks_peek (distance : Nat) :
    Looks tokens p (Steps.peek distance) (tokenAt tokens (p + distance)) := fun _ => rfl

theorem looks_current : Looks tokens p Steps.current (tokenAt tokens p) := looks_peek 0

theorem looks_save : Looks tokens p Steps.save p := fun _ => rfl

/-- Beyond where a reader began the defensive step is not taken. -/
theorem looks_leave {saved : Nat} (h : saved ≠ p) : Looks tokens p (Steps.leave saved) () :=
  looks_save.bind fun _ => by rw [if_neg h.symm]; rfl

theorem looks_kind (distance : Nat) :
    ∃ kind, Looks tokens p (Steps.kindAhead? distance) kind :=
  ⟨_, (looks_peek distance).bind fun _ => rfl⟩

/-- Up to the end mark, looking ahead among all tokens finds the tokens ahead. -/
theorem looks_kindAhead? (h : ahead tokens p = ts) {distance : Nat}
    (hdistance : distance ≤ ts.length) :
    Looks tokens p (Steps.kindAhead? distance) (kindAt ts distance) := by
  subst h
  rw [kindAt_ahead hdistance]
  exact (looks_peek distance).bind fun _ => rfl

theorem looks_nextKind (h : ahead tokens p = ts) :
    Looks tokens p (Steps.kindAhead? 0) (nextKind ts) :=
  looks_kindAhead? h (Nat.zero_le _)

theorem looks_check {kind : TokenKind} (h : ahead tokens p = ts) (hkind : kind ≠ .ending) :
    Looks tokens p (Steps.check kind) (decide (nextKind ts = some kind)) := by
  subst h
  refine looks_current.bind fun moves => ?_
  rw [decide_eq_decide.2 (nextKind_ahead hkind)]
  rfl

theorem looks_atEnd (h : ahead tokens p = ts) : Looks tokens p Steps.atEnd ts.isEmpty := by
  refine looks_current.bind fun moves => ?_
  cases ts with
  | nil => rw [ahead_eq_nil h]; rfl
  | cons t rest =>
    obtain ⟨-, ht, hending, -⟩ := ahead_eq_cons h
    have hkind : t.kind ≠ .ending := by simpa [Token.isEnding] using hending
    rw [ht, decide_eq_false hkind]
    rfl

theorem looks_window (width : Nat) :
    Looks tokens p (Steps.window width)
      ((List.range width).map fun distance => tokenAt tokens (p + distance)) := by
  rw [Steps.window, ← List.mapM'_eq_mapM]
  generalize List.range width = distances
  induction distances with
  | nil => exact fun _ => rfl
  | cons distance distances ih =>
    exact (looks_peek distance).bind (ih.bind fun _ => rfl)

theorem looks_pair :
    Looks tokens p (Steps.window 2) [tokenAt tokens p, tokenAt tokens (p + 1)] :=
  looks_window 2

theorem looks_triple :
    Looks tokens p (Steps.window 3)
      [tokenAt tokens p, tokenAt tokens (p + 1), tokenAt tokens (p + 2)] :=
  looks_window 3

/-- What an expression begins with shows in three tokens, wherever the end mark is. -/
theorem opening_window (h : ahead tokens p = ts) :
    opening [tokenAt tokens p, tokenAt tokens (p + 1), tokenAt tokens (p + 2)] = opening ts := by
  match ts, h with
  | [], h => simp [opening, ahead_eq_nil h]
  | [t], h =>
    obtain ⟨-, rfl, -, hrest⟩ := ahead_eq_cons h
    simp [opening, ahead_eq_nil hrest]
  | [t, u], h =>
    obtain ⟨-, rfl, -, hrest⟩ := ahead_eq_cons h
    obtain ⟨-, rfl, -, hrest⟩ := ahead_eq_cons hrest
    simp [opening, nextKind, kindAt, ahead_eq_nil hrest]
  | t :: u :: v :: ts, h =>
    obtain ⟨-, rfl, -, hrest⟩ := ahead_eq_cons h
    obtain ⟨-, rfl, -, hrest⟩ := ahead_eq_cons hrest
    obtain ⟨-, rfl, -, hrest⟩ := ahead_eq_cons hrest
    rfl

theorem atMain_window (h : ahead tokens p = ts) :
    atMain [tokenAt tokens p, tokenAt tokens (p + 1)] = atMain ts := by
  match ts, h with
  | [], h => simp [atMain, ahead_eq_nil h]
  | [t], h =>
    obtain ⟨-, rfl, -, hrest⟩ := ahead_eq_cons h
    simp [atMain, ahead_eq_nil hrest]
  | t :: u :: ts, h =>
    obtain ⟨-, rfl, -, hrest⟩ := ahead_eq_cons h
    obtain ⟨-, rfl, -, hrest⟩ := ahead_eq_cons hrest
    rfl

theorem atDeclaredType_window (h : ahead tokens p = ts) :
    atDeclaredType [tokenAt tokens p, tokenAt tokens (p + 1)] = atDeclaredType ts := by
  match ts, h with
  | [], h => simp [atDeclaredType, nextKind, kindAt, ahead_eq_nil h]
  | [t], h =>
    obtain ⟨-, rfl, -, hrest⟩ := ahead_eq_cons h
    simp [atDeclaredType, nextKind, kindAt, ahead_eq_nil hrest]
  | t :: u :: ts, h =>
    obtain ⟨-, rfl, -, hrest⟩ := ahead_eq_cons h
    obtain ⟨-, rfl, -, hrest⟩ := ahead_eq_cons hrest
    rfl

theorem leadingOperator?_current (h : ahead tokens p = ts) (parent : Nat) :
    leadingOperator? parent [tokenAt tokens p] = leadingOperator? parent ts := by
  cases ts with
  | nil => simp [leadingOperator?, nextKind, kindAt, ahead_eq_nil h]
  | cons t ts =>
    obtain ⟨-, rfl, -, -⟩ := ahead_eq_cons h
    rfl

theorem joiningOperator?_current (h : ahead tokens p = ts) (parent : Nat) :
    joiningOperator? parent [tokenAt tokens p] = joiningOperator? parent ts := by
  cases ts with
  | nil => simp [joiningOperator?, nextKind, kindAt, ahead_eq_nil h]
  | cons t ts =>
    obtain ⟨-, rfl, -, -⟩ := ahead_eq_cons h
    rfl

end

/-! ### Single tokens -/

section

variable {tokens ts : List Token} {p : Nat} {kind : TokenKind}

theorem passes_advance {t : Token} (h : ahead tokens p = t :: ts) :
    Passes tokens p Steps.advance t := by
  obtain ⟨hp, rfl, -, -⟩ := ahead_eq_cons h
  refine looks_current.passes ⟨by simp [h], fun moves => ?_⟩
  have hread : Looks tokens p (read : Steps (List Token)) tokens := fun _ => rfl
  have hget : Steps.outcome? tokens ⟨p, moves⟩ get = some (.ok ⟨p, moves⟩, ⟨p, moves⟩) := rfl
  rw [Steps.outcome?_bind_ok (hread moves), Steps.outcome?_bind_ok hget, if_pos hp]
  rfl

/-- A reader that goes over the first token as a reader of lists does. -/
theorem Passes.follows_ok {α : Type} {n : Nat} {x : Steps α} {a : Parsed α n}
    (h : Passes tokens p x a.value) (hrest : ahead tokens (p + 1) = a.rest) :
    Follows tokens p x (.ok a) := fun moves =>
  ⟨p + 1, [.onward (p + 1)], .ok a.value, .onward h.1 (.stay _), h.2 moves, rfl, hrest⟩

theorem nextKind_of_accept? {found : Parsed Token ts.length} (h : accept? kind ts = some found) :
    nextKind ts = some kind := by
  obtain ⟨hts, hkind⟩ := accept?_eq_some h
  rw [hts, ← hkind]
  rfl

theorem takeKeyword_of_accept? {word : Keyword} {found : Parsed Token ts.length}
    (h : accept? (.keyword word) ts = some found) :
    takeKeyword word ts = .ok ⟨found.value.span, found.rest, found.shorter⟩ := by
  rw [takeKeyword, take, h]
  rfl

theorem takeSign_of_accept? {s : Sign} {found : Parsed Token ts.length}
    (h : accept? (.sign s) ts = some found) :
    takeSign s ts = .ok ⟨found.value.span, found.rest, found.shorter⟩ := by
  rw [takeSign, take, h]
  rfl

theorem takeIdent_cons {t : Token} (h : t.kind = .identifier) :
    takeIdent (t :: ts) = .ok ⟨t.ident, ts, Nat.lt_succ_self ts.length⟩ := by
  rw [takeIdent, take, accept?, if_pos h]
  rfl

/-- A token of a given kind is there, and then it can be gone over, or it is not. -/
theorem eat_cases (kind : TokenKind) (h : ahead tokens p = ts) (hkind : kind ≠ .ending) :
    (accept? kind ts = none ∧ Looks tokens p (Steps.eat kind) none) ∨
      ∃ found, accept? kind ts = some found ∧
        Passes tokens p (Steps.eat kind) (some found.value) ∧
          ahead tokens (p + 1) = found.rest := by
  cases hfound : accept? kind ts with
  | none =>
    refine .inl ⟨rfl, (looks_check h hkind).bind ?_⟩
    rw [decide_eq_false (accept?_eq_none_iff.1 hfound)]
    exact fun _ => rfl
  | some found =>
    obtain ⟨hts, -⟩ := accept?_eq_some hfound
    refine .inr ⟨found, rfl, (looks_check h hkind).passes ?_, (ahead_eq_cons (h.trans hts)).2.2.2⟩
    rw [decide_eq_true (nextKind_of_accept? hfound), if_pos rfl]
    exact (passes_advance (h.trans hts)).map

/-- The same where another reader has stopped. -/
theorem eat_cases_after (kind : TokenKind) (h : ahead tokens p = ts) (hkind : kind ≠ .ending)
    {n : Nat} (hn : ts.length < n) :
    (acceptAfter? hn kind = none ∧ Looks tokens p (Steps.eat kind) none) ∨
      ∃ found, acceptAfter? hn kind = some found ∧
        Passes tokens p (Steps.eat kind) (some found.value) ∧
          ahead tokens (p + 1) = found.rest := by
  obtain ⟨hfound, heat⟩ | ⟨found, hfound, heat⟩ := eat_cases kind h hkind
  · exact .inl ⟨by rw [acceptAfter?, findAfter?, hfound]; rfl, heat⟩
  · exact .inr ⟨found.below hn, by rw [acceptAfter?, findAfter?, hfound]; rfl, heat⟩

theorem passes_ident {t : Token} (h : ahead tokens p = t :: ts) (ht : t.kind = .identifier) :
    Passes tokens p Steps.ident t.ident := by
  have hnext : nextKind (t :: ts) = some .identifier := congrArg some ht
  refine Passes.map (g := Token.ident) ((looks_check h (by decide)).passes ?_)
  rw [decide_eq_true hnext, if_pos rfl]
  exact passes_advance h

theorem eat_tries (h : ahead tokens p = ts) (hkind : kind ≠ .ending) :
    Tries tokens p (Steps.eat kind) (accept? kind ts) := fun moves => by
  obtain ⟨hfound, heat⟩ | ⟨found, hfound, heat, hrest⟩ := eat_cases kind h hkind
  · rw [hfound]
    exact ⟨p, [], .stay p, by rw [heat moves, List.append_nil]; rfl, by simp⟩
  · rw [hfound]
    exact ⟨p + 1, _, .onward heat.1 (.stay _), heat.2 moves, by rintro _ ⟨⟩; exact hrest⟩

theorem eat_tries_after (h : ahead tokens p = ts) (hkind : kind ≠ .ending) {n : Nat}
    (hn : ts.length < n) : Tries tokens p (Steps.eat kind) (acceptAfter? hn kind) :=
  (eat_tries h hkind).findAfter?

theorem eat_follows (h : ahead tokens p = ts) (hkind : kind ≠ .ending) :
    Follows tokens p (Steps.eat kind) (takeOptional kind ts) := by
  unfold takeOptional
  obtain ⟨hfound, heat⟩ | ⟨found, hfound, heat, hrest⟩ := eat_cases kind h hkind
  · rw [hfound]
    exact fun moves => ⟨p, [], .ok none, .stay p, by rw [heat moves, List.append_nil], rfl, h⟩
  · rw [hfound]
    exact heat.follows_ok hrest

theorem consume_follows (h : ahead tokens p = ts) (hkind : kind ≠ .ending) :
    Follows tokens p (Steps.consume kind) (take kind ts) := by
  refine (looks_check h hkind).follows ?_
  unfold take
  cases hfound : accept? kind ts with
  | none =>
    rw [decide_eq_false (accept?_eq_none_iff.1 hfound)]
    exact .unexpected _ h
  | some found =>
    obtain ⟨hts, -⟩ := accept?_eq_some hfound
    rw [decide_eq_true (nextKind_of_accept? hfound), if_pos rfl]
    exact (passes_advance (h.trans hts)).follows_ok (ahead_eq_cons (h.trans hts)).2.2.2

/-- Over a token of a known kind, a reader need not look at it. -/
theorem advance_follows (h : ahead tokens p = ts) (hnext : nextKind ts = some kind) :
    Follows tokens p Steps.advance (take kind ts) := by
  cases ts with
  | nil => cases hnext
  | cons t rest =>
    obtain rfl : t.kind = kind := Option.some.inj hnext
    rw [take, accept?, if_pos rfl]
    exact (passes_advance h).follows_ok (ahead_eq_cons h).2.2.2

theorem ident_follows (h : ahead tokens p = ts) : Follows tokens p Steps.ident (takeIdent ts) :=
  (consume_follows h (by decide)).bind fun _ _ hrest => .pure rfl hrest

theorem sign_follows (s : Sign) (h : ahead tokens p = ts) :
    Follows tokens p (Steps.sign s) (takeSign s ts) :=
  (consume_follows h (by simp)).bind fun _ _ hrest => .pure rfl hrest

/-- A sign comes next, or it does not. -/
theorem sign_cases (s : Sign) (h : ahead tokens p = ts) :
    (accept? (.sign s) ts = none ∧ Looks tokens p (Steps.check (.sign s)) false) ∨
      ∃ found, accept? (.sign s) ts = some found ∧
        Looks tokens p (Steps.check (.sign s)) true ∧
          Passes tokens p (Steps.sign s) found.value.span ∧ ahead tokens (p + 1) = found.rest := by
  have hcheck : Looks tokens p (Steps.check (.sign s)) (decide (nextKind ts = some (.sign s))) :=
    looks_check h (by simp)
  cases hfound : accept? (.sign s) ts with
  | none =>
    rw [decide_eq_false (accept?_eq_none_iff.1 hfound)] at hcheck
    exact .inl ⟨rfl, hcheck⟩
  | some found =>
    obtain ⟨hts, -⟩ := accept?_eq_some hfound
    rw [decide_eq_true (nextKind_of_accept? hfound)] at hcheck
    have hconsume : Passes tokens p (Steps.consume (.sign s)) found.value :=
      hcheck.passes (passes_advance (h.trans hts))
    exact .inr ⟨found, rfl, hcheck, hconsume.map (g := Token.span),
      (ahead_eq_cons (h.trans hts)).2.2.2⟩

/-- A closing sign comes next, or it is missing at the end mark, or something stands before it. -/
theorem closing_cases (closing : Sign) (h : ahead tokens p = ts) :
    (∃ found, accept? (.sign closing) ts = some found ∧
      Looks tokens p (Steps.atClosing closing) true ∧
      Passes tokens p (Steps.sign closing) found.value.span ∧ ahead tokens (p + 1) = found.rest) ∨
    (accept? (.sign closing) ts = none ∧ ts = [] ∧ Looks tokens p (Steps.atClosing closing) true) ∨
    (accept? (.sign closing) ts = none ∧ ts.isEmpty = false ∧
      Looks tokens p (Steps.atClosing closing) false) := by
  have hend := looks_atEnd h
  obtain ⟨hfound, hcheck⟩ | ⟨found, hfound, hcheck, hsign⟩ := sign_cases closing h
  · have hlooks : Looks tokens p (Steps.atClosing closing) ts.isEmpty :=
      hcheck.bind (hend.bind fun _ => rfl)
    cases ts with
    | nil => exact .inr (.inl ⟨hfound, rfl, hlooks⟩)
    | cons t rest => exact .inr (.inr ⟨hfound, rfl, hlooks⟩)
  · exact .inl ⟨found, hfound, hcheck.bind (hend.bind fun _ => rfl), hsign⟩

theorem keyword_follows (word : Keyword) (h : ahead tokens p = ts) :
    Follows tokens p (Steps.keyword word) (takeKeyword word ts) :=
  (consume_follows h (by simp)).bind fun _ _ hrest => .pure rfl hrest

theorem operator_follows {s : Sign} (h : ahead tokens p = ts)
    (hnext : nextKind ts = some (.sign s)) :
    Follows tokens p (Steps.operator s) (takeOperator s ts) :=
  (advance_follows h hnext).bind fun _ _ hrest => .pure rfl hrest

theorem place_sign_follows {s : Sign} (h : ahead tokens p = ts)
    (hnext : nextKind ts = some (.sign s)) : Follows tokens p Steps.place (takeSign s ts) :=
  (advance_follows h hnext).bind fun _ _ hrest => .pure rfl hrest

theorem place_keyword_follows {word : Keyword} (h : ahead tokens p = ts)
    (hnext : nextKind ts = some (.keyword word)) :
    Follows tokens p Steps.place (takeKeyword word ts) :=
  (advance_follows h hnext).bind fun _ _ hrest => .pure rfl hrest

end

end TodLang
