import TodLang.Proofs.Cursor.Outcome
import TodLang.Proofs.Grammar.Congruence
/-!
Written types that are only tried. There are two readers of written types, one that reports where a
type goes wrong and one that finds nothing there. They go over the same tokens, whatever these are:
from every position the one that tries finds a type if and only if the other one reads it, and both
leave the cursor at the same place (`tryTypeClause_comesTo_iff`).
-/

namespace TodLang

section

variable {α β : Type} {tokens : List Token} {p : Nat}

/-- Wherever a reader comes to an end, one that only tries has gone over the same tokens. It has
found the value that the other one gives, or nothing if that one ends with an error. -/
def Attempts (tokens : List Token) (p : Nat) (tried : Steps (Option α)) (reader : Steps α) : Prop :=
  ∀ moves result d, Steps.outcome? tokens ⟨p, moves⟩ reader = some (result, d) →
    Steps.outcome? tokens ⟨p, moves⟩ tried = some (.ok result.toOption, d)

/-- A reader in two parts that comes to an end has failed in the first one or gone on behind it. -/
theorem Steps.outcome?_bind_cases {c d : Cursor} {x : Steps α} {f : α → Steps β}
    {result : Except SyntaxError β} (h : Steps.outcome? tokens c (x >>= f) = some (result, d)) :
    (∃ e, Steps.outcome? tokens c x = some (.error e, d) ∧ result = .error e) ∨
      ∃ a b, Steps.outcome? tokens c x = some (.ok a, b) ∧
        Steps.outcome? tokens b (f a) = some (result, d) := by
  match hx : Steps.outcome? tokens c x with
  | none =>
    simp only [Steps.outcome?, ReaderT.run_bind, ExceptT.run_bind, StateT.run_bind] at h hx
    rw [hx] at h
    cases h
  | some (.error e, b) =>
    rw [Steps.outcome?_bind_error hx] at h
    cases h
    exact .inl ⟨e, rfl, rfl⟩
  | some (.ok a, b) =>
    rw [Steps.outcome?_bind_ok hx] at h
    exact .inr ⟨a, b, rfl, h⟩

/-- Behind a look at the tokens, trying goes on as reading does. -/
theorem Looks.attempts {γ : Type} {s : Steps γ} {c : γ} {f : γ → Steps (Option β)}
    {g : γ → Steps β} (h : Looks tokens p s c) (hnext : Attempts tokens p (f c) (g c)) :
    Attempts tokens p (s >>= f) (s >>= g) := by
  intro moves result d hread
  rw [Steps.outcome?_bind_ok (h moves)] at hread ⊢
  exact hnext moves result d hread

/-- Behind a token, trying goes on as reading does. -/
theorem Passes.attempts {γ : Type} {s : Steps γ} {c : γ} {f : γ → Steps (Option β)}
    {g : γ → Steps β} (h : Passes tokens p s c) (hnext : Attempts tokens (p + 1) (f c) (g c)) :
    Attempts tokens p (s >>= f) (s >>= g) := by
  intro moves result d hread
  rw [Steps.outcome?_bind_ok (h.2 moves)] at hread ⊢
  exact hnext _ result d hread

/-- A look that only the reader that tries takes changes nothing. -/
theorem Looks.tried {γ : Type} {s : Steps γ} {c : γ} {f : γ → Steps (Option β)} {y : Steps β}
    (h : Looks tokens p s c) (hnext : Attempts tokens p (f c) y) :
    Attempts tokens p (s >>= f) y := by
  intro moves result d hread
  rw [Steps.outcome?_bind_ok (h moves)]
  exact hnext moves result d hread

namespace Attempts

theorem pure (a : α) : Attempts tokens p (Pure.pure (some a)) (Pure.pure a) := by
  intro moves result d hread
  cases hread
  rfl

/-- Two parts that are tried one behind the other. -/
theorem bind {x : Steps (Option α)} {y : Steps α} {f : Option α → Steps (Option β)}
    {g : α → Steps β} (h : Attempts tokens p x y) (hnone : f none = Pure.pure none)
    (hnext : ∀ q a, Attempts tokens q (f (some a)) (g a)) :
    Attempts tokens p (x >>= f) (y >>= g) := by
  intro moves result d hread
  rcases Steps.outcome?_bind_cases hread with ⟨e, hy, rfl⟩ | ⟨a, b, hy, hrest⟩
  · rw [Steps.outcome?_bind_ok (h _ _ _ hy), Except.toOption, hnone]
    rfl
  · rw [Steps.outcome?_bind_ok (h _ _ _ hy)]
    exact hnext b.position a b.moves result d hrest

/-- Where a part is not there, nothing more is tried. -/
theorem none_bind {y : Steps α} {g : α → Steps β} (h : Attempts tokens p (Pure.pure none) y) :
    Attempts tokens p (Pure.pure none) (y >>= g) := by
  intro moves result d hread
  rcases Steps.outcome?_bind_cases hread with ⟨e, hy, rfl⟩ | ⟨a, b, hy, -⟩
  · cases h moves _ _ hy
    rfl
  · cases h moves _ _ hy

/-- A token is gone over or missed. -/
theorem eat {kind : TokenKind} (hkind : kind ≠ .ending) :
    Attempts tokens p (Steps.eat kind) (Steps.consume kind) := by
  refine (looks_check rfl hkind).attempts ?_
  by_cases hnext : nextKind (ahead tokens p) = some kind
  · rw [decide_eq_true hnext, if_pos rfl, if_pos rfl]
    obtain ⟨t, rest, hahead⟩ : ∃ t rest, ahead tokens p = t :: rest :=
      List.exists_cons_of_ne_nil (by rintro hnil; rw [hnil] at hnext; cases hnext)
    have hpassed := (passes_advance hahead).attempts (f := fun t => Pure.pure (some t)) (.pure t)
    rwa [bind_pure] at hpassed
  · rw [decide_eq_false hnext]
    intro moves result d hread
    cases hread
    rfl

/-- A token is gone over, and trying goes on behind it as reading does with what is made of it. -/
theorem eat_bind {γ : Type} {kind : TokenKind} (hkind : kind ≠ .ending) {form : Token → γ}
    {f : Option Token → Steps (Option β)} {g : γ → Steps β} (hnone : f none = Pure.pure none)
    (hnext : ∀ q t, Attempts tokens q (f (some t)) (g (form t))) :
    Attempts tokens p (Steps.eat kind >>= f)
      ((Steps.consume kind >>= fun t => Pure.pure (form t)) >>= g) := by
  rw [bind_assoc]
  refine (eat hkind).bind hnone fun q t => ?_
  rw [pure_bind]
  exact hnext q t

end Attempts

/-! ### Written types -/

theorem tryQualifiedName_attempts :
    Attempts tokens p Steps.tryQualifiedName Steps.qualifiedName := by
  unfold Steps.tryQualifiedName Steps.qualifiedName Steps.ident Steps.sign
  obtain ⟨_, hkind⟩ : ∃ kind, Looks tokens p (Steps.kindAhead? 1) kind := looks_kind 1
  refine hkind.attempts ?_
  split
  · refine .eat_bind (by decide) rfl fun _ package => ?_
    refine .eat_bind (by decide) rfl fun _ _ => ?_
    refine .eat_bind (by decide) rfl fun _ name => ?_
    exact .pure _
  · refine .eat_bind (by decide) rfl fun _ name => ?_
    exact .pure _

/-- Without a name there is no written type, and no token is gone over. -/
theorem none_attempts_typeClause (limit : Nat)
    (h : nextKind (ahead tokens p) ≠ some .identifier) :
    Attempts tokens p (pure none) (Steps.typeClause limit) := by
  have hident : Attempts tokens p (pure none) Steps.ident := by
    have hcheck : Looks tokens p (Steps.check .identifier) false := by
      rw [← decide_eq_false h]
      exact looks_check rfl (by decide)
    refine .none_bind fun moves result d hread => ?_
    rw [Steps.consume, Steps.outcome?_bind_ok (hcheck moves)] at hread
    cases hread
    rfl
  cases limit with
  | zero => exact fun _ _ _ hread => nomatch hread
  | succ limit =>
    rw [Steps.typeClause]
    refine .none_bind ?_
    obtain ⟨_, hkind⟩ : ∃ kind, Looks tokens p (Steps.kindAhead? 1) kind := looks_kind 1
    intro moves result d hread
    rw [Steps.qualifiedName, Steps.outcome?_bind_ok (hkind moves)] at hread
    split at hread
    · exact hident.none_bind moves result d hread
    · exact hident.none_bind moves result d hread

mutual

/-- Where reading a type keeps to a limit, trying it under the same limit goes the same way. -/
theorem tryTypeClause_attempts (limit p : Nat) :
    Attempts tokens p (Steps.tryTypeClause limit) (Steps.typeClause limit) := by
  cases limit with
  | zero => exact fun _ _ _ hread => nomatch hread
  | succ limit =>
    rw [Steps.tryTypeClause, Steps.typeClause]
    refine tryQualifiedName_attempts.bind rfl fun q name => ?_
    dsimp only
    obtain ⟨-, heat⟩ | ⟨bracket, -, heat, -⟩ :=
      eat_cases (.sign .lbrack) (rfl : ahead tokens q = _) (by decide)
    · exact heat.attempts (.pure _)
    · refine heat.attempts ?_
      refine (tryTypeArguments_attempts limit (q + 1)).bind rfl fun r inner => ?_
      refine .eat_bind (by decide) rfl fun _ closing => ?_
      exact .pure _

theorem tryTypeArguments_attempts (limit p : Nat) :
    Attempts tokens p (Steps.tryTypeArguments limit) (Steps.typeArguments limit) := by
  cases limit with
  | zero => exact fun _ _ _ hread => nomatch hread
  | succ limit =>
    rw [Steps.tryTypeArguments, Steps.typeArguments]
    -- Only the reader that tries looks for a name first.
    refine (looks_check rfl (by decide)).tried ?_
    simp only [decide_eq_true_eq]
    split
    · refine (tryTypeClause_attempts limit p).bind rfl fun q first => ?_
      dsimp only
      obtain ⟨-, heat⟩ | ⟨comma, -, heat, -⟩ :=
        eat_cases (.sign .comma) (rfl : ahead tokens q = _) (by decide)
      · exact heat.attempts (.pure _)
      · refine heat.attempts ?_
        refine (tryTypeArguments_attempts limit (q + 1)).bind rfl fun _ others => ?_
        exact .pure _
    · next hname => exact (none_attempts_typeClause limit hname).none_bind

end

/-! ### What trying comes to -/

theorem Attempts.comesTo {tried : Nat → Steps (Option α)} {reader : Nat → Steps α}
    {outcome : Except SyntaxError α} {stop : Nat}
    (h : ∀ limit, Attempts tokens p (tried limit) (reader limit))
    (hread : ComesTo tokens p reader outcome stop) :
    ComesTo tokens p tried (.ok outcome.toOption) stop := by
  intro moves limit hlimit
  obtain ⟨trail, houtcome⟩ := hread moves limit hlimit
  exact ⟨trail, h limit moves _ _ houtcome⟩

theorem exists_typeClause_comesTo (tokens : List Token) (p : Nat) :
    ∃ outcome stop, ComesTo tokens p Steps.typeClause outcome stop ∧
      Meets tokens stop outcome (parseTypeClause (ahead tokens p)) := by
  have hfollows : ∀ limit, readingLimit tokens ≤ limit →
      Follows tokens p (Steps.typeClause limit) (parseTypeClause (ahead tokens p)) :=
    fun limit h => typeClause_follows rfl (lt_of_readingLimit h p (by omega))
  obtain ⟨outcome, stop, hplace, hmeets⟩ := exists_meets_of_follows (hfollows _ (Nat.le_refl _))
  exact ⟨outcome, stop, .of_follows hfollows hplace hmeets, hmeets⟩

/-- From every position among some tokens, a type is found where it is tried if and only if it can
be read, and nothing is found if and only if reading it ends with an error. Both leave the cursor at
the same place. Reading and trying always come to an end, with what the readers of lists come to
with the tokens ahead. -/
theorem tryTypeClause_comesTo_iff (tokens : List Token) (position : Nat) :
    (∀ type stop, ComesTo tokens position Steps.tryTypeClause (.ok (some type)) stop ↔
      ComesTo tokens position Steps.typeClause (.ok type) stop) ∧
    (∀ stop, ComesTo tokens position Steps.tryTypeClause (.ok none) stop ↔
      ∃ e, ComesTo tokens position Steps.typeClause (.error e) stop) ∧
    (∃ outcome stop, ComesTo tokens position Steps.typeClause outcome stop ∧
      ComesTo tokens position Steps.tryTypeClause (.ok outcome.toOption) stop ∧
      Meets tokens stop outcome (parseTypeClause (ahead tokens position))) ∧
    tryTypeClause? (ahead tokens position) =
      (parseTypeClause (ahead tokens position)).toOption := by
  have htried : ∀ {outcome stop}, ComesTo tokens position Steps.typeClause outcome stop →
      ComesTo tokens position Steps.tryTypeClause (.ok outcome.toOption) stop :=
    fun h => Attempts.comesTo (fun limit => tryTypeClause_attempts limit position) h
  obtain ⟨outcome, stop, hread, hmeets⟩ := exists_typeClause_comesTo tokens position
  refine ⟨fun type q => ⟨fun h => ?_, htried⟩, fun q => ⟨fun h => ?_, ?_⟩,
    ⟨outcome, stop, hread, htried hread, hmeets⟩, tryTypeClause?_eq _⟩
  · obtain ⟨hfound, rfl⟩ := h.unique (htried hread)
    cases outcome with
    | ok found =>
      cases hfound
      exact hread
    | error e => cases hfound
  · obtain ⟨hfound, rfl⟩ := h.unique (htried hread)
    cases outcome with
    | ok found => cases hfound
    | error e => exact ⟨e, hread⟩
  · rintro ⟨e, he⟩
    exact htried he

end

end TodLang
