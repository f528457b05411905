import TodLang.Proofs.Cursor.Progress
/-!
What a reader with a cursor comes to: a value or an error, and where the cursor is left. It depends
on nothing but the tokens and the place where the reader begins. Two readers that do what one reader
of lists does come to the same (`ComesTo.of_follows`).
-/

namespace TodLang

/-- A reader comes to an outcome and leaves the cursor at a position, whatever the moves before were
and whatever the limit is, if it is large enough. -/
def ComesTo {α : Type} (tokens : List Token) (position : Nat) (reader : Nat → Steps α)
    (outcome : Except SyntaxError α) (stop : Nat) : Prop :=
  ∀ moves limit, readingLimit tokens ≤ limit →
    ∃ trail, Steps.outcome? tokens ⟨position, moves⟩ (reader limit) =
      some (outcome, ⟨stop, moves ++ trail⟩)

section

variable {α : Type} {n : Nat} {tokens : List Token} {p q r : Nat} {reader : Nat → Steps α}

/-- A reader comes to one outcome only. -/
theorem ComesTo.unique {x y : Except SyntaxError α} (hx : ComesTo tokens p reader x q)
    (hy : ComesTo tokens p reader y r) : x = y ∧ q = r := by
  obtain ⟨trail, hread⟩ := hx [] (readingLimit tokens) (Nat.le_refl _)
  obtain ⟨others, hread'⟩ := hy [] (readingLimit tokens) (Nat.le_refl _)
  rw [hread] at hread'
  cases hread'
  exact ⟨rfl, rfl⟩

/-- The tokens that a reader of lists has left. -/
def leftTokens (y : Parse α n) : List Token :=
  match y with
  | .ok a => a.rest
  | .error mismatch => mismatch.rest

theorem Meets.ahead {x : Except SyntaxError α} {y : Parse α n} (h : Meets tokens q x y) :
    ahead tokens q = leftTokens y := by
  match x, y, h with
  | .ok _, .ok _, h => exact h.2
  | .error _, .error _, h => exact h.2

/-- The value or error that a reader with a cursor has for what a reader of lists comes to. -/
def outcomeAt (tokens : List Token) (q : Nat) (y : Parse α n) : Except SyntaxError α :=
  match y with
  | .ok a => .ok a.value
  | .error mismatch => .error ⟨tokenAt tokens q, mismatch.wanted⟩

theorem Meets.eq_outcomeAt {x : Except SyntaxError α} {y : Parse α n} (h : Meets tokens q x y) :
    x = outcomeAt tokens q y := by
  match x, y, h with
  | .ok _, .ok _, h => exact congrArg Except.ok h.1
  | .error _, .error _, h => exact congrArg Except.error h.1

theorem Meets.exists_ok {value : α} {y : Parse α n}
    (h : Meets tokens q (.ok value) y) : ∃ a, y = .ok a ∧ value = a.value := by
  match y, h with
  | .ok a, h => exact ⟨a, rfl, h.1⟩

/-- What a reader of lists comes to is what a reader with a cursor that follows it comes to. -/
theorem ComesTo.of_follows {x : Except SyntaxError α} {y : Parse α n}
    (h : ∀ limit, readingLimit tokens ≤ limit → Follows tokens p (reader limit) y)
    (hplace : p + (ahead tokens p).length = q + (ahead tokens q).length)
    (hmeets : Meets tokens q x y) : ComesTo tokens p reader x q := by
  intro moves limit hlimit
  obtain ⟨stop, trail, result, htrail, hread, hresult⟩ := h limit hlimit moves
  have hahead : ahead tokens stop = ahead tokens q := hresult.ahead.trans hmeets.ahead.symm
  obtain rfl : stop = q := by
    have := htrail.add_length
    rw [hahead] at this
    omega
  exact ⟨trail, hresult.eq_outcomeAt.trans hmeets.eq_outcomeAt.symm ▸ hread⟩

/-- There is such an outcome. -/
theorem exists_meets_of_follows {y : Parse α n}
    (h : Follows tokens p (reader (readingLimit tokens)) y) :
    ∃ x q, p + (ahead tokens p).length = q + (ahead tokens q).length ∧ Meets tokens q x y := by
  obtain ⟨q, trail, x, htrail, -, hmeets⟩ := h []
  exact ⟨x, q, htrail.add_length, hmeets⟩

/-- Two readers with a cursor that follow one reader of lists come to the same. -/
theorem exists_comesTo_both {other : Nat → Steps α} {y : Parse α n}
    (h : ∀ limit, readingLimit tokens ≤ limit → Follows tokens p (reader limit) y)
    (h' : ∀ limit, readingLimit tokens ≤ limit → Follows tokens p (other limit) y) :
    ∃ x q, ComesTo tokens p reader x q ∧ ComesTo tokens p other x q ∧ Meets tokens q x y := by
  obtain ⟨x, q, hplace, hmeets⟩ := exists_meets_of_follows (h _ (Nat.le_refl _))
  exact ⟨x, q, .of_follows h hplace hmeets, .of_follows h' hplace hmeets, hmeets⟩

end

end TodLang
