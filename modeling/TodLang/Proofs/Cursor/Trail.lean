import TodLang.Grammar.Steps
/-!
How a cursor moves while a program is read. The tokens ahead of it are those up to the next end
mark. It goes over one of them at a time; only where a written type was tried in vain it goes back
to where the type began, and then over the first token there. This is what a trail is
(`Trail`), and all that is said of the moves of a cursor follows from it.
-/

namespace TodLang

/-! ### The tokens ahead -/

/-- The tokens from a position up to the next end mark. -/
def ahead (tokens : List Token) (position : Nat) : List Token :=
  beforeEnding (tokens.drop position)

section

variable {tokens : List Token} {p q : Nat}

theorem tokenAt_of_lt (h : p < tokens.length) : tokenAt tokens p = tokens[p] := by
  simp [tokenAt, h]

theorem tokenAt_of_le (h : tokens.length ≤ p) : tokenAt tokens p = endMark tokens := by
  simp [tokenAt, h]

theorem ahead_of_lt (h : p < tokens.length) :
    ahead tokens p =
      if (tokenAt tokens p).isEnding then [] else tokenAt tokens p :: ahead tokens (p + 1) := by
  rw [tokenAt_of_lt h, ahead, beforeEnding, List.drop_eq_getElem_cons h, List.takeWhile_cons]
  cases tokens[p].isEnding <;> rfl

theorem ahead_of_le (h : tokens.length ≤ p) : ahead tokens p = [] := by
  rw [ahead, List.drop_of_length_le h]
  rfl

/-- A token ahead is the one at the cursor, and the others are ahead of the next position. -/
theorem ahead_eq_cons {t : Token} {rest : List Token} (h : ahead tokens p = t :: rest) :
    p < tokens.length ∧ tokenAt tokens p = t ∧ t.isEnding = false ∧
      ahead tokens (p + 1) = rest := by
  by_cases hp : p < tokens.length
  · rw [ahead_of_lt hp] at h
    split at h
    · cases h
    · next hending =>
      obtain ⟨rfl, rfl⟩ := List.cons.inj h
      exact ⟨hp, rfl, by simpa using hending, rfl⟩
  · rw [ahead_of_le (Nat.not_lt.1 hp)] at h
    cases h

/-- With no token ahead the cursor is at an end mark. -/
theorem ahead_eq_nil (h : ahead tokens p = []) : (tokenAt tokens p).kind = .ending := by
  by_cases hp : p < tokens.length
  · rw [ahead_of_lt hp] at h
    split at h
    · next hending => simpa [Token.isEnding] using hending
    · cases h
  · rw [tokenAt_of_le (Nat.not_lt.1 hp)]
    rfl

theorem lt_of_ahead_ne_nil (h : ahead tokens p ≠ []) : p < tokens.length := by
  obtain ⟨t, rest, hcons⟩ := List.exists_cons_of_ne_nil h
  exact (ahead_eq_cons hcons).1

/-- Up to the end mark, looking ahead among all tokens finds the tokens ahead. -/
theorem kindAt_ahead {distance : Nat} (hdistance : distance ≤ (ahead tokens p).length) :
    kindAt (ahead tokens p) distance =
      if (tokenAt tokens (p + distance)).isEnding then none
      else some (tokenAt tokens (p + distance)).kind := by
  induction distance generalizing p with
  | zero =>
    cases h : ahead tokens p with
    | nil => simp [kindAt, ahead_eq_nil h, Token.isEnding]
    | cons t rest =>
      obtain ⟨-, ht, hending, -⟩ := ahead_eq_cons h
      simp [kindAt, ht, hending]
  | succ distance ih =>
    cases h : ahead tokens p with
    | nil => simp [h] at hdistance
    | cons t rest =>
      obtain ⟨-, -, -, rfl⟩ := ahead_eq_cons h
      rw [h, List.length_cons] at hdistance
      have hrest := ih (Nat.le_of_succ_le_succ hdistance)
      rw [Nat.add_right_comm, Nat.add_assoc] at hrest
      rw [← hrest]
      simp [kindAt]

/-- The kind of the token at the cursor is the kind of the first token ahead. -/
theorem nextKind_ahead {kind : TokenKind} (hkind : kind ≠ .ending) :
    nextKind (ahead tokens p) = some kind ↔ (tokenAt tokens p).kind = kind := by
  cases h : ahead tokens p with
  | nil => simp [nextKind, kindAt, ahead_eq_nil h, hkind.symm]
  | cons t rest => simp [nextKind, kindAt, (ahead_eq_cons h).2.1]

end

/-! ### Trails -/

/-- Moves of a cursor over tokens ahead of it, from one position to another. -/
inductive Forward (tokens : List Token) : Nat → Nat → List Move → Prop
  | stay (p : Nat) : Forward tokens p p []
  | onward {p q : Nat} {moves : List Move} (h : ahead tokens p ≠ [])
      (hrest : Forward tokens (p + 1) q moves) :
      Forward tokens p q (.onward (p + 1) :: moves)

/-- Moves of a cursor from one position to another: over tokens ahead of it, and back to where
something was tried in vain, from where it goes over a token. -/
inductive Trail (tokens : List Token) : Nat → Nat → List Move → Prop
  | stay (p : Nat) : Trail tokens p p []
  | onward {p q : Nat} {moves : List Move} (h : ahead tokens p ≠ [])
      (hrest : Trail tokens (p + 1) q moves) : Trail tokens p q (.onward (p + 1) :: moves)
  | retry {p r q : Nat} {tried moves : List Move} (htried : Forward tokens p r tried)
      (h : ahead tokens p ≠ []) (hrest : Trail tokens (p + 1) q moves) :
      Trail tokens p q (tried ++ .back p :: .onward (p + 1) :: moves)

namespace Forward

variable {tokens : List Token} {p q r : Nat} {moves others : List Move}

theorem trans (h : Forward tokens p q moves) (hothers : Forward tokens q r others) :
    Forward tokens p r (moves ++ others) := by
  induction h with
  | stay _ => exact hothers
  | onward h _ ih => exact .onward h (ih hothers)

theorem trail (h : Forward tokens p q moves) : Trail tokens p q moves := by
  induction h with
  | stay p => exact .stay p
  | onward h _ ih => exact .onward h ih

theorem targets (h : Forward tokens p q moves) :
    ∀ m ∈ moves, m.isForced = false ∧ p < m.target ∧ m.target ≤ tokens.length ∧
      ∀ target, m ≠ .back target := by
  induction h with
  | stay _ => simp
  | onward h _ ih =>
    intro m hm
    have hlt := lt_of_ahead_ne_nil h
    rcases List.mem_cons.1 hm with rfl | hm
    · exact ⟨rfl, Nat.lt_succ_self _, hlt, by simp⟩
    · obtain ⟨hforced, htarget, hlength, hback⟩ := ih m hm
      exact ⟨hforced, by omega, hlength, hback⟩

end Forward

namespace Trail

variable {tokens : List Token} {p q r : Nat} {moves others : List Move}

theorem trans (h : Trail tokens p q moves) (hothers : Trail tokens q r others) :
    Trail tokens p r (moves ++ others) := by
  induction h with
  | stay _ => exact hothers
  | onward h _ ih => exact .onward h (ih hothers)
  | retry htried h _ ih =>
    rw [List.append_assoc]
    exact .retry htried h (ih hothers)

/-- The cursor never goes beyond the tokens. -/
theorem le_length (h : Trail tokens p q moves) (hp : p ≤ tokens.length) : q ≤ tokens.length := by
  induction h with
  | stay _ => exact hp
  | onward h _ ih | retry _ h _ ih => exact ih (lt_of_ahead_ne_nil h)

/-- The end mark that the cursor comes to stays the same. -/
theorem add_length (h : Trail tokens p q moves) :
    p + (ahead tokens p).length = q + (ahead tokens q).length := by
  induction h with
  | stay _ => rfl
  | onward h _ ih | retry _ h _ ih =>
    obtain ⟨t, rest, hcons⟩ := List.exists_cons_of_ne_nil h
    obtain ⟨-, -, -, rfl⟩ := ahead_eq_cons hcons
    rw [hcons, ← ih, List.length_cons]
    omega

/-- No move goes back beyond where the trail began, over nothing, or beyond the tokens. -/
theorem targets (h : Trail tokens p q moves) :
    ∀ m ∈ moves, m.isForced = false ∧ p ≤ m.target ∧ m.target ≤ tokens.length := by
  induction h with
  | stay _ => simp
  | onward h _ ih =>
    intro m hm
    have hlt := lt_of_ahead_ne_nil h
    rcases List.mem_cons.1 hm with rfl | hm
    · exact ⟨rfl, Nat.le_succ _, hlt⟩
    · obtain ⟨hforced, htarget, hlength⟩ := ih m hm
      exact ⟨hforced, by omega, hlength⟩
  | retry htried h _ ih =>
    intro m hm
    have hlt := lt_of_ahead_ne_nil h
    rcases List.mem_append.1 hm with hm | hm
    · obtain ⟨hforced, htarget, hlength, -⟩ := htried.targets m hm
      exact ⟨hforced, Nat.le_of_lt htarget, hlength⟩
    · rcases List.mem_cons.1 hm with rfl | hm
      · exact ⟨rfl, Nat.le_refl _, Nat.le_of_lt hlt⟩
      · rcases List.mem_cons.1 hm with rfl | hm
        · exact ⟨rfl, Nat.le_succ _, hlt⟩
        · obtain ⟨hforced, htarget, hlength⟩ := ih m hm
          exact ⟨hforced, by omega, hlength⟩

/-- A trail that goes over a token first goes beyond where it began. -/
theorem behind_first (h : Trail tokens (p + 1) q moves) :
    ∀ m ∈ .onward (p + 1) :: moves, p < m.target := by
  intro m hm
  rcases List.mem_cons.1 hm with rfl | hm
  · exact Nat.lt_succ_self _
  · exact (h.targets m hm).2.1

/-- Behind a move back there are moves, and all of them go beyond the saved position. -/
theorem behind_back (h : Trail tokens p q moves) {front behind : List Move} {target : Nat}
    (hmoves : moves = front ++ .back target :: behind) :
    behind ≠ [] ∧ ∀ m ∈ behind, target < m.target := by
  induction h generalizing front with
  | stay _ => simp at hmoves
  | onward h _ ih =>
    cases front with
    | nil => cases hmoves
    | cons m front => exact ih (List.cons.inj hmoves).2
  | @retry p _ q tried moves htried _ hrest ih =>
    rcases List.append_eq_append_iff.1 hmoves with ⟨between, rfl, hbehind⟩ | ⟨between, rfl, hbehind⟩
    · match between, hbehind with
      | [], hbehind =>
        cases hbehind
        exact ⟨by simp, hrest.behind_first⟩
      | _ :: _ :: between, hbehind => exact ih (List.cons.inj (List.cons.inj hbehind).2).2
    · match between, hbehind with
      | [], hbehind =>
        cases hbehind
        exact ⟨by simp, hrest.behind_first⟩
      | m :: between, hbehind =>
        have hm : m ∈ front ++ m :: between := by simp
        exact absurd (List.cons.inj hbehind).1.symm ((htried.targets m hm).2.2.2 target)

end Trail

end TodLang
