import TodLang.Proofs.Cursor.Reading
/-!
Readers with a cursor come to an end and get on. Whatever the tokens are, a reading never leaves
them, never needs the step for readers that read nothing, and goes back only to go on from there.
The main result is `readProgram_advances`.
-/

namespace TodLang

/-! ### Moves -/

/-- Moves that stay among some tokens. None of them is there because nothing was read, and behind a
move back come moves, all of which go beyond the place to which it went back. -/
structure Orderly (tokens : List Token) (moves : List Move) : Prop where
  inside : ∀ m ∈ moves, m.target ≤ tokens.length
  unforced : ∀ m ∈ moves, m.isForced = false
  onward : ∀ front target behind, moves = front ++ .back target :: behind →
    behind ≠ [] ∧ ∀ m ∈ behind, target < m.target

theorem Trail.orderly {tokens : List Token} {p q : Nat} {moves : List Move}
    (h : Trail tokens p q moves) : Orderly tokens moves where
  inside m hm := (h.targets m hm).2.2
  unforced m hm := (h.targets m hm).1
  onward _ _ _ hmoves := h.behind_back hmoves

/-! ### Readers -/

/-- A reader that comes to an end wherever the cursor is among some tokens, with orderly moves, and
leaves the cursor further on whenever it gives a value. -/
def Advances {α : Type} (tokens : List Token) (reader : Nat → Steps α) : Prop :=
  ∀ position moves limit, position ≤ tokens.length → readingLimit tokens ≤ limit →
    ∃ result stop trail,
      Steps.outcome? tokens ⟨position, moves⟩ (reader limit) =
        some (result, ⟨stop, moves ++ trail⟩) ∧
      stop ≤ tokens.length ∧ Orderly tokens trail ∧ (result.isOk = true → position < stop)

/-- A reader of what may not be there that leaves the cursor further on whenever it finds it. -/
def AdvancesIfFound {α : Type} (tokens : List Token) (reader : Nat → Steps (Option α)) : Prop :=
  ∀ position moves limit, position ≤ tokens.length → readingLimit tokens ≤ limit →
    ∃ found stop trail,
      Steps.outcome? tokens ⟨position, moves⟩ (reader limit) =
        some (.ok found, ⟨stop, moves ++ trail⟩) ∧
      stop ≤ tokens.length ∧ Orderly tokens trail ∧ (found.isSome = true → position < stop)

section

variable {α : Type} {tokens : List Token} {reader : Nat → Steps α}

theorem length_ahead_le (tokens : List Token) (position : Nat) :
    (ahead tokens position).length ≤ tokens.length :=
  Nat.le_trans (length_beforeEnding_le _) (by rw [List.length_drop]; exact Nat.sub_le _ _)

/-- A reader that does what a reader of lists does, which leaves fewer tokens than it is given. -/
theorem advances_of_follows {y : (ts : List Token) → Parse α ts.length}
    (h : ∀ position limit, readingLimit tokens ≤ limit →
      Follows tokens position (reader limit) (y (ahead tokens position))) :
    Advances tokens reader := by
  intro position moves limit hposition hlimit
  obtain ⟨stop, trail, result, htrail, hread, hmeets⟩ := h position limit hlimit moves
  refine ⟨result, stop, trail, hread, htrail.le_length hposition, htrail.orderly, fun hok => ?_⟩
  have hplace := htrail.add_length
  generalize y (ahead tokens position) = outcome at hmeets
  cases result with
  | error e => cases hok
  | ok value =>
    cases outcome with
    | error mismatch => exact hmeets.elim
    | ok a =>
      have := a.shorter
      rw [hmeets.2] at hplace
      omega

theorem advancesIfFound_of_tries {reader : Nat → Steps (Option α)}
    {found : (ts : List Token) → Option (Parsed α ts.length)}
    (h : ∀ position limit, readingLimit tokens ≤ limit →
      Tries tokens position (reader limit) (found (ahead tokens position))) :
    AdvancesIfFound tokens reader := by
  intro position moves limit hposition hlimit
  obtain ⟨stop, trail, htrail, hread, hahead⟩ := h position limit hlimit moves
  refine ⟨_, stop, trail, hread, htrail.trail.le_length hposition, htrail.trail.orderly,
    fun hsome => ?_⟩
  have hplace := htrail.trail.add_length
  cases hfound : found (ahead tokens position) with
  | none => simp [hfound] at hsome
  | some a =>
    have := a.shorter
    rw [hahead a (by rw [hfound]; rfl)] at hplace
    omega

end

/-- A limit that is large enough has room for what there is to read from a position on. -/
theorem lt_of_readingLimit {tokens : List Token} {limit n : Nat} (h : readingLimit tokens ≤ limit)
    (position : Nat) (hn : n ≤ 8 * (ahead tokens position).length + 9) : n < limit := by
  have := length_ahead_le tokens position
  rw [readingLimit] at h
  omega

/-- Whatever tokens are read, the reading comes to an end, with what `parseProgram` comes to. The
cursor never leaves the tokens; the step for readers that read nothing is never taken; and where the
cursor goes back it goes on from there. All this because every reader of something that cannot be
empty leaves the cursor further on. -/
theorem readProgram_advances (tokens : List Token) :
    (∃ outcome position,
      outcome.mapError SyntaxError.report = (parseProgram tokens).mapError SyntaxError.report ∧
      position ≤ tokens.length ∧
      ∀ limit, readingLimit tokens ≤ limit → ∃ moves,
        readProgram limit tokens = some (outcome, ⟨position, moves⟩) ∧ Orderly tokens moves) ∧
    Advances tokens Steps.member ∧ Advances tokens Steps.statement ∧
    Advances tokens Steps.block ∧ Advances tokens Steps.parameter ∧
    Advances tokens Steps.typeClause ∧ AdvancesIfFound tokens Steps.tryTypeClause ∧
    Advances tokens Steps.expression := by
  refine ⟨⟨readingOutcome tokens, readingEnd tokens, report_readingOutcome tokens, ?_,
    fun limit h => ?_⟩, ?_, ?_, ?_, ?_, ?_, ?_, ?_⟩
  · obtain ⟨⟨moves, htrail, -⟩, -⟩ := readProgram_eq (Nat.le_refl (readingLimit tokens))
    exact htrail.le_length (Nat.zero_le _)
  · obtain ⟨⟨moves, htrail, hread⟩, -⟩ := readProgram_eq h
    exact ⟨moves, hread, htrail.orderly⟩
  · exact advances_of_follows fun p _ h => member_follows rfl (lt_of_readingLimit h p (by omega))
  · exact advances_of_follows fun p _ h => statement_follows rfl (lt_of_readingLimit h p (by omega))
  · exact advances_of_follows fun p _ h => block_follows rfl (lt_of_readingLimit h p (by omega))
  · exact advances_of_follows fun p _ h => parameter_follows rfl (lt_of_readingLimit h p (by omega))
  · exact advances_of_follows fun p _ h =>
      typeClause_follows rfl (lt_of_readingLimit h p (by omega))
  · exact advancesIfFound_of_tries fun p _ h =>
      tryTypeClause_tries rfl (lt_of_readingLimit h p (by omega))
  · exact advances_of_follows fun p _ h =>
      expression_follows rfl (lt_of_readingLimit h p (by omega))

end TodLang
