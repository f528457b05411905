import TodLang.Proofs.Cursor.Program
/-!
A program read with a cursor. The reading comes to an end whatever the tokens are, with what
`parseProgram` comes to (`readsTo_parseProgram`); and on its way the cursor never leaves the tokens
and only goes on, but for the places where a written type was tried (`readProgram_advances`).
-/

namespace TodLang

/-! ### What the reading comes to -/

/-- What is told of a syntax error. -/
structure SyntaxReport where
  message : String
  span : Span
  found : TokenKind
  expected : Option TokenKind
  deriving DecidableEq, Repr

def SyntaxError.report (e : SyntaxError) : SyntaxReport :=
  ⟨e.message, e.span, e.found.kind, e.expected?⟩

/-- A limit that readers keep to when they read a program. -/
def readingLimit (tokens : List Token) : Nat :=
  8 * tokens.length + 10

/-- Reading some tokens comes to an outcome and leaves the cursor at a position, whatever the limit
is, if it is large enough. -/
def ReadsTo (tokens : List Token) (outcome : Except SyntaxError (List Member)) (position : Nat) :
    Prop :=
  ∀ limit, readingLimit tokens ≤ limit →
    ∃ moves, readProgram limit tokens = some (outcome, ⟨position, moves⟩)

/-- Where the reading of some tokens ends: behind all tokens that are read, or where they do not fit
the grammar. -/
def readingEnd (tokens : List Token) : Nat :=
  match parseMembers (beforeEnding tokens) with
  | .ok _ => (beforeEnding tokens).length
  | .error mismatch => (beforeEnding tokens).length - mismatch.rest.length

/-- What the reading of some tokens comes to. -/
def readingOutcome (tokens : List Token) : Except SyntaxError (List Member) :=
  (parseMembers (beforeEnding tokens)).mapError fun mismatch =>
    ⟨tokenAt tokens (readingEnd tokens), mismatch.wanted⟩

section

variable {tokens : List Token}

theorem ahead_zero (tokens : List Token) : ahead tokens 0 = beforeEnding tokens := rfl

theorem length_beforeEnding_le (tokens : List Token) :
    (beforeEnding tokens).length ≤ tokens.length :=
  (List.takeWhile_prefix _).length_le

/-- The reading ends as `parseMembers` does, and the cursor has left a trail to there. -/
theorem readProgram_eq {limit : Nat} (hlimit : readingLimit tokens ≤ limit) :
    (∃ moves, Trail tokens 0 (readingEnd tokens) moves ∧
      readProgram limit tokens = some (readingOutcome tokens, ⟨readingEnd tokens, moves⟩)) ∧
    ∀ mismatch, parseMembers (beforeEnding tokens) = .error mismatch →
      ahead tokens (readingEnd tokens) = mismatch.rest := by
  have hlength := length_beforeEnding_le tokens
  have hread : Follows tokens 0 (Steps.members limit)
      (allRead (parseMembers (beforeEnding tokens))) :=
    members_follows (ahead_zero tokens) (by rw [readingLimit] at hlimit; omega)
  obtain ⟨q, moves, result, htrail, hread, hmeets⟩ := hread []
  have hplace : (beforeEnding tokens).length = q + (ahead tokens q).length := by
    rw [← htrail.add_length, Nat.zero_add, ahead_zero]
  rw [readProgram, Cursor.start, hread, readingOutcome, readingEnd]
  match result, parseMembers (beforeEnding tokens), hmeets with
  | .ok _, .ok members, ⟨rfl, hrest⟩ =>
    obtain rfl : q = (beforeEnding tokens).length := by rw [hplace, hrest]; rfl
    exact ⟨⟨moves, htrail, rfl⟩, nofun⟩
  | .error _, .error mismatch, ⟨rfl, hrest⟩ =>
    obtain rfl : q = (beforeEnding tokens).length - mismatch.rest.length := by
      rw [hplace, hrest, Nat.add_sub_cancel]
    exact ⟨⟨moves, htrail, rfl⟩, fun _ h => (Except.error.inj h) ▸ hrest⟩

theorem readsTo_readingOutcome (tokens : List Token) :
    ReadsTo tokens (readingOutcome tokens) (readingEnd tokens) := fun _ hlimit =>
  let ⟨⟨moves, _, hread⟩, _⟩ := readProgram_eq hlimit
  ⟨moves, hread⟩

/-- Reading comes to one outcome only. -/
theorem ReadsTo.unique {x y : Except SyntaxError (List Member)} {p q : Nat}
    (hx : ReadsTo tokens x p) (hy : ReadsTo tokens y q) : x = y ∧ p = q := by
  obtain ⟨moves, hread⟩ := hx (readingLimit tokens) (Nat.le_refl _)
  obtain ⟨others, hread'⟩ := hy (readingLimit tokens) (Nat.le_refl _)
  rw [hread] at hread'
  cases hread'
  exact ⟨rfl, rfl⟩

/-! ### The end mark -/

theorem getElem?_length_beforeEnding (tokens : List Token) :
    tokens[(beforeEnding tokens).length]? = tokens.find? Token.isEnding := by
  induction tokens with
  | nil => rfl
  | cons t rest ih =>
    cases ht : t.isEnding with
    | true => simp [beforeEnding, ht]
    | false => simpa [beforeEnding, ht] using ih

/-- The token behind the tokens before the end mark is an end mark where the program ends. -/
theorem tokenAt_length_beforeEnding (tokens : List Token) :
    (tokenAt tokens (beforeEnding tokens).length).isEnding = true ∧
      (tokenAt tokens (beforeEnding tokens).length).span = endingSpan tokens := by
  rw [tokenAt, getElem?_length_beforeEnding, endingSpan]
  cases h : tokens.find? Token.isEnding with
  | none => exact ⟨rfl, rfl⟩
  | some e => exact ⟨List.find?_some h, rfl⟩

/-- Of an end mark nothing is told but its place. -/
theorem report_ending {e : Token} (h : e.isEnding = true) (wanted : Wanted) :
    SyntaxError.report ⟨e, wanted⟩ = SyntaxError.report ⟨Token.ending e.span, wanted⟩ := by
  have hkind : e.kind = .ending := by simpa [Token.isEnding] using h
  have hdescribe : e.describe = (Token.ending e.span).describe := by
    simp only [Token.describe, hkind, Token.ending]
  cases wanted <;>
    simp [SyntaxError.report, SyntaxError.message, SyntaxError.span, SyntaxError.expected?,
      hdescribe, hkind, Token.ending, TokenKind.isKeyword]

/-- What the reading with a cursor comes to is told of as what `parseProgram` comes to. -/
theorem report_readingOutcome (tokens : List Token) :
    (readingOutcome tokens).mapError SyntaxError.report =
      (parseProgram tokens).mapError SyntaxError.report := by
  obtain ⟨-, hend⟩ := readProgram_eq (Nat.le_refl (readingLimit tokens))
  unfold readingOutcome parseProgram
  cases hparse : parseMembers (beforeEnding tokens) with
  | ok members => rfl
  | error mismatch =>
    have hahead := hend mismatch hparse
    refine congrArg Except.error ?_
    cases hrest : mismatch.rest with
    | cons t rest => rw [(ahead_eq_cons (hahead.trans hrest)).2.1]; rfl
    | nil =>
      have hplace : readingEnd tokens = (beforeEnding tokens).length := by
        rw [readingEnd, hparse]
        simp [hrest]
      obtain ⟨hending, hspan⟩ := tokenAt_length_beforeEnding tokens
      rw [hplace, report_ending hending, hspan]
      rfl

end

end TodLang
