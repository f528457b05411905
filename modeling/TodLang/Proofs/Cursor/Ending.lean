import TodLang.Proofs.Cursor.Reading
/-!
The first end mark is the end. What stands behind it does not count, though a reader may look there;
and without an end mark a program is read as if there were one where its last token stops.
-/

namespace TodLang

section

variable {ts : List Token}

theorem beforeEnding_append_ending (hts : ∀ t ∈ ts, t.isEnding = false) {e : Token}
    (he : e.isEnding = true) (rest : List Token) : beforeEnding (ts ++ e :: rest) = ts := by
  have hall : ∀ t ∈ ts, (!t.isEnding) = true := fun t ht => by rw [hts t ht]; rfl
  rw [beforeEnding, List.takeWhile_append_of_pos hall]
  simp [he]

theorem beforeEnding_eq_self (hts : ∀ t ∈ ts, t.isEnding = false) : beforeEnding ts = ts := by
  induction ts with
  | nil => rfl
  | cons t rest ih =>
    rw [List.forall_mem_cons] at hts
    rw [beforeEnding, List.takeWhile_cons, hts.1]
    exact congrArg (t :: ·) (ih hts.2)

/-- The first end mark says where the program ends. -/
theorem endingSpan_append_ending (hts : ∀ t ∈ ts, t.isEnding = false) {e : Token}
    (he : e.isEnding = true) (rest : List Token) : endingSpan (ts ++ e :: rest) = e.span := by
  have hfind : (ts ++ e :: rest).find? Token.isEnding = some e := by
    rw [List.find?_append, List.find?_eq_none.2 (by simpa using hts), List.find?_cons_of_pos he]
    rfl
  rw [endingSpan, hfind]

theorem endingSpan_eq_finish (hts : ∀ t ∈ ts, t.isEnding = false) :
    endingSpan ts = (ts.getLast?.map (·.span.finish)).getD Span.none := by
  rw [endingSpan, List.find?_eq_none.2 (by simpa using hts)]

theorem readingEnd_le (tokens : List Token) :
    readingEnd tokens ≤ (beforeEnding tokens).length := by
  unfold readingEnd
  split
  · exact Nat.le_refl _
  · exact Nat.sub_le _ _

/-- Up to the end mark, what stands behind it is not seen. -/
theorem tokenAt_append_ending (e : Token) (rest : List Token) {p : Nat} (hp : p ≤ ts.length) :
    tokenAt (ts ++ e :: rest) p = tokenAt (ts ++ [e]) p := by
  have hlt : p < (ts ++ [e]).length := by simp; omega
  have hget : (ts ++ e :: rest)[p]? = (ts ++ [e])[p]? := by
    rw [List.append_cons, List.getElem?_append_left hlt]
  rw [tokenAt, hget, tokenAt, List.getElem?_eq_getElem hlt]
  rfl

/-- Programs with the same tokens before the end mark are read up to the same place. -/
theorem readingEnd_eq_of {tokens others : List Token}
    (h : beforeEnding tokens = beforeEnding others) : readingEnd tokens = readingEnd others := by
  rw [readingEnd, readingEnd, h]

theorem readingOutcome_append_ending (hts : ∀ t ∈ ts, t.isEnding = false) {e : Token}
    (he : e.isEnding = true) (rest : List Token) :
    readingOutcome (ts ++ e :: rest) = readingOutcome (ts ++ [e]) := by
  have hrest := beforeEnding_append_ending hts he rest
  have hnone := beforeEnding_append_ending hts he []
  have hend := readingEnd_eq_of (hrest.trans hnone.symm)
  have hle : readingEnd (ts ++ [e]) ≤ ts.length := by
    have hle := readingEnd_le (ts ++ [e])
    rwa [hnone] at hle
  rw [readingOutcome, readingOutcome, hrest, hnone, hend, tokenAt_append_ending e rest hle]

end

/-- A program ends at its first end mark. Whatever stands behind it, the reading comes to the same,
with the cursor at the same place. Without an end mark, a program is read as with one of no width
where the last token stops, or at no place if there is no token. -/
theorem readsTo_first_ending {ts : List Token} (hts : ∀ t ∈ ts, t.isEnding = false) {e : Token}
    (he : e.isEnding = true) (rest : List Token) {last : Token} (hlast : last.isEnding = true)
    (hspan : last.span = (ts.getLast?.map (·.span.finish)).getD Span.none) :
    ((∃ outcome position, ReadsTo (ts ++ e :: rest) outcome position ∧
        ReadsTo (ts ++ [e]) outcome position) ∧
      parseProgram (ts ++ e :: rest) = parseProgram (ts ++ [e])) ∧
    ((∃ outcome outcome' position, ReadsTo ts outcome position ∧
        ReadsTo (ts ++ [last]) outcome' position ∧
        outcome.mapError SyntaxError.report = outcome'.mapError SyntaxError.report) ∧
      parseProgram ts = parseProgram (ts ++ [last])) := by
  have hrest := beforeEnding_append_ending hts he rest
  have hnone := beforeEnding_append_ending hts he []
  have hself := beforeEnding_eq_self hts
  have hmarked := beforeEnding_append_ending hts hlast []
  have hprogram : parseProgram ts = parseProgram (ts ++ [last]) := by
    rw [parseProgram, parseProgram, hself, hmarked, endingSpan_append_ending hts hlast,
      endingSpan_eq_finish hts, hspan]
  refine ⟨⟨⟨_, _, readsTo_readingOutcome _, ?_⟩, ?_⟩,
    ⟨_, readingOutcome (ts ++ [last]), _, readsTo_readingOutcome ts, ?_, ?_⟩, hprogram⟩
  · rw [readingOutcome_append_ending hts he, readingEnd_eq_of (hrest.trans hnone.symm)]
    exact readsTo_readingOutcome _
  · rw [parseProgram, parseProgram, hrest, hnone, endingSpan_append_ending hts he,
      endingSpan_append_ending hts he]
  · rw [readingEnd_eq_of (hself.trans hmarked.symm)]
    exact readsTo_readingOutcome _
  · rw [report_readingOutcome, report_readingOutcome, hprogram]

/-- `a ::`, after which a name is missing. -/
def brokenOff : List Token :=
  [{ kind := .identifier, literal := "a", span := Span.none },
    { kind := .sign .pathSep, literal := "::", span := Span.none }]

/-- A bracket behind the end mark would be looked for if `a ::` went on as a type. -/
theorem readsTo_first_ending_brokenOff :
    ((∃ outcome position,
        ReadsTo (brokenOff ++ Token.ending Span.none ::
          [{ kind := .sign .lbrack, literal := "[", span := Span.none }]) outcome position ∧
        ReadsTo (brokenOff ++ [Token.ending Span.none]) outcome position) ∧
      parseProgram (brokenOff ++ Token.ending Span.none ::
          [{ kind := .sign .lbrack, literal := "[", span := Span.none }]) =
        parseProgram (brokenOff ++ [Token.ending Span.none])) ∧
    ((∃ outcome outcome' position, ReadsTo brokenOff outcome position ∧
        ReadsTo (brokenOff ++ [Token.ending Span.none.finish]) outcome' position ∧
        outcome.mapError SyntaxError.report = outcome'.mapError SyntaxError.report) ∧
      parseProgram brokenOff = parseProgram (brokenOff ++ [Token.ending Span.none.finish])) :=
  readsTo_first_ending (by decide) rfl _ rfl rfl

end TodLang
