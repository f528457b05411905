import Mathlib.Data.List.TakeWhile
import TodLang.Source.File
import TodLang.Proofs.Source.Slice
/-!
Lines of a text. A line begins where the text begins or behind a line feed, and it reaches up to
the next line feed or to the end of the text. A file gives its lines back without the carriage
returns at their ends, and it has no empty line behind a line feed that ends it. The main facts are
that a file has each of its lines under the number that places on it have, and which places are on
none of its lines.
-/

namespace TodLang

/-- A text ends where a line begins. -/
def EndsLine (text : List Char) : Prop :=
  ∀ c ∈ text.getLast?, c = '\n'

/-- A line of a text, with what stands above and below it, and with the carriage returns at its
end, which do not count as its own. -/
structure Line where
  above : List Char
  shown : List Char
  returns : List Char
  below : List Char
  above_ends : EndsLine above
  shown_feed : '\n' ∉ shown
  shown_ends : ∀ c ∈ shown.getLast?, c ≠ '\r'
  returns_eq : ∀ c ∈ returns, c = '\r'
  below_begins : ∀ c ∈ below.head?, c = '\n'
  /-- A text has no empty line behind a line feed that ends it. -/
  not_over : shown ++ returns ++ below ≠ []

namespace Line

/-- The text that the line is of. -/
def text (l : Line) : List Char :=
  l.above ++ l.shown ++ l.returns ++ l.below

/-- The number of the line, counted from one. -/
def number (l : Line) : Nat :=
  1 + l.above.count '\n'

end Line

theorem mem_getLast?_of_reverse {c : Char} {text front : List Char}
    (h : text.reverse = c :: front) : c ∈ text.getLast? := by
  rw [← List.head?_reverse, h]
  rfl

/-! ### Line feeds in front of a line -/

theorem endsLine_nil : EndsLine [] := by
  simp [EndsLine]

theorem EndsLine.of_cons {c : Char} {text : List Char} (h : EndsLine (c :: text)) :
    EndsLine text := by
  intro d hd
  have hne : text ≠ [] := by
    rintro rfl
    cases hd
  exact h d (by rwa [List.getLast?_cons_of_ne_nil hne])

/-- A text that ends where a line begins, if it has characters, has a line feed. -/
theorem EndsLine.feed_mem {text : List Char} (h : EndsLine text) (hne : text ≠ []) :
    '\n' ∈ text := by
  have hlast := List.getLast?_eq_some_getLast hne
  rw [← h _ hlast]
  exact List.getLast_mem hne

theorem lineAfter?_cons_feed (feeds : Nat) (text : List Char) :
    lineAfter? (feeds + 1) ('\n' :: text) = lineAfter? feeds text := by
  simp [lineAfter?]

theorem lineAfter?_cons_of_ne {c : Char} (hc : c ≠ '\n') (feeds : Nat) (text : List Char) :
    lineAfter? (feeds + 1) (c :: text) = lineAfter? (feeds + 1) text := by
  simp [lineAfter?, hc]

/-- The lines above are left out by their line feeds. -/
theorem lineAfter?_above {above : List Char} (h : EndsLine above) (text : List Char) :
    lineAfter? (above.count '\n') (above ++ text) = lineAfter? 0 text := by
  induction above with
  | nil => rfl
  | cons c above ih =>
    have hrest := ih h.of_cons
    by_cases hc : c = '\n'
    · subst hc
      rw [List.count_cons_self, List.cons_append, lineAfter?_cons_feed, hrest]
    · have hne : above ≠ [] := by
        rintro rfl
        exact hc (h c rfl)
      obtain ⟨feeds, hfeeds⟩ := Nat.exists_eq_succ_of_ne_zero
        (List.count_pos_iff.2 (h.of_cons.feed_mem hne)).ne'
      have hcount : (c :: above).count '\n' = feeds + 1 := by
        rw [List.count_cons_of_ne hc, hfeeds]
      rw [hcount, List.cons_append, lineAfter?_cons_of_ne hc, ← hrest, hfeeds]

/-- Every text is what ends where its last line begins, and what it has of that line. -/
theorem exists_lastLine (text : List Char) :
    ∃ above left, text = above ++ left ∧ EndsLine above ∧ '\n' ∉ left := by
  induction text using List.reverseRecOn with
  | nil => exact ⟨[], [], rfl, endsLine_nil, by simp⟩
  | append_singleton text c ih =>
    obtain ⟨above, left, rfl, habove, hleft⟩ := ih
    by_cases hc : c = '\n'
    · subst hc
      exact ⟨above ++ left ++ ['\n'], [], by simp, by simp [EndsLine], by simp⟩
    · exact ⟨above, left ++ [c], by simp, habove, by simp [hleft, Ne.symm hc]⟩

/-- The place behind the front of a line. -/
theorem Position.start_advance_above {above left : List Char} (habove : EndsLine above)
    (hleft : '\n' ∉ left) :
    start.advance (above ++ left) =
      ⟨String.utf8Len (above ++ left), 1 + above.count '\n', 1 + left.length⟩ := by
  have hcount : left.count '\n' = 0 := List.count_eq_zero.2 hleft
  have hall : ∀ c ∈ left.reverse, decide (c ≠ '\n') = true := by
    intro c hc
    rw [List.mem_reverse] at hc
    exact decide_eq_true fun heq => hleft (heq ▸ hc)
  have hstop : above.reverse.takeWhile (· ≠ '\n') = [] := by
    cases htext : above.reverse with
    | nil => rfl
    | cons c front => simp [habove c (mem_getLast?_of_reverse htext)]
  rw [start_advance, List.count_append, hcount, List.reverse_append,
    List.takeWhile_append_of_pos hall, hstop, List.append_nil, List.length_reverse, Nat.add_zero]

/-- Every text is what it has of its first line, and what stands from the end of that line on. -/
theorem exists_firstLine (text : List Char) :
    ∃ right below, text = right ++ below ∧ '\n' ∉ right ∧ ∀ c ∈ below.head?, c = '\n' := by
  refine ⟨text.takeWhile (· ≠ '\n'), text.dropWhile (· ≠ '\n'),
    List.takeWhile_append_dropWhile.symm, ?_, ?_⟩
  · intro hmem
    simpa using List.mem_takeWhile_imp hmem
  · intro c hc
    have hhead := List.head?_dropWhile_not (· ≠ '\n') text
    rw [Option.mem_def.1 hc] at hhead
    simpa using hhead

/-! ### Carriage returns at the end of a line -/

theorem trimReturns_append {shown returns : List Char} (hshown : ∀ c ∈ shown.getLast?, c ≠ '\r')
    (hreturns : ∀ c ∈ returns, c = '\r') : trimReturns (shown ++ returns) = shown := by
  have hall : ∀ c ∈ returns.reverse, decide (c = '\r') = true := by
    intro c hc
    exact decide_eq_true (hreturns c (List.mem_reverse.1 hc))
  have hstop : shown.reverse.dropWhile (· = '\r') = shown.reverse := by
    cases htext : shown.reverse with
    | nil => rfl
    | cons c front => simp [hshown c (mem_getLast?_of_reverse htext)]
  rw [trimReturns, List.reverse_append, List.dropWhile_append_of_pos hall, hstop,
    List.reverse_reverse]

/-- A line is what is left of it and the carriage returns at its end. -/
theorem exists_returns (line : List Char) :
    ∃ shown returns, line = shown ++ returns ∧ (∀ c ∈ shown.getLast?, c ≠ '\r') ∧
      ∀ c ∈ returns, c = '\r' := by
  induction line using List.reverseRecOn with
  | nil => exact ⟨[], [], rfl, by simp, by simp⟩
  | append_singleton line c ih =>
    by_cases hc : c = '\r'
    · obtain ⟨shown, returns, rfl, hshown, hreturns⟩ := ih
      refine ⟨shown, returns ++ [c], by simp, hshown, ?_⟩
      intro d hd
      rcases List.mem_append.1 hd with hd | hd
      · exact hreturns d hd
      · rw [List.mem_singleton.1 hd, hc]
    · exact ⟨line ++ [c], [], by simp, by simpa using hc, by simp⟩

/-! ### The lines of a file -/

/-- Up to the next line feed, if nothing in front of it is one. -/
theorem takeWhile_line {line below : List Char} (hline : '\n' ∉ line)
    (hbelow : ∀ c ∈ below.head?, c = '\n') : (line ++ below).takeWhile (· ≠ '\n') = line := by
  have hall : ∀ c ∈ line, decide (c ≠ '\n') = true := fun c hc =>
    decide_eq_true fun heq => hline (heq ▸ hc)
  rw [List.takeWhile_append_of_pos hall]
  cases below with
  | nil => simp
  | cons c below => simp [hbelow c rfl]

/-- A file has its lines under their numbers. -/
theorem Line.line?_number (l : Line) {file : SourceFile} (h : l.text = file.text.toList) :
    file.line? l.number = some (String.ofList l.shown) := by
  have hfeed : '\n' ∉ l.shown ++ l.returns := by
    intro hmem
    rcases List.mem_append.1 hmem with hmem | hmem
    · exact l.shown_feed hmem
    · exact absurd (l.returns_eq _ hmem) (by decide)
  have hline : lineAfter? 0 (l.shown ++ l.returns ++ l.below) = some (l.shown ++ l.returns) := by
    have hsome : (l.shown ++ l.returns ++ l.below).isEmpty = false :=
      List.isEmpty_eq_false_iff.2 l.not_over
    rw [lineAfter?, hsome, takeWhile_line hfeed l.below_begins]
    rfl
  have htext : file.text.toList = l.above ++ (l.shown ++ l.returns ++ l.below) := by
    rw [← h, Line.text]
    simp only [List.append_assoc]
  rw [SourceFile.line?, if_neg (by simp [number]), htext, number, Nat.add_sub_cancel_left,
    lineAfter?_above l.above_ends, hline, Option.map_some,
    trimReturns_append l.shown_ends l.returns_eq]

/-- A place of a text is on a line of it, unless the text ends there and no character stands
between the last line feed and the place. -/
theorem Line.exists_around {above left rest : List Char} (habove : EndsLine above)
    (hleft : '\n' ∉ left) (hne : left ++ rest ≠ []) :
    ∃ l : Line, l.text = above ++ left ++ rest ∧ l.above = above ∧
      left <+: l.shown ++ l.returns := by
  obtain ⟨right, below, rfl, hright, hbelow⟩ := exists_firstLine rest
  obtain ⟨shown, returns, hline, hshown, hreturns⟩ := exists_returns (left ++ right)
  have hfeed : '\n' ∉ shown := by
    intro hmem
    have hmem : '\n' ∈ left ++ right := hline ▸ List.mem_append_left _ hmem
    exact (List.mem_append.1 hmem).elim hleft hright
  have hover : shown ++ returns ++ below ≠ [] := by
    rwa [← hline, List.append_assoc]
  refine ⟨⟨above, shown, returns, below, habove, hfeed, hshown, hreturns, hbelow, hover⟩, ?_, rfl,
    ?_⟩
  · calc above ++ shown ++ returns ++ below
      _ = above ++ (shown ++ returns) ++ below := by rw [List.append_assoc above]
      _ = above ++ left ++ (right ++ below) := by rw [← hline]; simp only [List.append_assoc]
  · rw [← hline]
    exact List.prefix_append ..

/-- No line of a file begins where the file ends. -/
theorem SourceFile.line?_end (file : SourceFile) (h : EndsLine file.text.toList) :
    file.line? (1 + file.text.toList.count '\n') = none := by
  have hnone := lineAfter?_above h []
  rw [List.append_nil] at hnone
  rw [line?, if_neg (by simp), Nat.add_sub_cancel_left, hnone, lineAfter?_nil, Option.map_none]

end TodLang
