import TodLang.Proofs.Token.TextLiteral
/-!
Quoted texts as sources. A text is displayed between double quotes; some of its characters stand
there as they are, some by a letter behind a backslash, and the others by their code point. The
first two sorts are read back as the characters they show, and the scanner has no escape for the
third, so a displayed text is read back as the text or fails at the first code point
(`tokenize_display`).
-/

namespace TodLang

/-- A character that a quoted text shows as it is or by one of the short escapes. -/
def ShownPlainly (c : Char) : Prop :=
  quotedChar c = [c] ∨ ∃ letter ∈ ['"', '\\', 'n', 't', 'r', '0'], quotedChar c = ['\\', letter]

-- The letters are gone through one by one, and not all characters.
instance : DecidablePred ShownPlainly := fun c =>
  have := List.decidableBEx (quotedChar c = ['\\', ·]) ['"', '\\', 'n', 't', 'r', '0']
  instDecidableOr

/-- A short escape is one of the letters that the scanner knows, and means the character. -/
theorem shortEscape?_eq_some {c letter : Char} (h : shortEscape? c = some letter) :
    letter ∈ ['"', '\\', 'n', 't', 'r', '0'] ∧ (letter, c) ∈ escapes := by
  unfold shortEscape? at h
  split_ifs at h
  all_goals
    subst c
    cases h
    decide

/-- What is shown plainly is read back as the character. -/
theorem encodes_quotedChar {c : Char} (h : ShownPlainly c) : Encodes '"' (quotedChar c) [c] := by
  cases hshort : shortEscape? c with
  | some letter =>
    have hquoted : quotedChar c = ['\\', letter] := by rw [quotedChar, hshort]
    rw [hquoted]
    exact .escape (shortEscape?_eq_some hshort).2 .nil
  | none =>
    have hquote : c ≠ '"' := by
      rintro rfl
      cases hshort
    have hslash : c ≠ '\\' := by
      rintro rfl
      cases hshort
    have hquoted : quotedChar c = [c] := by
      rcases h with h | ⟨letter, -, h⟩
      · exact h
      · rw [quotedChar, hshort] at h ⊢
        dsimp only at h ⊢
        split at h
        · cases h
        · simp at h
    rw [hquoted]
    exact .plain hquote hslash .nil

theorem encodes_flatMap_quotedChar {text : List Char} (h : ∀ c ∈ text, ShownPlainly c) :
    Encodes '"' (text.flatMap quotedChar) text := by
  induction text with
  | nil => exact .nil
  | cons c text ih =>
    obtain ⟨hc, htext⟩ := List.forall_mem_cons.1 h
    exact (encodes_quotedChar hc).append (ih htext)

/-- What is not shown plainly is shown by its code point, behind the escape `\u`. -/
theorem quotedChar_of_not_shownPlainly {c : Char} (h : ¬ ShownPlainly c) :
    ∃ digits, quotedChar c = '\\' :: 'u' :: digits := by
  rw [ShownPlainly, not_or, not_exists] at h
  obtain ⟨hplain, hescape⟩ := h
  cases hshort : shortEscape? c with
  | some letter =>
    have hquoted : quotedChar c = ['\\', letter] := by rw [quotedChar, hshort]
    exact absurd ⟨(shortEscape?_eq_some hshort).1, hquoted⟩ (hescape letter)
  | none =>
    rw [quotedChar, hshort] at hplain ⊢
    dsimp only at hplain ⊢
    split
    · next hshown =>
      rw [if_pos hshown] at hplain
      exact absurd rfl hplain
    · exact ⟨_, rfl⟩

/-- Where some character is not shown plainly, one of them is the first. -/
theorem exists_first_not_shownPlainly {text : List Char} (h : ∃ c ∈ text, ¬ ShownPlainly c) :
    ∃ c back, text = text.takeWhile (ShownPlainly ·) ++ c :: back ∧ ¬ ShownPlainly c := by
  induction text with
  | nil => simp at h
  | cons d text ih =>
    by_cases hd : ShownPlainly d
    · obtain ⟨c, back, hback, hc⟩ := ih (by simpa [hd] using h)
      refine ⟨c, back, ?_, hc⟩
      rw [List.takeWhile_cons_of_pos (by simpa using hd), List.cons_append, ← hback]
    · refine ⟨d, text, ?_, hd⟩
      rw [List.takeWhile_cons_of_neg (by simpa using hd), List.nil_append]

/-- A displayed text, as a source, is one literal of the text if every character is shown plainly,
and otherwise fails at the first escape `\u`, which is that of the first other character. -/
theorem tokenize_display (file : Nat) (hash : Bool) (s : String) :
    let text := (Value.text s).display
    ((∀ c ∈ s.toList, ShownPlainly c) →
      tokenize file hash text =
        .ok [{ kind := .text, literal := text, value := some (.text s),
               span := Span.between file Position.start (Position.start.advance text.toList),
               spaceAfter := true },
             Token.ending (Span.point file (Position.start.advance text.toList))]) ∧
    ((∃ c ∈ s.toList, ¬ ShownPlainly c) →
      let front := s.toList.takeWhile (ShownPlainly ·)
      let before := '"' :: (front.flatMap quotedChar ++ ['\\'])
      before ++ ['u'] <+: text.toList ∧
        tokenize file hash text =
          .error ⟨.unknownEscape 'u', Span.between file (Position.start.advance before)
            (Position.start.advance (before ++ ['u']))⟩) := by
  intro text
  have htext : text = String.ofList ('"' :: (s.toList.flatMap quotedChar ++ ['"'])) := rfl
  have hscans := scansText (.inl rfl : '"' = '"' ∨ '"' = '\'') hash file Position.start
    (s.toList.flatMap quotedChar ++ ['"'])
  constructor
  · intro hall
    have hscan := (hscans.closed _).2 ⟨_, _, [], encodes_flatMap_quotedChar hall, rfl, rfl⟩
    rw [String.ofList_toList] at hscan
    rw [htext, String.toList_ofList]
    exact tokenize_of_lexeme hscan
  · intro hhidden front before
    have hfront : ∀ d ∈ front, ShownPlainly d := fun d hd => by
      simpa using List.mem_takeWhile_imp hd
    obtain ⟨c, back, hback, hc⟩ : ∃ c back, s.toList = front ++ c :: back ∧ ¬ ShownPlainly c :=
      exists_first_not_shownPlainly hhidden
    obtain ⟨digits, hdigits⟩ := quotedChar_of_not_shownPlainly hc
    have hrest : s.toList.flatMap quotedChar ++ ['"'] =
        front.flatMap quotedChar ++
          '\\' :: 'u' :: (digits ++ back.flatMap quotedChar ++ ['"']) := by
      simp [hback, hdigits]
    have hscan := (hscans.unknownEscape 'u' _).2
      ⟨_, _, _, encodes_flatMap_quotedChar hfront, hrest, escapeMeaning?_eq_none_iff.1 rfl, rfl⟩
    refine ⟨?_, ?_⟩
    · rw [htext, hrest, String.toList_ofList]
      simp [before]
    · rw [htext, tokenize_of_error hscan]
      simp [before]

/-- An apostrophe stands as it is, a line feed by its letter; a character without a shape has
neither. -/
theorem tokenize_display_escape :
    let plain := (Value.text "it's\n\\").display
    let hidden := (Value.text "ß\x1b\x1b").display
    plain = "\"it's\\n\\\\\"" ∧ hidden = "\"ß\\u\x7b1b\x7d\\u\x7b1b\x7d\"" ∧
      tokenize 0 true plain =
        .ok [⟨.text, plain, some (.text "it's\n\\"), ⟨0, 0, 10, 1, 1, 1, 11⟩, true⟩,
             Token.ending ⟨0, 10, 10, 1, 11, 1, 11⟩] ∧
      tokenize 0 true hidden = .error ⟨.unknownEscape 'u', ⟨0, 4, 5, 1, 4, 1, 5⟩⟩ := by
  refine ⟨by decide +kernel, by decide +kernel, ?_, ?_⟩
  · have hall : "it's\n\\".toList.all (ShownPlainly ·) = true := by decide +kernel
    have h := (tokenize_display 0 true "it's\n\\").1 fun c hc =>
      of_decide_eq_true (List.all_eq_true.1 hall c hc)
    exact h.trans (by decide +kernel)
  · have h := (tokenize_display 0 true "ß\x1b\x1b").2 ⟨'\x1b', by decide +kernel, by decide +kernel⟩
    exact h.2.trans (by decide +kernel)

end TodLang
