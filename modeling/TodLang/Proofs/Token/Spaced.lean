import TodLang.Proofs.Grammar.Legible
/-!
Lexemes written out with separators behind them. A separator begins with white space and goes on
with white space and complete comments. It keeps the lexeme in front of it from running on into what
follows, and leaves no token itself. So the lexemes of a source, with any separators behind them,
are read as the same lexemes (`tokenize_spacedOut`).
-/

namespace TodLang

/-! ### What can be ignored leaves no token -/

section

variable {hash : Bool} {file : Nat} {place : Position}

/-- The first end of a block comment is found behind a body that holds none. -/
theorem splitBlockEnd?_of_not_infix {body : List Char} (h : ¬ ['*', '/'] <:+: body ++ ['*'])
    (rest : List Char) :
    splitBlockEnd? (body ++ '*' :: '/' :: rest) = some (body ++ ['*', '/'], rest) := by
  induction body with
  | nil => rfl
  | cons c body ih =>
    rw [List.cons_append, List.infix_cons_iff, not_or] at h
    obtain ⟨hstart, hbody⟩ := h
    rw [List.cons_append, splitBlockEnd?, ih hbody]
    · rfl
    · rintro others rfl hothers
      cases body with
      | nil => cases hothers
      | cons d body =>
        obtain ⟨rfl, -⟩ := List.cons.inj hothers
        exact hstart ⟨body ++ ['*'], rfl⟩

theorem readPiece_of_readComment? {c : Char} {rest after : List Char} {piece : Piece}
    (hc : isBlank c = false) (h : readComment? hash (c :: rest) = some (.ok (piece, after))) :
    readPiece hash c rest = .ok (piece, after) := by
  unfold readPiece
  rw [hc, h]
  rfl

theorem readComment?_line {opener : List Char} (h : opener ∈ lineOpeners hash)
    (text : List Char) :
    readComment? hash (opener ++ text) =
      some (.ok (.comment ((opener ++ text).takeWhile (· ≠ '\n')),
        (opener ++ text).dropWhile (· ≠ '\n'))) := by
  unfold lineOpeners at h
  rcases List.mem_cons.1 h with rfl | h
  · rfl
  · split at h
    · next hhash =>
      obtain rfl := List.mem_singleton.1 h
      exact if_pos hhash
    · cases h

theorem exists_cons_of_lineOpeners {opener : List Char} (h : opener ∈ lineOpeners hash) :
    ∃ c tail, opener = c :: tail ∧ isBlank c = false ∧ '\n' ∉ opener := by
  unfold lineOpeners at h
  rcases List.mem_cons.1 h with rfl | h
  · exact ⟨_, _, rfl, by decide⟩
  · split at h
    · obtain rfl := List.mem_singleton.1 h
      exact ⟨_, _, rfl, by decide⟩
    · cases h

/-- A line comment is read up to the end of its line. -/
theorem readPiece_line {opener body after : List Char} (hopener : opener ∈ lineOpeners hash)
    (hbody : '\n' ∉ body) (hend : ∀ c ∈ after.head?, c = '\n') :
    ∃ c tail, opener ++ body ++ after = c :: tail ∧
      readPiece hash c tail = .ok (.comment (opener ++ body), after) := by
  obtain ⟨c, mark, rfl, hc, hmark⟩ := exists_cons_of_lineOpeners hopener
  refine ⟨c, mark ++ body ++ after, rfl, readPiece_of_readComment? hc ?_⟩
  have hall : ∀ d ∈ c :: mark ++ body, decide (d ≠ '\n') = true := by
    intro d hd
    rw [decide_eq_true_iff]
    rintro rfl
    exact (List.mem_append.1 hd).elim hmark hbody
  have hstop : ∀ d ∈ after.head?, decide (d ≠ '\n') = false := fun d hd => by simp [hend d hd]
  have hread := readComment?_line hopener (body ++ after)
  obtain ⟨hline, hbehind⟩ := span_append hall hstop
  rw [← List.append_assoc, hline, hbehind] at hread
  exact hread

/-- White space and complete comments leave no token and only move the others. -/
theorem tokens_ignorable {after gap : List Char} (h : Ignorable hash after gap) :
    (readPieces hash (gap ++ after)).tokens file place =
      (readPieces hash after).tokens file (place.advance gap) := by
  induction h generalizing place with
  | nil => rfl
  | @blank c rest hc _ ih =>
    have hrun : ∀ d ∈ [c], isBlank d = true := List.forall_mem_singleton.2 hc
    exact (tokens_blank hrun (rest ++ after)).trans ih
  | @line opener body rest hopener hbody hend _ ih =>
    obtain ⟨c, tail, htext, hread⟩ := readPiece_line hopener hbody hend
    rw [List.append_assoc, htext, tokens_comment hread, ih, ← Position.advance_append]
  | @block body rest hbody _ ih =>
    have hsplit := splitBlockEnd?_of_not_infix hbody (rest ++ after)
    have hcomment : readComment? hash ('/' :: '*' :: (body ++ '*' :: '/' :: (rest ++ after))) =
        some (.ok (.comment ('/' :: '*' :: (body ++ ['*', '/'])), rest ++ after)) := by
      rw [readComment?, hsplit]
    have hgap : '/' :: '*' :: body ++ '*' :: '/' :: rest =
        '/' :: '*' :: (body ++ ['*', '/']) ++ rest := by
      simp
    rw [hgap, Position.advance_append, ← ih,
      ← tokens_comment (readPiece_of_readComment? rfl hcomment)]
    simp

end

/-! ### Rows of lexemes with separators -/

/-- What may stand behind a lexeme and in front of another text: white space, and behind its first
character complete comments as well. A line comment without its line feed is complete only in front
of the end. -/
structure Separates (hash : Bool) (after separator : List Char) : Prop where
  blank : ∃ c ∈ separator.head?, isBlank c = true
  ignorable : Ignorable hash after separator

/-- The text of a row: the literals of its tokens, each with a separator behind it. -/
def spacedOut (row : List (Token × String)) : List Char :=
  row.flatMap fun entry => entry.1.literal.toList ++ entry.2.toList

/-- Whether there is a separator behind each token of a row. -/
def Spaced (hash : Bool) : List (Token × String) → Prop
  | [] => True
  | entry :: others =>
    Separates hash (spacedOut others) entry.2.toList ∧ Spaced hash others

/-- A token says what another one does, and has white space behind it. -/
structure Token.Respells (t u : Token) : Prop where
  kind : t.kind = u.kind
  literal : t.literal = u.literal
  value : t.value = u.value
  spaceAfter : t.spaceAfter = true

theorem Separates.startsBlank {hash : Bool} {after separator : List Char}
    (h : Separates hash after separator) : StartsBlank (separator ++ after) := by
  obtain ⟨c, hc, hblank⟩ := h.blank
  cases separator with
  | nil => cases hc
  | cons d separator =>
    obtain rfl := Option.some.inj hc
    exact hblank

/-- The text of a row of legible tokens with separators is read as the row. -/
theorem tokens_spacedOut {hash : Bool} {row : List (Token × String)}
    (hlegible : ∀ entry ∈ row, entry.1.Legible hash) (hspaced : Spaced hash row) (file : Nat)
    (place : Position) :
    ∃ again mark, (readPieces hash (spacedOut row)).tokens file place =
        .ok (again ++ [Token.ending mark]) ∧
      List.Forall₂ Token.Respells again (row.map Prod.fst) := by
  induction row generalizing place with
  | nil => exact ⟨[], Span.point file place, by simp [spacedOut, readPieces, Reading.tokens], .nil⟩
  | cons entry others ih =>
    obtain ⟨hentry, hothers⟩ := List.forall_mem_cons.1 hlegible
    obtain ⟨hseparates, hrest⟩ := hspaced
    obtain ⟨c, tail, htext, hread⟩ := hentry.read hseparates.startsBlank
    have htokens : (readPieces hash (c :: (tail ++ (entry.2.toList ++ spacedOut others)))).tokens
        file place = _ := tokens_lexeme hread
    rw [tokens_ignorable hseparates.ignorable] at htokens
    obtain ⟨again, mark, hagain, hrespells⟩ :=
      ih hothers hrest ((place.advance (c :: tail)).advance entry.2.toList)
    rw [hagain] at htokens
    have hspelled : spacedOut (entry :: others) =
        c :: (tail ++ (entry.2.toList ++ spacedOut others)) := by
      rw [spacedOut, List.flatMap_cons, htext, List.append_assoc]
      rfl
    rw [hspelled]
    refine ⟨_ :: again, mark, htokens, .cons ⟨rfl, ?_, rfl, ?_⟩ hrespells⟩
    · rw [← htext, String.ofList_toList]
    · exact (startsBlank_readPieces hash _).trans hseparates.startsBlank

/-- The lexemes of a source, with any separators behind them, are read as the same lexemes with
white space behind them, and nothing else is. -/
theorem tokenize_spacedOut {file : Nat} {hash : Bool} {source : String} {tokens : List Token}
    (h : tokenize file hash source = .ok tokens) {row : List (Token × String)}
    (hrow : row.map Prod.fst = tokens.filter fun t => !t.isEnding) (hspaced : Spaced hash row)
    (again : Nat) :
    ∃ respelled mark, tokenize again hash (String.ofList (spacedOut row)) =
        .ok (respelled ++ [Token.ending mark]) ∧
      List.Forall₂ Token.Respells respelled (tokens.filter fun t => !t.isEnding) := by
  have hlegible : ∀ entry ∈ row, entry.1.Legible hash := by
    intro entry hentry
    have hmem : entry.1 ∈ tokens.filter fun t => !t.isEnding :=
      hrow ▸ List.mem_map_of_mem hentry
    obtain ⟨ht, hkind⟩ := List.mem_filter.1 hmem
    exact legible_readPieces h entry.1 ht (by simpa using hkind)
  rw [tokenize, String.toList_ofList, ← hrow]
  exact tokens_spacedOut hlegible hspaced again Position.start

/-- A sign that would begin a comment with what stands behind it, and a text that holds the
beginning of one. The last separator ends with a comment that the end of the source completes. -/
theorem tokenize_spacedOut_comments :
    let name : Token := ⟨.identifier, "a", none, ⟨0, 0, 1, 1, 1, 1, 2⟩, false⟩
    let sign : Token := ⟨.sign .quo, "/", none, ⟨0, 1, 2, 1, 2, 1, 3⟩, false⟩
    let text : Token := ⟨.text, "'//'", some (.text "//"), ⟨0, 2, 6, 1, 3, 1, 7⟩, true⟩
    let row := [(name, " "), (sign, "\t/* x */"), (text, "\n# end")]
    tokenize 0 true "a/'//'" = .ok [name, sign, text, Token.ending ⟨0, 6, 6, 1, 7, 1, 7⟩] ∧
      spacedOut row = "a /\t/* x */'//'\n# end".toList ∧ Spaced true row ∧
      ∃ respelled mark, tokenize 1 true "a /\t/* x */'//'\n# end" =
          .ok (respelled ++ [Token.ending mark]) ∧
        List.Forall₂ Token.Respells respelled [name, sign, text] := by
  intro name sign text row
  have htokens : tokenize 0 true "a/'//'" =
      .ok [name, sign, text, Token.ending ⟨0, 6, 6, 1, 7, 1, 7⟩] := by
    decide +kernel
  have hcomment : Ignorable true (spacedOut [(text, "\n# end")])
      ('/' :: '*' :: " x ".toList ++ '*' :: '/' :: []) := .block (by decide) .nil
  have hlast : Ignorable true [] (['#'] ++ " end".toList ++ []) :=
    .line (by decide) (by decide) (by rintro c ⟨⟩) .nil
  have hspace : Separates true (spacedOut [(sign, "\t/* x */"), (text, "\n# end")]) " ".toList :=
    ⟨⟨' ', rfl, rfl⟩, .blank rfl .nil⟩
  have hblock : Separates true (spacedOut [(text, "\n# end")]) "\t/* x */".toList :=
    ⟨⟨'\t', rfl, rfl⟩, .blank rfl hcomment⟩
  have hline : Separates true (spacedOut []) "\n# end".toList :=
    ⟨⟨'\n', rfl, rfl⟩, .blank rfl hlast⟩
  have hspaced : Spaced true row := ⟨hspace, hblock, hline, trivial⟩
  have hspelled : spacedOut row = "a /\t/* x */'//'\n# end".toList := by decide +kernel
  refine ⟨htokens, hspelled, hspaced, ?_⟩
  have hagain := tokenize_spacedOut htokens rfl hspaced 1
  rw [hspelled, String.ofList_toList] at hagain
  exact hagain

end TodLang
