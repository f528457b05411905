import TodLang.Proofs.Diagnostic.Rows
import TodLang.Proofs.Grammar.Legible
import TodLang.Proofs.Token.Beginnings
/-!
What a report points at. A report ends in two rows: a line of the source behind its number, and
carets below it. The main result is that the carets of a report about a token, if the token stands
on one line, are below the characters of the token and below nothing else
(`Diagnostic.render_underlines`). The scanner has counted line feeds and characters to place the
token, and the report finds the line again in the text, without the carriage returns at its end; no
token ends in one of them.
-/

namespace TodLang

/-! ### The last character of a lexeme -/

theorem isBlank_of_mem_takeWhile {p : Char → Bool} (hp : ∀ b, isBlank b = true → p b = false)
    {c : Char} {text : List Char} (h : c ∈ text.takeWhile p) : isBlank c = false := by
  by_contra hblank
  have hpart := List.mem_takeWhile_imp h
  rw [hp c (Bool.of_not_eq_false hblank)] at hpart
  cases hpart

theorem isBlank_of_splitNumber {c : Char} {text : List Char} (h : c ∈ (splitNumber text).1) :
    isBlank c = false := by
  by_cases hbase : (baseMark? text).isSome = true
  · obtain ⟨mark, tail, rfl, hmark⟩ := (baseMark?_isSome_iff text).1 hbase
    rw [splitNumber_of_isSome hbase] at h
    rcases List.mem_append.1 h with h | h
    · rcases List.mem_cons.1 h with rfl | h
      · decide
      · rw [List.mem_singleton.1 h]
        exact isBlank_of_isBaseMark hmark
    · exact isBlank_of_mem_takeWhile (fun _ => isBasedPart_of_isBlank) h
  · rw [splitNumber_of_not_isSome hbase] at h
    exact isBlank_of_mem_takeWhile (fun _ => isDecimalPart_of_isBlank) h

theorem getLast?_of_readText {quote : Char} {text value written rest : List Char}
    (h : readText quote text = .closed value written rest) : written.getLast? = some quote := by
  have hreached : TextEnd.Reached quote text (readText quote text) := readText_reached text
  rw [h] at hreached
  cases hreached
  exact List.getLast?_concat ..

/-- No lexeme ends in white space, although a text literal may contain it. -/
theorem isBlank_of_getLast? {hash : Bool} {c last : Char} {rest text after : List Char}
    {kind : TokenKind} {value : Option Value}
    (h : readPiece hash c rest = .ok (.lexeme kind value text, after))
    (hlast : last ∈ text.getLast?) : isBlank last = false := by
  unfold readPiece at h
  split at h
  · cases h
  · next hc =>
    have hc : isBlank c = false := by simpa using hc
    split at h
    · next hcomment =>
      subst h
      obtain ⟨⟨body, hbody⟩, -⟩ := skips_comment hcomment
      cases hbody
    · split at h
      · unfold readTextLexeme at h
        split at h
        · next written _ hread =>
          cases h
          have hquote := getLast?_of_readText hread
          have hne : written ≠ [] := by
            rintro rfl
            cases hquote
          rw [List.getLast?_cons_of_ne_nil hne, hquote] at hlast
          cases hlast
          exact hc
        · cases h
        · cases h
      · split at h
        · unfold readNumber at h
          dsimp only at h
          split at h
          · cases h
            exact isBlank_of_splitNumber (List.mem_of_getLast? hlast)
          · cases h
        · split at h
          · have htext : text = c :: rest.takeWhile isNamePart := by
              have hword := wordLexeme_text (c :: rest.takeWhile isNamePart)
              simp only [Except.ok.injEq, Prod.mk.injEq] at h
              rwa [h.1] at hword
            rw [htext] at hlast
            rcases List.mem_cons.1 (List.mem_of_getLast? hlast) with rfl | hmem
            · exact hc
            · exact isBlank_of_mem_takeWhile (fun _ => isNamePart_of_isBlank) hmem
          · split at h
            · next sign _ =>
              cases h
              exact sign.isBlank_spelling last (List.mem_of_getLast? hlast)
            · cases h
              cases hlast
              exact hc

/-! ### Carets below a row -/

/-- A row is a caret row for a piece of the row above: behind as much as stands in front of the
piece it has a caret for each character of the piece, and no other carets. -/
def Underlines (carets front piece : List Char) : Prop :=
  ∃ blank, carets = blank ++ List.replicate piece.length '^' ∧ blank.length = front.length ∧
    '^' ∉ blank

/-- The characters of a row that stand above the carets of another one. -/
def aboveCarets (row carets : List Char) : List Char :=
  ((row.zip carets).filter fun p => p.2 == '^').map Prod.fst

theorem Underlines.aboveCarets_eq {carets front piece : List Char}
    (h : Underlines carets front piece) (behind : List Char) :
    aboveCarets (front ++ piece ++ behind) carets = piece := by
  obtain ⟨blank, rfl, hlength, hblank⟩ := h
  have hfront : (front.zip blank).filter (fun p => p.2 == '^') = [] := by
    rw [List.filter_eq_nil_iff]
    intro p hp heq
    exact hblank (beq_iff_eq.1 heq ▸ (List.of_mem_zip hp).2)
  have hpiece : (piece.zip (List.replicate piece.length '^')).filter (fun p => p.2 == '^') =
      piece.zip (List.replicate piece.length '^') := by
    rw [List.filter_eq_self]
    intro p hp
    exact beq_iff_eq.2 (List.eq_of_mem_replicate (List.of_mem_zip hp).2)
  have hsplit : (front ++ piece ++ behind).zip (blank ++ List.replicate piece.length '^') =
      front.zip blank ++ piece.zip (List.replicate piece.length '^') := by
    rw [List.append_assoc, List.zip_append hlength.symm,
      ← List.append_nil (List.replicate piece.length '^'),
      List.zip_append List.length_replicate.symm, List.zip_nil_right, List.append_nil,
      List.append_nil]
  rw [aboveCarets, hsplit, List.filter_append, hfront, hpiece, List.nil_append]
  exact List.map_fst_zip (by simp)

theorem underlines_margin (number : Nat) (before piece : List Char) :
    Underlines (margin number before.length ++ List.replicate piece.length '^')
      (gutter number ++ before) piece := by
  refine ⟨_, rfl, length_margin number before, ?_⟩
  intro hmem
  rcases mem_margin hmem with heq | heq <;> cases heq

/-! ### Tokens on one line -/

/-- A piece of a text that has no line feed and does not end in a carriage return stands on a line
of the text. -/
theorem Line.exists_of_piece (front : List Char) {piece : List Char} (rest : List Char)
    (hne : piece ≠ []) (hfeed : '\n' ∉ piece) (hreturn : ∀ c ∈ piece.getLast?, c ≠ '\r') :
    ∃ (l : Line) (before behind : List Char), l.text = front ++ piece ++ rest ∧
      l.shown = before ++ piece ++ behind ∧ front = l.above ++ before := by
  obtain ⟨above, before, rfl, habove, hbefore⟩ := exists_lastLine front
  obtain ⟨right, below, rfl, hright, hbelow⟩ := exists_firstLine rest
  obtain ⟨behind, returns, rfl, hbehind, hreturns⟩ := exists_returns right
  have hshown : '\n' ∉ before ++ piece ++ behind := by
    simp only [List.mem_append, not_or] at hright ⊢
    exact ⟨⟨hbefore, hfeed⟩, hright.1⟩
  have hends : ∀ c ∈ (before ++ piece ++ behind).getLast?, c ≠ '\r' := by
    intro c hc
    rcases List.eq_nil_or_concat' behind with rfl | ⟨_, _, rfl⟩
    · rw [List.append_nil, List.getLast?_append_of_ne_nil _ hne] at hc
      exact hreturn c hc
    · rw [List.getLast?_append_of_ne_nil _ (by simp)] at hc
      exact hbehind c hc
  refine ⟨⟨above, before ++ piece ++ behind, returns, below, habove, hshown, hends, hreturns,
    hbelow, by simp [hne]⟩, before, behind, ?_, rfl, rfl⟩
  simp only [Line.text, List.append_assoc]

/-- The place of a piece that stands on one line. -/
theorem between_on_line (file : Nat) {above before piece : List Char} (habove : EndsLine above)
    (hbefore : '\n' ∉ before) (hpiece : '\n' ∉ piece) :
    Span.between file (Position.start.advance (above ++ before))
        (Position.start.advance (above ++ before ++ piece)) =
      { file
        start := String.utf8Len (above ++ before)
        stop := String.utf8Len (above ++ before ++ piece)
        startLine := 1 + above.count '\n'
        startColumn := 1 + before.length
        stopLine := 1 + above.count '\n'
        stopColumn := 1 + (before.length + piece.length) } := by
  have hboth : '\n' ∉ before ++ piece := by simp [hbefore, hpiece]
  rw [List.append_assoc, Position.start_advance_above habove hbefore,
    Position.start_advance_above habove hboth, List.length_append]
  simp [Span.between, Span.make]

/-- A token that starts and stops on the same line has no line feed. -/
theorem feed_notMem_of_one_line {file : Nat} {front piece : List Char} {s : Span}
    (hspan : s = Span.between file (Position.start.advance front)
      (Position.start.advance (front ++ piece))) (hline : s.startLine = s.stopLine) :
    '\n' ∉ piece := by
  subst hspan
  simp only [Span.between, Span.make, Position.start_advance, List.count_append] at hline
  exact List.count_eq_zero.1 (by omega)

/-- There is a caret for each character of a piece on one line. -/
theorem caretCount_on_line {s : Span} {front piece : List Char} (hne : piece ≠ [])
    (hstart : s.start = String.utf8Len front) (hstop : s.stop = String.utf8Len (front ++ piece))
    (hline : s.startLine = s.stopLine) (hcolumn : s.stopColumn = s.startColumn + piece.length) :
    Diagnostic.caretCount s = piece.length := by
  have hbytes : 0 < String.utf8Len piece :=
    Nat.pos_iff_ne_zero.2 fun hzero => hne (String.utf8Len_eq_zero.1 hzero)
  have hlength : 0 < piece.length := List.length_pos_iff.2 hne
  have hempty : s.isEmpty = false := by
    simp [Span.isEmpty, hstart, hstop]
    omega
  simp [Diagnostic.caretCount, hempty, hline, hcolumn]
  omega

/-- A token that starts and stops on the same line is part of that line, and its region says
where. -/
theorem Line.exists_of_token {file : Nat} {hash : Bool} {source : String} {tokens : List Token}
    {t : Token} (htokens : tokenize file hash source = .ok tokens) (ht : t ∈ tokens)
    (hkind : t.isEnding = false) (hline : t.span.startLine = t.span.stopLine) :
    ∃ (l : Line) (before behind : List Char), l.text = source.toList ∧
      l.shown = before ++ t.literal.toList ++ behind ∧ t.literal.toList ≠ [] ∧
      t.span =
        { file
          start := String.utf8Len (l.above ++ before)
          stop := String.utf8Len (l.above ++ before ++ t.literal.toList)
          startLine := l.number
          startColumn := 1 + before.length
          stopLine := l.number
          stopColumn := 1 + (before.length + t.literal.toList.length) } := by
  obtain ⟨front, rest, htext, hne, hplace⟩ := (laid_tokenize htokens).exists_split ht hkind
  obtain ⟨c, tail, hliteral, hread⟩ :=
    (legible_readPieces htokens t ht hkind : t.Legible hash).exists_readPiece
  have hfeed := feed_notMem_of_one_line hplace hline
  have hreturn : ∀ last ∈ t.literal.toList.getLast?, last ≠ '\r' := by
    rintro last hlast rfl
    rw [hliteral] at hlast
    cases isBlank_of_getLast? hread hlast
  obtain ⟨l, before, behind, hl, hshown, hfront⟩ :=
    Line.exists_of_piece front rest hne hfeed hreturn
  have hbefore : '\n' ∉ before := fun hmem =>
    l.shown_feed (by rw [hshown]; simp [hmem])
  rw [hfront, between_on_line file l.above_ends hbefore hfeed] at hplace
  exact ⟨l, before, behind, hl.trans htext.symm, hshown, hne, hplace⟩

/-- A report about a token that stands on one line, without colours, ends in the line of the source
that the token is part of, and in carets below the characters of the token and below nothing
else. -/
theorem Diagnostic.render_underlines {sources : Sources} {file : Nat} {f : SourceFile}
    {hash : Bool} {tokens : List Token} {t : Token} {d : Diagnostic}
    (hfile : sources.file? file = some f) (htokens : tokenize file hash f.text = .ok tokens)
    (ht : t ∈ tokens) (hkind : t.isEnding = false) (hline : t.span.startLine = t.span.stopLine)
    (hspan : d.span = t.span) :
    ∃ (l : Line) (before behind carets : List Char),
      l.text = f.text.toList ∧ l.number = t.span.startLine ∧
      l.shown = before ++ t.literal.toList ++ behind ∧
      String.utf8Len (l.above ++ before) = t.span.start ∧
      d.render sources false = d.header sources ++ "\n" ++
        String.ofList (gutter l.number ++ l.shown) ++ "\n" ++ String.ofList carets ∧
      '\n' ∉ gutter l.number ++ l.shown ∧ '\n' ∉ carets ∧
      Underlines carets (gutter l.number ++ before) t.literal.toList ∧
      aboveCarets (gutter l.number ++ l.shown) carets = t.literal.toList := by
  obtain ⟨l, before, behind, hl, hshown, hne, hplace⟩ :=
    Line.exists_of_token htokens ht hkind hline
  rw [hplace] at hspan
  have hcount : caretCount d.span = t.literal.toList.length :=
    caretCount_on_line hne (by rw [hspan]) (by rw [hspan]) (by rw [hspan])
      (by rw [hspan, Nat.add_assoc])
  have hrows := render_of_line l (by rw [hspan]; exact hfile) hl (by rw [hspan]) false
  have hunder := underlines_margin l.number before t.literal.toList
  refine ⟨l, before, behind, _, hl, by rw [hplace], hshown, by rw [hplace], ?_, ?_, ?_, hunder, ?_⟩
  · rw [hrows, hcount, hspan, Nat.add_sub_cancel_left, paintedHeader_false, Ink.paint_false]
    simp only [String.ofList_append, String.append_assoc]
  · exact fun hmem => (List.mem_append.1 hmem).elim (feed_notMem_gutter l.number) l.shown_feed
  · intro hmem
    rcases List.mem_append.1 hmem with hmem | hmem
    · rcases mem_margin hmem with heq | heq <;> cases heq
    · cases List.eq_of_mem_replicate hmem
  · rw [hshown, ← List.append_assoc, ← List.append_assoc]
    exact hunder.aboveCarets_eq behind

/-- The name `ß` on a second line, with a carriage return in front of it and two behind the line:
the report has a caret below the name only. -/
theorem Diagnostic.render_underlines_returns :
    let source := "x\n\r ß = 1\r\r\n"
    let sources : Sources := ({} : Sources).add "a.tod" source |>.2
    let t : Token := ⟨.identifier, "ß", none, ⟨0, 4, 6, 2, 3, 2, 4⟩, true⟩
    let d : Diagnostic := ⟨.semantic, .undefinedName, t.span, "undefined name 'ß'"⟩
    (tokenize 0 true source).isOk = true ∧
    d.render sources false =
      "semantic[UndefinedName] a.tod:2:3: undefined name 'ß'\n  2 | \r ß = 1\n    |   ^" ∧
    ∃ (l : Line) (before behind carets : List Char),
      l.text = source.toList ∧ l.number = t.span.startLine ∧
      l.shown = before ++ t.literal.toList ++ behind ∧
      String.utf8Len (l.above ++ before) = t.span.start ∧
      d.render sources false = d.header sources ++ "\n" ++
        String.ofList (gutter l.number ++ l.shown) ++ "\n" ++ String.ofList carets ∧
      '\n' ∉ gutter l.number ++ l.shown ∧ '\n' ∉ carets ∧
      Underlines carets (gutter l.number ++ before) t.literal.toList ∧
      aboveCarets (gutter l.number ++ l.shown) carets = t.literal.toList := by
  have htokens : tokenize 0 true "x\n\r ß = 1\r\r\n" =
      .ok [⟨.identifier, "x", none, ⟨0, 0, 1, 1, 1, 1, 2⟩, true⟩,
        ⟨.identifier, "ß", none, ⟨0, 4, 6, 2, 3, 2, 4⟩, true⟩,
        ⟨.sign .assign, "=", none, ⟨0, 7, 8, 2, 5, 2, 6⟩, true⟩,
        ⟨.integer, "1", some (.integer 1), ⟨0, 9, 10, 2, 7, 2, 8⟩, true⟩,
        Token.ending ⟨0, 13, 13, 3, 1, 3, 1⟩] := by
    decide +kernel
  have hfile : (({} : Sources).add "a.tod" "x\n\r ß = 1\r\r\n").2.file? 0 =
      some ⟨"a.tod", "x\n\r ß = 1\r\r\n"⟩ :=
    rfl
  refine ⟨by decide +kernel, by decide +kernel, ?_⟩
  exact Diagnostic.render_underlines hfile htokens (by decide +kernel) (by decide +kernel)
    (by decide +kernel) (by decide +kernel)

end TodLang
