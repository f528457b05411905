import TodLang.Proofs.Binding.FaultPlaces
import TodLang.Proofs.Diagnostic.Rows
import TodLang.Proofs.Grammar.Kept
import TodLang.Proofs.Session.Run
/-!
Which reports show their source. Every fault of a source, of whatever kind, begins in front of a
character of it or where it ends. The report shows the line that the place is on, with carets below
it. Only where a source ends with a line feed, the place behind it is on no line that the source
has, and the report of a fault at the end is a bare header (`Session.compile_shows`).
-/

namespace TodLang

namespace Diagnostic

/-- The report shows the line of the source that the fault begins on, and carets from the place on
where it begins. -/
def ShowsSource (d : Diagnostic) (sources : Sources) (text : String) (color : Bool) : Prop :=
  ∃ (l : Line) (before : List Char) (count : Nat),
    l.text = text.toList ∧ l.number = d.span.startLine ∧
    before <+: l.shown ++ l.returns ∧ String.utf8Len (l.above ++ before) = d.span.start ∧
    0 < count ∧
    d.render sources color =
      d.paintedHeader sources color ++ "\n" ++ String.ofList (gutter l.number ++ l.shown) ++ "\n" ++
        String.ofList (margin l.number before.length) ++
          Ink.red.paint color (String.ofList (List.replicate count '^'))

/-- The fault begins where a source ends, and the last line of the source has ended before. -/
def IsPastLines (d : Diagnostic) (text : String) : Prop :=
  EndsLine text.toList ∧ d.span.start = text.utf8ByteSize

section

variable {d : Diagnostic} {sources : Sources} {name text : String} {file : Nat} {color : Bool}

/-- A fault that begins on a line of its source is shown with the line. -/
theorem showsSource_of_beginsBehind {above left rest : List Char}
    (hfile : sources.file? file = some ⟨name, text⟩) (habove : EndsLine above)
    (hleft : '\n' ∉ left) (htext : text.toList = above ++ left ++ rest) (hne : left ++ rest ≠ [])
    (hspan : d.span.BeginsBehind file (above ++ left)) : d.ShowsSource sources text color := by
  obtain ⟨l, hl, rfl, hbefore⟩ := Line.exists_around habove hleft hne
  have hl : l.text = text.toList := hl.trans htext.symm
  obtain ⟨hfileEq, hplace⟩ := hspan
  rw [Position.start_advance_above habove hleft] at hplace
  obtain ⟨hstart, hline, hcolumn⟩ := Position.mk.inj hplace
  have hrender := render_of_line l (by rw [hfileEq]; exact hfile) hl hline.symm color
  rw [hcolumn, Nat.add_sub_cancel_left] at hrender
  exact ⟨l, left, caretCount d.span, hl, hline.symm, hbefore, hstart.symm, caretCount_pos d.span,
    hrender⟩

/-- A fault in front of a character is shown with the line of the character. -/
theorem showsSource_of_beginsIn (hfile : sources.file? file = some ⟨name, text⟩)
    (hspan : d.span.BeginsIn file text) : d.ShowsSource sources text color := by
  obtain ⟨front, c, back, htext, hspan⟩ := hspan
  obtain ⟨above, left, rfl, habove, hleft⟩ := exists_lastLine front
  exact showsSource_of_beginsBehind hfile habove hleft htext (by simp) hspan

/-- A fault at the end of a source is shown with the last line, if that is not over. -/
theorem showsSource_of_end (hfile : sources.file? file = some ⟨name, text⟩)
    (hspan : d.span.BeginsBehind file text.toList) (hends : ¬ EndsLine text.toList) :
    d.ShowsSource sources text color := by
  obtain ⟨above, left, htext, habove, hleft⟩ := exists_lastLine text.toList
  rw [htext] at hspan hends
  have hne : left ≠ [] := by
    rintro rfl
    exact hends (by rwa [List.append_nil])
  have htext : text.toList = above ++ left ++ [] := by rwa [List.append_nil]
  exact showsSource_of_beginsBehind hfile habove hleft htext (by rwa [List.append_nil]) hspan

/-- Past all lines there is none to be shown. -/
theorem render_of_pastLines (hfile : sources.file? file = some ⟨name, text⟩)
    (hspan : d.span.BeginsBehind file text.toList) (hends : EndsLine text.toList) :
    d.render sources color = d.paintedHeader sources color := by
  obtain ⟨hfileEq, hplace⟩ := hspan
  have hadvance := Position.start_advance_above hends (show '\n' ∉ [] from List.not_mem_nil)
  rw [List.append_nil] at hadvance
  rw [hadvance] at hplace
  have hline : d.span.startLine = 1 + text.toList.count '\n' := (Position.mk.inj hplace).2.1
  have hnone : sources.line? d.span.file d.span.startLine = none := by
    rw [Sources.line?, hfileEq, hfile, Option.bind_some, hline]
    exact SourceFile.line?_end ⟨name, text⟩ hends
  rw [render, hnone]

/-- A report shows its source exactly if it is more than a header. -/
theorem ShowsSource.render_ne (h : d.ShowsSource sources text color) :
    d.render sources color ≠ d.paintedHeader sources color := by
  obtain ⟨l, before, count, -, -, -, -, -, hrender⟩ := h
  intro heq
  have hlength := congrArg String.length (hrender.symm.trans heq)
  simp only [String.length_append] at hlength
  have hfeed : "\n".length = 1 := rfl
  omega

theorem start_lt_of_beginsIn {s : Span} (h : s.BeginsIn file text) :
    s.start < text.utf8ByteSize := by
  obtain ⟨front, c, back, htext, hspan⟩ := h
  rw [hspan.start_eq, ← String.utf8Len_toList, htext, String.utf8Len_append, String.utf8Len_cons]
  have := c.utf8Size_pos
  omega

end

end Diagnostic

namespace Session

/-- What a source comes to as it is reported: the fault that keeps it from being read, or the faults
of the program. -/
def reported : Except Diagnostic Compilation → List Diagnostic
  | .error d => [d]
  | .ok c => c.diagnostics

/-- A session has the source that it compiled last under its number. -/
theorem compile_file? (s : Session) (name text : String) :
    (s.compile name text).2.sources.file? s.count = some ⟨name, text⟩ := by
  have hadded : (s.addSource name text).sources.file? s.count = some ⟨name, text⟩ :=
    Array.getElem?_push_size
  rw [compile_eq]
  cases s.read s.count text with
  | error d => exact hadded
  | ok result =>
    obtain ⟨tokens, members⟩ := result
    show (Session.registerSource _ _ _ _).sources.file? s.count = _
    rw [registerSource_sources]
    exact hadded

theorem begins_of_read_error {s : Session} {file : Nat} {text : String} {d : Diagnostic}
    (h : s.read file text = .error d) :
    d.span.BeginsIn file text ∨ d.span.BeginsBehind file text.toList := by
  unfold read at h
  split at h
  · next e htokens =>
    cases h
    exact .inl (beginsIn_of_tokenize_error htokens)
  · next tokens htokens =>
    split at h
    · next e hparse =>
      cases h
      exact begins_of_parseProgram_error htokens hparse
    · cases h

theorem begins_of_read_ok {s : Session} {file : Nat} {text : String} {tokens : List Token}
    {members : List Member} (h : s.read file text = .ok (tokens, members))
    (known : List PackageSymbol) (last : Nat) {e : SemanticError}
    (he : e ∈ (bindProgram known last members).errors) : e.span.BeginsIn file text := by
  unfold read at h
  split at h
  · cases h
  · next others htokens =>
    split at h
    · cases h
    · next program hparse =>
      cases h
      have hne : members ≠ [] := by
        rintro rfl
        cases he
      obtain ⟨g, hg, hkeeps⟩ := exists_relocation_of_parseProgram htokens hparse hne
      rw [← hkeeps] at he
      exact bindProgram_faultsIn hg known last members he

/-- Every fault of a source begins in front of a character of it or where it ends. -/
theorem begins_of_mem_reported {s : Session} {name text : String} {d : Diagnostic}
    (hd : d ∈ reported (s.compile name text).1) :
    d.span.BeginsIn s.count text ∨ d.span.BeginsBehind s.count text.toList := by
  cases hread : s.read s.count text with
  | error e =>
    rw [compile_of_error hread] at hd
    rw [List.mem_singleton.1 hd]
    exact begins_of_read_error hread
  | ok result =>
    obtain ⟨tokens, members⟩ := result
    rw [compile_of_ok hread] at hd
    obtain ⟨e, he, rfl⟩ := List.mem_map.1 hd
    exact .inl (begins_of_read_ok hread s.packages s.last he)

/-- The report of every fault of a source shows the line that the fault begins on, unless the fault
is at the end of the source and the last line has ended before; then it shows nothing of it. -/
theorem compile_shows (s : Session) (name text : String) (color : Bool) {d : Diagnostic}
    (hd : d ∈ reported (s.compile name text).1) :
    (d.ShowsSource (s.compile name text).2.sources text color ↔ ¬ d.IsPastLines text) ∧
      (d.IsPastLines text → d.render (s.compile name text).2.sources color =
        d.paintedHeader (s.compile name text).2.sources color) := by
  have hfile := s.compile_file? name text
  rcases begins_of_mem_reported hd with hspan | hspan
  · have hlt := Diagnostic.start_lt_of_beginsIn hspan
    have hnot : ¬ d.IsPastLines text := fun h => Nat.ne_of_lt hlt h.2
    exact ⟨iff_of_true (Diagnostic.showsSource_of_beginsIn hfile hspan) hnot,
      fun h => absurd h hnot⟩
  · have hstart : d.span.start = text.utf8ByteSize := by
      rw [hspan.start_eq, String.utf8Len_toList]
    by_cases hends : EndsLine text.toList
    · have hbare : d.render (s.compile name text).2.sources color =
          d.paintedHeader (s.compile name text).2.sources color :=
        Diagnostic.render_of_pastLines hfile hspan hends
      exact ⟨iff_of_false (fun h => h.render_ne hbare) (not_not_intro ⟨hends, hstart⟩),
        fun _ => hbare⟩
    · have hnot : ¬ d.IsPastLines text := fun h => hends h.1
      exact ⟨iff_of_true (Diagnostic.showsSource_of_end hfile hspan hends) hnot,
        fun h => absurd h hnot⟩

/-- A source that breaks off in the middle of its line. -/
theorem compile_shows_unfinished :
    let step := ({} : Session).compile "a.tod" "fn f("
    let d := Diagnostic.ofSyntaxError ⟨Token.ending ⟨0, 5, 5, 1, 6, 1, 6⟩, .token .identifier⟩
    d ∈ reported step.1 ∧ ¬ d.IsPastLines "fn f(" ∧
      d.render step.2.sources false =
        "parser[UnexpectedToken] a.tod:1:6: unexpected end of file, expected 'IDENT'\n" ++
          "  1 | fn f(\n    |      ^" ∧
      (d.ShowsSource step.2.sources "fn f(" false ↔ ¬ d.IsPastLines "fn f(") ∧
      (d.IsPastLines "fn f(" →
        d.render step.2.sources false = d.paintedHeader step.2.sources false) := by
  intro step d
  have htokens : tokenize 0 true "fn f(" =
      .ok [⟨.keyword .fnWord, "fn", none, ⟨0, 0, 2, 1, 1, 1, 3⟩, true⟩,
        ⟨.identifier, "f", none, ⟨0, 3, 4, 1, 4, 1, 5⟩, false⟩,
        ⟨.sign .lparen, "(", none, ⟨0, 4, 5, 1, 5, 1, 6⟩, true⟩,
        Token.ending ⟨0, 5, 5, 1, 6, 1, 6⟩] := by
    decide +kernel
  have hparse : parseProgram
      [⟨.keyword .fnWord, "fn", none, ⟨0, 0, 2, 1, 1, 1, 3⟩, true⟩,
        ⟨.identifier, "f", none, ⟨0, 3, 4, 1, 4, 1, 5⟩, false⟩,
        ⟨.sign .lparen, "(", none, ⟨0, 4, 5, 1, 5, 1, 6⟩, true⟩,
        Token.ending ⟨0, 5, 5, 1, 6, 1, 6⟩] =
      .error ⟨Token.ending ⟨0, 5, 5, 1, 6, 1, 6⟩, .token .identifier⟩ := by
    cbv
  have hread : ({} : Session).read 0 "fn f(" = .error d := by
    simp only [read, htokens, hparse, d]
  have hstep : step = (.error d, ({} : Session).addSource "a.tod" "fn f(") := compile_of_error hread
  have hd : d ∈ reported step.1 := by
    rw [hstep]
    exact List.mem_singleton_self d
  refine ⟨hd, ?_, ?_, compile_shows {} "a.tod" "fn f(" false hd⟩
  · intro h
    exact absurd (h.1 '(' (by decide)) (by decide)
  · rw [hstep]
    decide +kernel

/-- The same source with its line ended: the fault is found at the same token, and nothing of the
source is shown. -/
theorem exists_not_showsSource :
    let step := ({} : Session).compile "a.tod" "fn f(\n"
    ∃ d ∈ reported step.1,
      d.render step.2.sources false =
        "parser[UnexpectedToken] a.tod:2:1: unexpected end of file, expected 'IDENT'" ∧
      ¬ d.ShowsSource step.2.sources "fn f(\n" false := by
  intro step
  let d := Diagnostic.ofSyntaxError ⟨Token.ending ⟨0, 6, 6, 2, 1, 2, 1⟩, .token .identifier⟩
  have htokens : tokenize 0 true "fn f(\n" =
      .ok [⟨.keyword .fnWord, "fn", none, ⟨0, 0, 2, 1, 1, 1, 3⟩, true⟩,
        ⟨.identifier, "f", none, ⟨0, 3, 4, 1, 4, 1, 5⟩, false⟩,
        ⟨.sign .lparen, "(", none, ⟨0, 4, 5, 1, 5, 1, 6⟩, true⟩,
        Token.ending ⟨0, 6, 6, 2, 1, 2, 1⟩] := by
    decide +kernel
  have hparse : parseProgram
      [⟨.keyword .fnWord, "fn", none, ⟨0, 0, 2, 1, 1, 1, 3⟩, true⟩,
        ⟨.identifier, "f", none, ⟨0, 3, 4, 1, 4, 1, 5⟩, false⟩,
        ⟨.sign .lparen, "(", none, ⟨0, 4, 5, 1, 5, 1, 6⟩, true⟩,
        Token.ending ⟨0, 6, 6, 2, 1, 2, 1⟩] =
      .error ⟨Token.ending ⟨0, 6, 6, 2, 1, 2, 1⟩, .token .identifier⟩ := by
    cbv
  have hread : ({} : Session).read 0 "fn f(\n" = .error d := by
    simp only [read, htokens, hparse, d]
  have hstep : step = (.error d, ({} : Session).addSource "a.tod" "fn f(\n") :=
    compile_of_error hread
  have hbare : d.render (({} : Session).addSource "a.tod" "fn f(\n").sources false =
      d.paintedHeader (({} : Session).addSource "a.tod" "fn f(\n").sources false := by
    decide +kernel
  rw [hstep]
  exact ⟨d, List.mem_singleton_self d, by decide +kernel, fun h => h.render_ne hbare⟩

end Session

end TodLang
