import TodLang.Grammar.Member
import TodLang.Tree.Written
import TodLang.Proofs.Grammar.Layout
import TodLang.Proofs.Token.Respelling
/-!
Rows of tokens whose spelling is read as them. A token is legible if its characters, in front of
white space or of the end, are read as it; every token of a source is. A readable row is made of
legible tokens with white space behind them, and of steps, whose first sign has none. The main
result is that the spelling of a readable row is read as a row that is alike.
-/

namespace TodLang

/-- The piece at the head of a text, if the text has a first character. -/
def readFirst? (hash : Bool) : List Char → Option (Except BrokenPiece (Piece × List Char))
  | [] => none
  | c :: rest => some (readPiece hash c rest)

/-- The characters of the token, with nothing behind them, are read as the token. -/
def Token.Legible (hash : Bool) (t : Token) : Prop :=
  readFirst? hash t.literal.toList = some (.ok (.lexeme t.kind t.value t.literal.toList, []))

instance (hash : Bool) (t : Token) : Decidable (t.Legible hash) :=
  inferInstanceAs (Decidable (_ = _))

/-- Nothing, or what begins with a blank. -/
def StartsBlank (text : List Char) : Prop :=
  text.head?.all isBlank = true

theorem StartsBlank.fades {text : List Char} (h : StartsBlank text) (n : Nat) (x : List Char) :
    Fades n x text := by
  cases text with
  | nil => exact .ending
  | cons c text => exact .blank h

/-- Only words are names. -/
theorem wordLexeme_of_readPiece {hash : Bool} {c : Char} {rest after text : List Char}
    {value : Option Value}
    (h : readPiece hash c rest = .ok (.lexeme .identifier value text, after)) :
    isNameStart c = true ∧
      wordLexeme (c :: rest.takeWhile isNamePart) = .lexeme .identifier value text := by
  unfold readPiece at h
  split at h
  · cases h
  · split at h
    · next hcomment =>
      subst h
      obtain ⟨⟨body, hbody⟩, -⟩ := skips_comment hcomment
      cases hbody
    · split at h
      · unfold readTextLexeme at h
        split at h <;> cases h
      · split at h
        · unfold readNumber at h
          dsimp only at h
          split at h
          · simp only [Except.ok.injEq, Prod.mk.injEq, Piece.lexeme.injEq] at h
            cases hform : numberForm (splitNumber (c :: rest)).1 <;>
              simp [hform, NumberForm.kind] at h
          · cases h
        · split at h
          · next hstart =>
            simp only [Except.ok.injEq, Prod.mk.injEq] at h
            exact ⟨hstart, h.1⟩
          · split at h <;> cases h

/-- A word that is not reserved is a name, and a name carries no value. -/
theorem wordLexeme_eq_identifier_iff {word text : List Char} {value : Option Value} :
    wordLexeme word = .lexeme .identifier value text ↔
      Keyword.ofText? (String.ofList word) = none ∧ value = none ∧ text = word := by
  unfold wordLexeme
  cases Keyword.ofText? (String.ofList word) with
  | none => simp [eq_comm]
  | some keyword => simp

namespace Token

variable {hash : Bool} {t u : Token}

theorem Legible.congr (ht : t.Legible hash) (hkind : u.kind = t.kind)
    (hliteral : u.literal = t.literal) (hvalue : u.value = t.value) : u.Legible hash := by
  rw [Legible, hkind, hliteral, hvalue]
  exact ht

theorem Legible.exists_readPiece (ht : t.Legible hash) :
    ∃ c tail, t.literal.toList = c :: tail ∧
      readPiece hash c tail = .ok (.lexeme t.kind t.value (c :: tail), []) := by
  unfold Legible at ht
  cases htext : t.literal.toList with
  | nil =>
    rw [htext] at ht
    cases ht
  | cons c tail =>
    rw [htext] at ht
    exact ⟨c, tail, rfl, Option.some.inj ht⟩

/-- A legible token in front of white space or of the end is read as it. -/
theorem Legible.read (ht : t.Legible hash) {behind : List Char} (hbehind : StartsBlank behind) :
    ∃ c tail, t.literal.toList = c :: tail ∧
      readPiece hash c (tail ++ behind) =
        .ok (.lexeme t.kind t.value (c :: tail), behind) := by
  obtain ⟨c, tail, htext, hpiece⟩ := ht.exists_readPiece
  obtain ⟨front, hfront, -, hread⟩ := readPiece_lexeme_of_fades hpiece (hbehind.fades 2 [])
  obtain ⟨-, rfl⟩ := List.cons.inj hfront
  exact ⟨c, tail, htext, hread⟩

theorem Legible.value_eq_none (ht : t.Legible hash) (hkind : t.kind = .identifier) :
    t.value = none := by
  obtain ⟨c, tail, -, hpiece⟩ := ht.exists_readPiece
  rw [hkind] at hpiece
  obtain ⟨-, hword⟩ := wordLexeme_of_readPiece hpiece
  exact (wordLexeme_eq_identifier_iff.1 hword).2.1

/-- What is written for a name that was read is legible. -/
theorem Legible.ident_written (ht : t.Legible hash) (hkind : t.kind = .identifier) :
    t.ident.written.Legible hash :=
  ht.congr hkind.symm rfl (ht.value_eq_none hkind).symm

theorem Legible.bare (ht : t.Legible hash) : t.bare.Legible hash :=
  ht.congr rfl rfl rfl

end Token

/-- The lexemes of a text are legible, however much is left out behind them. -/
theorem legible_readPieces {file : Nat} {hash : Bool} {place : Position} {text : List Char}
    {tokens : List Token} (h : (readPieces hash text).tokens file place = .ok tokens) :
    ∀ t ∈ tokens, t.isEnding = false → t.Legible hash := by
  fun_induction readPieces hash text generalizing place tokens with
  | case1 =>
    cases h
    intro t ht hkind
    rw [List.mem_singleton.1 ht] at hkind
    cases hkind
  | case2 => cases h
  | case3 c rest piece after hpiece _ ih =>
    cases piece with
    | blank text => exact ih h
    | comment text => exact ih h
    | lexeme kind value text =>
      obtain ⟨others, hothers, rfl⟩ := Reading.exists_tokens_behind h
      intro t ht hkind
      rcases List.mem_cons.1 ht with rfl | ht
      · obtain ⟨tail, rfl, -, hread⟩ := readPiece_lexeme_of_fades hpiece (.ending (n := 2))
        rw [List.append_nil] at hread
        simpa [Token.Legible, readFirst?] using hread
      · exact ih hothers t ht hkind

theorem legible_tokenize {file : Nat} {hash : Bool} {source : String} {tokens : List Token}
    (h : tokenize file hash source = .ok tokens) :
    ∀ t ∈ beforeEnding tokens, t.Legible hash := by
  intro t ht
  have hkind := List.mem_takeWhile_imp ht
  exact legible_readPieces h t ((List.takeWhile_sublist _).subset ht) (by simpa using hkind)

/-! ### The fixed tokens -/

/-- The first character of a sign begins nothing but a sign. -/
theorem Sign.exists_spelling (s : Sign) :
    ∃ c tail, s.spelling = c :: tail ∧ isBlank c = false ∧ ¬ (c = '"' ∨ c = '\'') ∧
      c.isDigit = false ∧ isNameStart c = false := by
  cases s <;> exact ⟨_, _, rfl, by decide⟩

theorem Sign.readComment?_spelling (hash : Bool) (s : Sign) :
    readComment? hash s.spelling = none := by
  cases s <;> rfl

theorem longestSign?_spelling (s : Sign) : longestSign? s.spelling = some s := by
  cases hlongest : longestSign? s.spelling with
  | none => exact absurd (List.prefix_rfl) (longestSign?_eq_none hlongest s)
  | some t =>
    obtain ⟨hstarts, hlength⟩ := longestSign?_eq_some hlongest
    have heq := hstarts.eq_of_length_le (hlength s List.prefix_rfl)
    rw [Sign.spelling_injective heq]

theorem Sign.legible_written (hash : Bool) (s : Sign) : s.written.Legible hash := by
  obtain ⟨c, tail, htext, hblank, hquote, hdigit, hname⟩ := s.exists_spelling
  have hcomment := s.readComment?_spelling hash
  have hlongest := longestSign?_spelling s
  rw [htext] at hcomment hlongest
  have hpiece : readPiece hash c tail = .ok (.lexeme (.sign s) none s.spelling, []) := by
    unfold readPiece
    simp [hblank, hcomment, hquote, hdigit, hname, hlongest, htext]
  rw [Token.Legible, show s.written.literal.toList = s.spelling from rfl, htext, readFirst?, hpiece,
    htext]
  rfl

theorem Keyword.legible_written (hash : Bool) (k : Keyword) : k.written.Legible hash := by
  cases k <;> cases hash <;> decide +kernel

theorem legible_mainWritten (hash : Bool) : mainWritten.Legible hash := by
  cases hash <;> decide +kernel

/-! ### Readable rows -/

/-- Legible tokens at no place with white space behind them, and steps. -/
inductive Readable (hash : Bool) : List Token → Prop
  | nil : Readable hash []
  | loose {t : Token} {tokens : List Token} (ht : t.Legible hash) (hbare : t.bare = t)
      (h : Readable hash tokens) : Readable hash (t :: tokens)
  | step {s : Sign} {tokens : List Token} (hs : s.isStep = true) (h : Readable hash tokens) :
      Readable hash (s.writtenTight :: s.written :: tokens)

/-- The spelling of a row behind its first token: nothing, or white space and the rest. -/
theorem exists_spelledOut_cons {t : Token} (hspace : t.spaceAfter = true) (tokens : List Token) :
    ∃ behind, spelledOut (t :: tokens) = t.literal.toList ++ behind ∧ StartsBlank behind ∧
      ∃ gap, (∀ c ∈ gap, c = ' ') ∧ behind = gap ++ spelledOut tokens := by
  cases tokens with
  | nil => exact ⟨[], by simp [spelledOut], by simp [StartsBlank], [], by simp, rfl⟩
  | cons next others =>
    exact ⟨' ' :: spelledOut (next :: others), by simp [spelledOut, hspace], rfl, [' '], by simp,
      rfl⟩

theorem Position.line_advance_spaces {gap : List Char} (h : ∀ c ∈ gap, c = ' ') (p : Position) :
    (p.advance gap).line = p.line := by
  induction gap generalizing p with
  | nil => rfl
  | cons c gap ih =>
    rw [Position.advance_cons, ih (fun d hd => h d (List.mem_cons_of_mem c hd)),
      h c List.mem_cons_self]
    rfl

/-- What a row of tokens at no place becomes where it is written out: the same tokens with the same
white space behind them, the first on a given line and each other where the one before it stops. -/
inductive Printed : Nat → List Token → List Token → Prop
  | nil {line : Nat} : Printed line [] []
  | cons {line : Nat} {t u : Token} {ts us : List Token} (hbare : t.bare = u.bare)
      (hspace : t.spaceAfter = u.spaceAfter) (hspan : t.span = Span.none)
      (hstart : u.span.startLine = line) (h : Printed u.span.stopLine ts us) :
      Printed line (t :: ts) (u :: us)

namespace Printed

variable {line : Nat} {t u : Token} {ts us : List Token}

theorem nextKind_eq (h : Printed line ts us) : nextKind ts = nextKind us := by
  cases h with
  | nil => rfl
  | cons hbare _ _ _ _ => exact congrArg some (Token.kind_eq_of_bare_eq hbare)

theorem opening_eq (hbare : t.bare = u.bare) (h : Printed line ts us) :
    opening (t :: ts) = opening (u :: us) := by
  cases h with
  | nil => rfl
  | cons hnext hspace _ _ h =>
    simp only [opening, Token.kind_eq_of_bare_eq hbare, Token.kind_eq_of_bare_eq hnext, hspace,
      h.nextKind_eq]

theorem atMain_eq (hbare : t.bare = u.bare) (hspan : t.span = Span.none)
    (h : Printed u.span.stopLine ts us) : atMain (t :: ts) = atMain (u :: us) := by
  cases h with
  | nil => rfl
  | cons hnext _ hspan' hstart _ =>
    simp only [atMain, Token.kind_eq_of_bare_eq hbare, Token.literal_eq_of_bare_eq hbare,
      Token.kind_eq_of_bare_eq hnext, hspan, hspan', hstart]
    rfl

/-- Written out on one line, a row looks the same to the readers of the grammar. -/
theorem alike (h : Printed line ts us) : Alike ts us := by
  induction h with
  | nil => exact .nil
  | cons hbare _ hspan _ h ih => exact .cons hbare (opening_eq hbare h) (atMain_eq hbare hspan h) ih

end Printed

/-! ### How a readable row is read -/

/-- The first sign of a step, with the second one right behind it, is no longer sign. -/
theorem readPiece_tight {s : Sign} (hs : s.isStep = true) {behind : List Char}
    (hbehind : StartsBlank behind) (hash : Bool) :
    ∃ c, s.spelling = [c] ∧
      readPiece hash c (c :: behind) = .ok (.lexeme (.sign s) none [c], c :: behind) := by
  have hsign : s = .add ∨ s = .sub := by
    revert hs
    cases s <;> decide
  cases behind with
  | nil => rcases hsign with rfl | rfl <;> exact ⟨_, rfl, rfl⟩
  | cons d behind =>
    have hd := eq_of_isBlank hbehind
    rcases hsign with rfl | rfl <;> refine ⟨_, rfl, ?_⟩ <;>
      rcases hd with rfl | rfl | rfl | rfl | rfl <;> rfl

section

variable {hash : Bool}

/-- A legible token in front of the spelling of others is read as itself, written out, and the
others are read behind it on the line where it stops. -/
theorem tokens_loose {t : Token} (ht : t.Legible hash) (hspace : t.spaceAfter = true)
    (tokens : List Token) (file : Nat) (place : Position) :
    ∃ (u : Token) (after : Position), t.bare = u.bare ∧ u.spaceAfter = true ∧
      u.span.startLine = place.line ∧ u.span.stopLine = after.line ∧
      (readPieces hash (spelledOut (t :: tokens))).tokens file place =
        ((readPieces hash (spelledOut tokens)).tokens file after).map fun others =>
          u :: others := by
  obtain ⟨behind, hspelled, hblank, gap, hgap, rfl⟩ := exists_spelledOut_cons hspace tokens
  obtain ⟨c, tail, htext, hpiece⟩ := ht.read hblank
  have hread :
      (readPieces hash (c :: (tail ++ (gap ++ spelledOut tokens)))).tokens file place = _ :=
    tokens_lexeme hpiece
  have hrun : ∀ d ∈ gap, isBlank d = true := fun d hd => by
    rw [hgap d hd]
    rfl
  rw [tokens_blank hrun] at hread
  rw [hspelled, htext, List.cons_append, hread]
  refine ⟨_, _, ?_, ?_, rfl, ?_, rfl⟩
  · rw [← htext, String.ofList_toList]
    rfl
  · exact (startsBlank_readPieces hash _).trans hblank
  · rw [Position.line_advance_spaces hgap]
    rfl

/-- The spelling of a readable row is read as the row, written out. -/
theorem tokens_spelledOut {tokens : List Token} (h : Readable hash tokens) (file : Nat)
    (place : Position) :
    ∃ again mark, (readPieces hash (spelledOut tokens)).tokens file place =
        .ok (again ++ [Token.ending mark]) ∧ Printed place.line tokens again := by
  induction h generalizing place with
  | nil => exact ⟨[], Span.point file place, by simp [spelledOut, readPieces, Reading.tokens], .nil⟩
  | @loose t tokens ht hbare _ ih =>
    have hspace : t.spaceAfter = true := by rw [← hbare]; rfl
    have hspan : t.span = Span.none := by rw [← hbare]; rfl
    obtain ⟨u, after, hu, hspace', hstart, hstop, hread⟩ :=
      tokens_loose ht hspace tokens file place
    obtain ⟨again, mark, hrest, hprinted⟩ := ih after
    rw [hread, hrest]
    refine ⟨u :: again, mark, rfl, .cons hu (hspace.trans hspace'.symm) hspan hstart ?_⟩
    rw [hstop]
    exact hprinted
  | @step s tokens hs _ ih =>
    obtain ⟨behind, hspelled, hblank, -⟩ := exists_spelledOut_cons (t := s.written) rfl tokens
    obtain ⟨c, htext, hpiece⟩ := readPiece_tight hs hblank hash
    have htext' : s.written.literal.toList = [c] := htext
    rw [htext', List.singleton_append] at hspelled
    have hfirst : (readPieces hash (c :: c :: behind)).tokens file place = _ :=
      tokens_lexeme hpiece
    obtain ⟨u, after, hu, hspace, hstart, hstop, hread⟩ :=
      tokens_loose (s.legible_written hash) rfl tokens file (place.advance [c])
    obtain ⟨again, mark, hrest, hprinted⟩ := ih after
    rw [← hspelled, hread, hrest] at hfirst
    have hboth : spelledOut (s.writtenTight :: s.written :: tokens) =
        c :: spelledOut (s.written :: tokens) := by
      simp [spelledOut, Sign.writtenTight, show s.text.toList = [c] from htext]
    rw [hboth, hfirst]
    refine ⟨_ :: u :: again, mark, rfl, .cons ?_ ?_ rfl rfl (.cons hu hspace.symm rfl hstart ?_)⟩
    · rw [← htext]
      simp [Token.bare, Sign.writtenTight, Sign.spelling]
    · have hc := s.isBlank_spelling c (by rw [htext]; exact List.mem_singleton_self c)
      simp [startsBlank_readPieces, hspelled, hc, Sign.writtenTight]
    · rw [hstop]
      exact hprinted

end

end TodLang
