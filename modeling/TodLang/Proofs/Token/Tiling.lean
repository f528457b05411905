import Mathlib.Data.List.TakeWhile
import TodLang.Proofs.Source.Slice
import TodLang.Token.Scan
/-!
How the tokens of a source lie over it. The main statement is that they tile it: they stand in the
order of their places without overlap, each spells the bytes of its region, and what is left
between them is white space and complete comments.
-/

namespace TodLang

/-- What a comment that ends with its line begins with. -/
def lineOpeners (hashComments : Bool) : List (List Char) :=
  ['/', '/'] :: if hashComments then [['#']] else []

/-- A text, in front of another one, that stands for nothing: white space and complete comments. A
line comment is complete if its line ends behind it, a block comment if it ends with its first
`*/`. -/
inductive Ignorable (hashComments : Bool) (after : List Char) : List Char → Prop
  | nil : Ignorable hashComments after []
  | blank {c : Char} {rest : List Char} (hc : isBlank c = true)
      (hrest : Ignorable hashComments after rest) : Ignorable hashComments after (c :: rest)
  | line {opener body rest : List Char} (hopener : opener ∈ lineOpeners hashComments)
      (hbody : '\n' ∉ body) (hend : ∀ c ∈ (rest ++ after).head?, c = '\n')
      (hrest : Ignorable hashComments after rest) :
      Ignorable hashComments after (opener ++ body ++ rest)
  | block {body rest : List Char} (hbody : ¬ ['*', '/'] <:+: body ++ ['*'])
      (hrest : Ignorable hashComments after rest) :
      Ignorable hashComments after ('/' :: '*' :: body ++ '*' :: '/' :: rest)

/-- Nothing but white space and complete comments stands between two byte offsets. -/
def IgnorableBetween (hashComments : Bool) (source : String) (start stop : Nat) : Prop :=
  Ignorable hashComments (slice source stop source.utf8ByteSize).toList
    (slice source start stop).toList

/-- Nothing else stands between an offset and the first token, between a token and the next one,
and between the last token and the end of the source. -/
def GapsIgnorable (hashComments : Bool) (source : String) : Nat → List Token → Prop
  | offset, [] => IgnorableBetween hashComments source offset source.utf8ByteSize
  | offset, t :: others =>
    IgnorableBetween hashComments source offset t.span.start ∧
      GapsIgnorable hashComments source t.span.stop others

/-- The tokens are those of the source, each at its place and nothing between them left out. -/
structure Tiling (file : Nat) (hashComments : Bool) (source : String) (tokens : List Token) :
    Prop where
  /-- A token with another one behind it has bytes of its own and stops before that one. -/
  ordered : tokens.Pairwise fun first second =>
    first.span.start < first.span.stop ∧ first.span.stop ≤ second.span.start
  literal : ∀ t ∈ tokens, t.isEnding = false → t.literal = slice source t.span.start t.span.stop
  gaps : GapsIgnorable hashComments source 0 tokens
  /-- One end mark, after all other tokens and with no bytes, where the source ends. -/
  ending : ∃ lexemes mark, tokens = lexemes ++ [mark] ∧ (∀ t ∈ lexemes, t.isEnding = false) ∧
    mark.isEnding = true ∧ mark.span.start = source.utf8ByteSize ∧
    mark.span.stop = source.utf8ByteSize
  placed : ∀ t ∈ tokens, t.span.PlacedIn file source
  spaceAfter : ∀ t ∈ tokens, t.isEnding = false →
    t.spaceAfter = (charAt? source t.span.stop).all isBlank

/-! ### What a piece leaves behind it -/

/-- In front of a text that begins with something ignorable, the piece can be ignored as well. -/
def Skips (hashComments : Bool) (piece after : List Char) : Prop :=
  ∀ gap back, after = gap ++ back → Ignorable hashComments back gap →
    Ignorable hashComments back (piece ++ gap)

theorem skips_blank {hash : Bool} {text : List Char} (after : List Char)
    (h : ∀ c ∈ text, isBlank c = true) : Skips hash text after := by
  intro gap back _ hgap
  induction text with
  | nil => exact hgap
  | cons c text ih =>
    have htext : ∀ d ∈ text, isBlank d = true := fun d hd => h d (List.mem_cons_of_mem c hd)
    exact Ignorable.blank (h c List.mem_cons_self) (ih htext)

theorem skips_line {hash : Bool} {opener : List Char} (text : List Char)
    (h : opener ∈ lineOpeners hash) :
    Skips hash (opener ++ text.takeWhile (· ≠ '\n')) (text.dropWhile (· ≠ '\n')) := by
  intro gap back hafter hgap
  refine Ignorable.line h ?_ ?_ hgap
  · intro hmem
    simpa using List.mem_takeWhile_imp hmem
  · intro c hc
    rw [← hafter] at hc
    have hhead := List.head?_dropWhile_not (· ≠ '\n') text
    rw [Option.mem_def.1 hc] at hhead
    simpa using hhead

theorem splitBlockEnd?_first {text body rest : List Char}
    (h : splitBlockEnd? text = some (body, rest)) :
    ∃ inner, body = inner ++ ['*', '/'] ∧ ¬ ['*', '/'] <:+: inner ++ ['*'] := by
  fun_induction splitBlockEnd? text generalizing body with
  | case1 =>
    simp only [Option.some.injEq, Prod.mk.injEq] at h
    obtain ⟨rfl, rfl⟩ := h
    exact ⟨[], rfl, by decide⟩
  | case2 c tail hstart ih =>
    obtain ⟨parts, hparts, heq⟩ := Option.map_eq_some_iff.1 h
    obtain ⟨rfl, rfl⟩ := Prod.mk.inj heq
    obtain ⟨inner, hinner, hfirst⟩ := ih hparts
    refine ⟨c :: inner, by rw [hinner]; rfl, ?_⟩
    intro hinfix
    rcases List.infix_cons_iff.1 hinfix with hprefix | htail
    · -- an end at the first character is one that the first equation takes
      obtain ⟨hc, hslash⟩ := List.cons_prefix_cons.1 hprefix
      have htail := (splitBlockEnd?_append hparts).1
      rw [hinner] at htail
      cases inner with
      | nil => simp at hslash
      | cons d inner =>
        have hd : '/' = d := (List.cons_prefix_cons.1 hslash).1
        exact hstart _ hc.symm (by rw [← htail, ← hd]; rfl)
    · exact hfirst htail
  | case3 => simp at h

theorem skips_comment {hash : Bool} {text after : List Char} {piece : Piece}
    (h : readComment? hash text = some (.ok (piece, after))) :
    (∃ body, piece = .comment body) ∧ Skips hash piece.text after := by
  unfold readComment? at h
  split at h
  · next rest =>
    simp only [Option.some.injEq, Except.ok.injEq, Prod.mk.injEq] at h
    obtain ⟨rfl, rfl⟩ := h
    exact ⟨⟨_, rfl⟩, skips_line rest List.mem_cons_self⟩
  · next rest =>
    split at h
    · next body tail hbody =>
      simp only [Option.some.injEq, Except.ok.injEq, Prod.mk.injEq] at h
      obtain ⟨rfl, rfl⟩ := h
      obtain ⟨inner, rfl, hfirst⟩ := splitBlockEnd?_first hbody
      refine ⟨⟨_, rfl⟩, ?_⟩
      intro gap back _ hgap
      simpa [Piece.text] using Ignorable.block hfirst hgap
    · simp at h
  · next rest =>
    split at h
    · next hhash =>
      simp only [Option.some.injEq, Except.ok.injEq, Prod.mk.injEq] at h
      obtain ⟨rfl, rfl⟩ := h
      have hopener : ['#'] ∈ lineOpeners hash := by simp [lineOpeners, hhash]
      exact ⟨⟨_, rfl⟩, skips_line rest hopener⟩
    · simp at h
  · simp at h

theorem wordLexeme_kind (word : List Char) :
    ∃ kind value, wordLexeme word = .lexeme kind value word ∧ kind ≠ .ending := by
  unfold wordLexeme
  split
  · exact ⟨_, _, rfl, by simp⟩
  · exact ⟨_, _, rfl, by simp⟩

/-- What the head of a source is: something that can be ignored, or a lexeme that begins with no
white space and is no end mark. -/
theorem readPiece_cases {hash : Bool} {c : Char} {rest after : List Char} {piece : Piece}
    (h : readPiece hash c rest = .ok (piece, after)) :
    (∃ text, piece = .blank text ∧ isBlank c = true ∧ Skips hash text after) ∨
      (∃ text, piece = .comment text ∧ isBlank c = false ∧ Skips hash text after) ∨
      ∃ kind value text, piece = .lexeme kind value text ∧ isBlank c = false ∧
        kind ≠ .ending := by
  unfold readPiece at h
  split at h
  · next hc =>
    simp only [Except.ok.injEq, Prod.mk.injEq] at h
    obtain ⟨rfl, rfl⟩ := h
    refine .inl ⟨_, rfl, hc, skips_blank _ ?_⟩
    intro d hd
    rcases List.mem_cons.1 hd with rfl | hd
    · exact hc
    · exact List.mem_takeWhile_imp hd
  · next hc =>
    have hc : isBlank c = false := by simpa using hc
    split at h
    · next hcomment =>
      subst h
      obtain ⟨⟨body, rfl⟩, hskips⟩ := skips_comment hcomment
      exact .inr (.inl ⟨body, rfl, hc, hskips⟩)
    · refine .inr (.inr ?_)
      split at h
      · unfold readTextLexeme at h
        split at h
        · simp only [Except.ok.injEq, Prod.mk.injEq] at h
          obtain ⟨rfl, rfl⟩ := h
          exact ⟨_, _, _, rfl, hc, by simp⟩
        · simp at h
        · simp at h
      · split at h
        · unfold readNumber at h
          dsimp only at h
          split at h
          · simp only [Except.ok.injEq, Prod.mk.injEq] at h
            obtain ⟨rfl, rfl⟩ := h
            refine ⟨_, _, _, rfl, hc, ?_⟩
            cases numberForm (splitNumber (c :: rest)).1 <;> simp [NumberForm.kind]
          · simp at h
        · split at h
          · simp only [Except.ok.injEq, Prod.mk.injEq] at h
            obtain ⟨rfl, rfl⟩ := h
            obtain ⟨kind, value, hword, hkind⟩ := wordLexeme_kind (c :: rest.takeWhile isNamePart)
            exact ⟨kind, value, _, hword, hc, hkind⟩
          · split at h
            · simp only [Except.ok.injEq, Prod.mk.injEq] at h
              obtain ⟨rfl, rfl⟩ := h
              exact ⟨_, _, _, rfl, hc, by simp⟩
            · simp only [Except.ok.injEq, Prod.mk.injEq] at h
              obtain ⟨rfl, rfl⟩ := h
              exact ⟨_, _, _, rfl, hc, by simp⟩

/-- A text is its first piece and then what is read behind it. -/
theorem readPieces_of_readPiece {hash : Bool} {c : Char} {rest after : List Char} {piece : Piece}
    (h : readPiece hash c rest = .ok (piece, after)) :
    readPieces hash (c :: rest) = .piece piece (readPieces hash after) := by
  rw [readPieces]
  split
  · next hbroken =>
    rw [h] at hbroken
    cases hbroken
  · next hread =>
    rw [h] at hread
    cases hread
    rfl

/-- Nothing is read behind a broken piece. -/
theorem readPieces_of_broken {hash : Bool} {c : Char} {rest : List Char} {fault : BrokenPiece}
    (h : readPiece hash c rest = .error fault) : readPieces hash (c :: rest) = .broken fault := by
  rw [readPieces]
  split
  · next hbroken =>
    rw [h] at hbroken
    cases hbroken
    rfl
  · next hread =>
    rw [h] at hread
    cases hread

/-- What is read of a text begins with white space if the text does, or if there is no text. -/
theorem startsBlank_readPieces (hash : Bool) (text : List Char) :
    (readPieces hash text).startsBlank = text.head?.all isBlank := by
  cases text with
  | nil => simp [readPieces, Reading.startsBlank]
  | cons c rest =>
    cases hpiece : readPiece hash c rest with
    | error fault =>
      have hc : isBlank c = false := by
        by_contra hblank
        rw [Bool.not_eq_false] at hblank
        rw [readPiece, if_pos hblank] at hpiece
        cases hpiece
      simp [readPieces_of_broken hpiece, Reading.startsBlank, hc]
    | ok read =>
      obtain ⟨piece, after⟩ := read
      rw [readPieces_of_readPiece hpiece]
      rcases readPiece_cases hpiece with ⟨text, rfl, hc, _⟩ | ⟨text, rfl, hc, _⟩ |
        ⟨kind, value, text, rfl, hc, _⟩
      · simp [Reading.startsBlank, hc]
      · simp [Reading.startsBlank, hc]
      · simp [Reading.startsBlank, hc]

/-! ### From pieces to tokens -/

/-- The tokens of a reading that begins with a lexeme are its own and then the others. -/
theorem Reading.exists_tokens_behind {file : Nat} {place : Position} {kind : TokenKind}
    {value : Option Value} {text : List Char} {next : Reading} {tokens : List Token}
    (h : (Reading.piece (.lexeme kind value text) next).tokens file place = .ok tokens) :
    ∃ others, next.tokens file (place.advance text) = .ok others ∧
      tokens =
        { kind, literal := String.ofList text, value,
          span := Span.between file place (place.advance text),
          spaceAfter := next.startsBlank } :: others := by
  rw [Reading.tokens] at h
  cases hothers : next.tokens file (place.advance text) with
  | error e =>
    rw [hothers] at h
    cases h
  | ok others =>
    rw [hothers] at h
    cases h
    exact ⟨others, rfl, rfl⟩

/-- The tokens of a text that stands in a source behind another text: each lexeme behind what can
be ignored, with the region between the places where it starts and stops. -/
inductive Laid (file : Nat) (hashComments : Bool) : List Char → List Char → List Token → Prop
  | ending {front gap : List Char} (hgap : Ignorable hashComments [] gap) :
      Laid file hashComments front gap
        [Token.ending (Span.point file (Position.start.advance (front ++ gap)))]
  | lexeme {front gap text back : List Char} {t : Token} {others : List Token}
      (hgap : Ignorable hashComments (text ++ back) gap) (hne : text ≠ [])
      (hkind : t.isEnding = false) (hliteral : t.literal = String.ofList text)
      (hspan : t.span = Span.between file (Position.start.advance (front ++ gap))
        (Position.start.advance (front ++ gap ++ text)))
      (hspace : t.spaceAfter = back.head?.all isBlank)
      (hothers : Laid file hashComments (front ++ gap ++ text) back others) :
      Laid file hashComments front (gap ++ text ++ back) (t :: others)

/-- What can be ignored joins the first gap behind it. -/
theorem Laid.skip {file : Nat} {hash : Bool} {front piece after : List Char}
    {tokens : List Token} (hskips : Skips hash piece after)
    (h : Laid file hash (front ++ piece) after tokens) :
    Laid file hash front (piece ++ after) tokens := by
  cases h with
  | ending hgap =>
    rw [List.append_assoc]
    exact Laid.ending (hskips after [] (by simp) hgap)
  | @lexeme _ gap text back t others hgap hne hkind hliteral hspan hspace hothers =>
    have hassoc : front ++ piece ++ gap = front ++ (piece ++ gap) := List.append_assoc ..
    rw [hassoc] at hspan hothers
    have hjoined := hskips gap (text ++ back) (List.append_assoc ..) hgap
    have hlaid := Laid.lexeme hjoined hne hkind hliteral hspan hspace hothers
    simpa only [List.append_assoc] using hlaid

theorem laid_readPieces {file : Nat} {hash : Bool} {front text : List Char} {tokens : List Token}
    (h : (readPieces hash text).tokens file (Position.start.advance front) = .ok tokens) :
    Laid file hash front text tokens := by
  fun_induction readPieces hash text generalizing front tokens with
  | case1 =>
    simp only [Reading.tokens, Except.ok.injEq] at h
    subst h
    have hending : Laid file hash front []
        [Token.ending (Span.point file (Position.start.advance (front ++ [])))] := .ending .nil
    simpa using hending
  | case2 => simp [Reading.tokens] at h
  | case3 c rest piece after hpiece _ ih =>
    obtain ⟨happend, hne⟩ := readPiece_append hpiece
    rw [← happend]
    rcases readPiece_cases hpiece with ⟨text, rfl, _, hskips⟩ | ⟨text, rfl, _, hskips⟩ |
      ⟨kind, value, text, rfl, _, hkind⟩
    · rw [Reading.tokens, ← Position.advance_append] at h
      · exact Laid.skip hskips (ih h)
      · simp
    · rw [Reading.tokens, ← Position.advance_append] at h
      · exact Laid.skip hskips (ih h)
      · simp
    · obtain ⟨others, hothers, rfl⟩ := Reading.exists_tokens_behind h
      rw [← Position.advance_append] at hothers ⊢
      have hlaid := ih hothers
      rw [← List.append_nil front] at hlaid
      exact Laid.lexeme Ignorable.nil hne (by simpa [Token.isEnding] using hkind) rfl
        (by simp) (startsBlank_readPieces hash after) hlaid

/-! ### What the layout says of the regions -/

section

variable {file : Nat} {hash : Bool} {front rest : List Char} {tokens : List Token}

/-- Where a lexeme starts and stops in bytes. -/
theorem between_advance_bounds (file : Nat) (front text : List Char) :
    (Span.between file (Position.start.advance front)
        (Position.start.advance (front ++ text))).start = String.utf8Len front ∧
      (Span.between file (Position.start.advance front)
        (Position.start.advance (front ++ text))).stop =
          String.utf8Len front + String.utf8Len text := by
  simp [Span.between, Span.make, Position.start_advance]

/-- Where the end mark of a source stands. -/
theorem point_advance_bounds (file : Nat) (front : List Char) :
    (Span.point file (Position.start.advance front)).start = String.utf8Len front ∧
      (Span.point file (Position.start.advance front)).stop = String.utf8Len front := by
  simp [Span.point, Span.between, Span.make, Position.start_advance]

theorem Laid.placed (h : Laid file hash front rest tokens) :
    ∀ t ∈ tokens, t.span.PlacedIn file (String.ofList (front ++ rest)) := by
  induction h with
  | @ending front gap hgap =>
    intro t ht
    rw [List.mem_singleton.1 ht]
    simpa [Token.ending, Span.point] using between_placedIn file (front ++ gap) [] []
  | @lexeme front gap text back t others _ _ _ _ hspan _ _ ih =>
    intro u hu
    rcases List.mem_cons.1 hu with rfl | hu
    · rw [hspan]
      simpa only [List.append_assoc] using between_placedIn file (front ++ gap) text back
    · simpa only [List.append_assoc] using ih u hu

theorem Laid.front_le_start (h : Laid file hash front rest tokens) :
    ∀ t ∈ tokens, String.utf8Len front ≤ t.span.start := by
  induction h with
  | @ending front gap hgap =>
    intro t ht
    rw [List.mem_singleton.1 ht, Token.ending, (point_advance_bounds file (front ++ gap)).1]
    simp
  | @lexeme front gap text back t others _ _ _ _ hspan _ _ ih =>
    intro u hu
    rcases List.mem_cons.1 hu with rfl | hu
    · rw [hspan, (between_advance_bounds file (front ++ gap) text).1]
      simp
    · have hlater := ih u hu
      simp only [String.utf8Len_append] at hlater
      omega

theorem Laid.ordered (h : Laid file hash front rest tokens) :
    tokens.Pairwise fun first second =>
      first.span.start < first.span.stop ∧ first.span.stop ≤ second.span.start := by
  induction h with
  | ending => exact List.pairwise_singleton _ _
  | @lexeme front gap text back t others _ hne _ _ hspan _ hothers ih =>
    refine List.Pairwise.cons ?_ ih
    intro u hu
    obtain ⟨hstart, hstop⟩ := between_advance_bounds file (front ++ gap) text
    have hlater := hothers.front_le_start u hu
    have hpos : 0 < String.utf8Len text := by
      rw [Nat.pos_iff_ne_zero]
      exact fun hzero => hne (String.utf8Len_eq_zero.1 hzero)
    rw [hspan, hstart, hstop]
    rw [String.utf8Len_append] at hlater
    exact ⟨by omega, hlater⟩

theorem Laid.literal (h : Laid file hash front rest tokens) :
    ∀ t ∈ tokens, t.isEnding = false →
      t.literal = slice (String.ofList (front ++ rest)) t.span.start t.span.stop := by
  induction h with
  | ending =>
    intro t ht hkind
    rw [List.mem_singleton.1 ht] at hkind
    cases hkind
  | @lexeme front gap text back t others _ _ _ hliteral hspan _ _ ih =>
    intro u hu hkind
    rcases List.mem_cons.1 hu with rfl | hu
    · obtain ⟨hstart, hstop⟩ := between_advance_bounds file (front ++ gap) text
      rw [hliteral, hspan, hstart, hstop, ← slice_append (front ++ gap) text back]
      simp only [List.append_assoc]
    · simpa only [List.append_assoc] using ih u hu hkind

theorem Laid.spaceAfter (h : Laid file hash front rest tokens) :
    ∀ t ∈ tokens, t.isEnding = false →
      t.spaceAfter = (charAt? (String.ofList (front ++ rest)) t.span.stop).all isBlank := by
  induction h with
  | ending =>
    intro t ht hkind
    rw [List.mem_singleton.1 ht] at hkind
    cases hkind
  | @lexeme front gap text back t others _ _ _ _ hspan hspace _ ih =>
    intro u hu hkind
    rcases List.mem_cons.1 hu with rfl | hu
    · have hstop := (between_advance_bounds file (front ++ gap) text).2
      rw [hspace, hspan, hstop, ← String.utf8Len_append, ← charAt?_append (front ++ gap ++ text)]
      simp only [List.append_assoc]
    · simpa only [List.append_assoc] using ih u hu hkind

theorem Laid.ending_last (h : Laid file hash front rest tokens) :
    ∃ lexemes mark, tokens = lexemes ++ [mark] ∧ (∀ t ∈ lexemes, t.isEnding = false) ∧
      mark.isEnding = true ∧ mark.span.start = String.utf8Len (front ++ rest) ∧
      mark.span.stop = String.utf8Len (front ++ rest) := by
  induction h with
  | @ending front gap hgap =>
    obtain ⟨hstart, hstop⟩ := point_advance_bounds file (front ++ gap)
    exact ⟨[], _, rfl, by simp, rfl, hstart, hstop⟩
  | @lexeme front gap text back t others _ _ hkind _ _ _ _ ih =>
    obtain ⟨lexemes, mark, rfl, hlexemes, hmark, hstart, hstop⟩ := ih
    refine ⟨t :: lexemes, mark, rfl, ?_, hmark, ?_, ?_⟩
    · intro u hu
      rcases List.mem_cons.1 hu with rfl | hu
      · exact hkind
      · exact hlexemes u hu
    · simpa only [List.append_assoc] using hstart
    · simpa only [List.append_assoc] using hstop

/-- A gap of a source, read off the pieces of text before, in and behind it. -/
theorem ignorableBetween_append (front : List Char) {gap back : List Char}
    (h : Ignorable hash back gap) :
    IgnorableBetween hash (String.ofList (front ++ gap ++ back)) (String.utf8Len front)
      (String.utf8Len (front ++ gap)) := by
  have hgap := slice_append front gap back
  have hback := slice_append (front ++ gap) back []
  rw [List.append_nil] at hback
  rw [IgnorableBetween, String.utf8ByteSize_ofList, String.utf8Len_append (front ++ gap) back,
    hback, String.utf8Len_append, hgap, String.toList_ofList, String.toList_ofList]
  exact h

theorem Laid.gaps (h : Laid file hash front rest tokens) :
    GapsIgnorable hash (String.ofList (front ++ rest)) (String.utf8Len front) tokens := by
  induction h with
  | @ending front gap hgap =>
    obtain ⟨hstart, hstop⟩ := point_advance_bounds file (front ++ gap)
    have hbefore := ignorableBetween_append front hgap
    have hnothing : Ignorable hash [] [] := .nil
    have hbehind := ignorableBetween_append (front ++ gap) hnothing
    simp only [List.append_nil] at hbefore hbehind
    constructor
    · simpa only [Token.ending, hstart] using hbefore
    · simpa only [GapsIgnorable, Token.ending, hstop, String.utf8ByteSize_ofList] using hbehind
  | @lexeme front gap text back t others hgap _ _ _ hspan _ _ ih =>
    obtain ⟨hstart, hstop⟩ := between_advance_bounds file (front ++ gap) text
    have hbefore := ignorableBetween_append front hgap
    constructor
    · rw [hspan, hstart]
      simpa only [List.append_assoc] using hbefore
    · rw [hspan, hstop, ← String.utf8Len_append]
      simpa only [List.append_assoc] using ih

end

theorem laid_tokenize {file : Nat} {hash : Bool} {source : String} {tokens : List Token}
    (h : tokenize file hash source = .ok tokens) : Laid file hash [] source.toList tokens :=
  laid_readPieces h

/-- The tokens of a source tile it. -/
theorem tokenize_tiling {file : Nat} {hashComments : Bool} {source : String}
    {tokens : List Token} (h : tokenize file hashComments source = .ok tokens) :
    Tiling file hashComments source tokens := by
  have hlaid := laid_tokenize h
  have hsource : String.ofList ([] ++ source.toList) = source := String.ofList_toList
  have hsize : String.utf8Len ([] ++ source.toList) = source.utf8ByteSize :=
    String.utf8Len_toList source
  refine
    { ordered := hlaid.ordered
      literal := ?_
      gaps := ?_
      ending := ?_
      placed := ?_
      spaceAfter := ?_ }
  · simpa only [hsource] using hlaid.literal
  · simpa only [hsource, String.utf8Len_nil] using hlaid.gaps
  · simpa only [hsize] using hlaid.ending_last
  · simpa only [hsource] using hlaid.placed
  · simpa only [hsource] using hlaid.spaceAfter

/-- No token in front of the end mark of a source is an end mark. -/
theorem isEnding_of_tokenize {file : Nat} {hash : Bool} {source : String} {front : List Token}
    {mark : Span} (h : tokenize file hash source = .ok (front ++ [Token.ending mark])) :
    ∀ t ∈ front, t.isEnding = false := by
  obtain ⟨lexemes, last, heq, hlexemes, -⟩ := (laid_tokenize h).ending_last
  rw [(List.append_inj' heq rfl).1]
  exact hlexemes

/-- A letter of two bytes, and a comment over two lines with a sign right behind it. -/
theorem tokenize_tiling_comment :
    tokenize 1 true "ß /* a\nb */+" = .ok
        [⟨.identifier, "ß", none, ⟨1, 0, 2, 1, 1, 1, 2⟩, true⟩,
         ⟨.sign .add, "+", none, ⟨1, 12, 13, 2, 5, 2, 6⟩, true⟩,
         Token.ending ⟨1, 13, 13, 2, 6, 2, 6⟩] ∧
      Tiling 1 true "ß /* a\nb */+"
        [⟨.identifier, "ß", none, ⟨1, 0, 2, 1, 1, 1, 2⟩, true⟩,
         ⟨.sign .add, "+", none, ⟨1, 12, 13, 2, 5, 2, 6⟩, true⟩,
         Token.ending ⟨1, 13, 13, 2, 6, 2, 6⟩] :=
  ⟨by decide +kernel, tokenize_tiling (by decide +kernel)⟩

end TodLang
