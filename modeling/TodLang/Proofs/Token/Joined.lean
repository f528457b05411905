import TodLang.Proofs.Token.Respelling
/-!
Sources put together with a line feed between them. No piece of the first source looks beyond the
line feed, so it is read as if it stood alone, and the second source is read as if it did: its
tokens, or its fault, only stand some bytes and lines further on (`tokenize_joined`).
-/

namespace TodLang

/-! ### Further on by bytes and whole lines -/

/-- The place further on. Whole lines in front of a text leave its columns as they are. -/
def Position.moved (bytes lines : Nat) (p : Position) : Position :=
  ⟨p.offset + bytes, p.line + lines, p.column⟩

/-- The region further on. -/
def Span.moved (bytes lines : Nat) (s : Span) : Span :=
  { s with
    start := s.start + bytes
    stop := s.stop + bytes
    startLine := s.startLine + lines
    stopLine := s.stopLine + lines }

/-- The token further on. -/
def Token.moved (bytes lines : Nat) (t : Token) : Token :=
  { t with span := t.span.moved bytes lines }

/-- The error further on. -/
def LexicalError.moved (bytes lines : Nat) (e : LexicalError) : LexicalError :=
  { e with span := e.span.moved bytes lines }

section

variable {bytes lines : Nat}

theorem Position.next_moved (p : Position) (c : Char) :
    (p.moved bytes lines).next c = (p.next c).moved bytes lines := by
  unfold next moved
  split
  · simp only [mk.injEq, and_true]
    omega
  · simp only [mk.injEq, and_true]
    omega

theorem Position.advance_moved (text : List Char) (p : Position) :
    (p.moved bytes lines).advance text = (p.advance text).moved bytes lines := by
  induction text generalizing p with
  | nil => rfl
  | cons c text ih => rw [advance_cons, advance_cons, next_moved, ih]

theorem Span.between_moved (file : Nat) (p q : Position) :
    between file (p.moved bytes lines) (q.moved bytes lines) =
      (between file p q).moved bytes lines := by
  have hstop : max (q.offset + bytes) (p.offset + bytes) = max q.offset p.offset + bytes := by
    omega
  simp [between, make, moved, Position.moved, hstop]

theorem BrokenPiece.errorAt_moved (file : Nat) (p : Position) (piece : BrokenPiece) :
    piece.errorAt file (p.moved bytes lines) = (piece.errorAt file p).moved bytes lines := by
  simp only [errorAt, LexicalError.moved, Position.advance_moved, Span.between_moved]

/-- A text that is read from further on has the same tokens or the same fault, further on. -/
theorem Reading.tokens_moved (file : Nat) (p : Position) (r : Reading) :
    r.tokens file (p.moved bytes lines) =
      ((r.tokens file p).map fun tokens => tokens.map (Token.moved bytes lines)).mapError
        (LexicalError.moved bytes lines) := by
  induction r generalizing p with
  | finished =>
    have hpoint : Span.point file (p.moved bytes lines) =
        (Span.point file p).moved bytes lines := Span.between_moved file p p
    simp [Reading.tokens, Except.map, Except.mapError, Token.ending, Token.moved, hpoint]
  | broken piece =>
    simp [Reading.tokens, Except.map, Except.mapError, BrokenPiece.errorAt_moved]
  | piece first next ih =>
    cases first with
    | blank text | comment text =>
      simp only [Reading.tokens, Piece.text, Position.advance_moved]
      exact ih _
    | lexeme kind value text =>
      simp only [Reading.tokens, Position.advance_moved, Span.between_moved, ih]
      cases next.tokens file (p.advance text) <;> rfl

end

/-! ### The seam -/

section

variable {hash : Bool} {b : Char} {more : List Char}

/-- A text shows the same if a blank and more stand behind it. -/
theorem Fades.append_blank (hb : isBlank b = true) (n : Nat) (x : List Char) :
    Fades n x (x ++ b :: more) := by
  have hend : Fades n [] (b :: more) := .blank hb
  simpa using hend.append x

theorem splitBlockEnd?_append_right {text body rest : List Char}
    (h : splitBlockEnd? text = some (body, rest)) (behind : List Char) :
    splitBlockEnd? (text ++ behind) = some (body, rest ++ behind) := by
  fun_induction splitBlockEnd? text generalizing body with
  | case1 rest' =>
    cases h
    rfl
  | case2 c tail hstart ih =>
    obtain ⟨parts, hparts, heq⟩ := Option.map_eq_some_iff.1 h
    obtain ⟨rfl, rfl⟩ := Prod.mk.inj heq
    have htail := ih hparts
    rw [List.cons_append, splitBlockEnd?]
    · rw [htail]
      rfl
    · rintro rest' rfl hslash
      cases tail with
      | nil => simp [splitBlockEnd?] at hparts
      | cons d tail =>
        obtain ⟨rfl, -⟩ := List.cons.inj hslash
        exact hstart _ rfl rfl
  | case3 => cases h

/-- The rest of a line ends where it ended. -/
theorem span_line (text more : List Char) :
    (text ++ '\n' :: more).takeWhile (· ≠ '\n') = text.takeWhile (· ≠ '\n') ∧
      (text ++ '\n' :: more).dropWhile (· ≠ '\n') = text.dropWhile (· ≠ '\n') ++ '\n' :: more := by
  induction text with
  | nil => simp
  | cons c text ih =>
    by_cases hc : c = '\n'
    · simp [hc]
    · simpa [hc] using ih

/-- A comment in front of the end of its line is read as it was. -/
theorem readComment?_append_line {text after : List Char} {piece : Piece}
    (h : readComment? hash text = some (.ok (piece, after))) :
    readComment? hash (text ++ '\n' :: more) = some (.ok (piece, after ++ '\n' :: more)) := by
  obtain ⟨htake, hdrop⟩ := span_line text more
  unfold readComment? at h
  split at h
  · cases h
    rw [← htake, ← hdrop]
    rfl
  · split at h
    · next hblock =>
      cases h
      simp only [List.cons_append, readComment?]
      rw [splitBlockEnd?_append_right hblock]
    · cases h
  · split at h
    · next hhash =>
      cases h
      rw [← htake, ← hdrop]
      simp [readComment?, hhash]
    · cases h
  · cases h

/-- A comment is read by the reader of comments. -/
theorem readComment?_of_readPiece {c : Char} {rest text after : List Char}
    (h : readPiece hash c rest = .ok (.comment text, after)) :
    isBlank c = false ∧ readComment? hash (c :: rest) = some (.ok (.comment text, after)) := by
  unfold readPiece at h
  split at h
  · cases h
  · next hblank =>
    refine ⟨by simpa using hblank, ?_⟩
    split at h
    · next hcomment => rw [hcomment, h]
    · exfalso
      split at h
      · unfold readTextLexeme at h
        split at h <;> cases h
      · split at h
        · unfold readNumber at h
          dsimp only at h
          split at h <;> cases h
        · split at h
          · obtain ⟨kind, value, hword, -⟩ := wordLexeme_kind (c :: rest.takeWhile isNamePart)
            rw [hword] at h
            cases h
          · split at h <;> cases h

theorem readPiece_comment_append_line {c : Char} {rest text after : List Char}
    (h : readPiece hash c rest = .ok (.comment text, after)) :
    readPiece hash c (rest ++ '\n' :: more) = .ok (.comment text, after ++ '\n' :: more) := by
  obtain ⟨hblank, hcomment⟩ := readComment?_of_readPiece h
  have hjoined : readComment? hash (c :: (rest ++ '\n' :: more)) =
      some (.ok (.comment text, after ++ '\n' :: more)) := readComment?_append_line hcomment
  unfold readPiece
  rw [hblank, hjoined]
  rfl

/-- A text with a line feed behind it has the tokens that it has alone, without the end mark, and
then those of what comes behind the line feed. -/
theorem tokens_append_line {file : Nat} {p : Position} {text : List Char} {tokens : List Token}
    (h : (readPieces hash text).tokens file p = .ok tokens) :
    (readPieces hash (text ++ '\n' :: more)).tokens file p =
      ((readPieces hash more).tokens file ((p.advance text).next '\n')).map fun others =>
        tokens.filter (fun t => !t.isEnding) ++ others := by
  fun_induction readPieces hash text generalizing p tokens with
  | case1 =>
    cases h
    have hblank : ∀ c ∈ ['\n'], isBlank c = true := by simp [isBlank]
    rw [List.nil_append, ← List.singleton_append, tokens_blank hblank]
    exact (congrFun Except.map_id _).symm
  | case2 => cases h
  | case3 c rest piece after hpiece _ ih =>
    obtain ⟨happend, -⟩ := readPiece_append hpiece
    have hplace : p.advance (c :: rest) = (p.advance piece.text).advance after := by
      rw [← happend, Position.advance_append]
    cases piece with
    | blank text =>
      have hblank := isBlank_of_readPiece_blank hpiece
      rw [hplace, ← happend, Piece.text, List.append_assoc, tokens_blank hblank]
      exact ih h
    | comment text =>
      rw [List.cons_append, tokens_comment (readPiece_comment_append_line hpiece), hplace]
      exact ih h
    | lexeme kind value text =>
      have hfades : Fades 2 after (after ++ '\n' :: more) := .append_blank rfl 2 after
      obtain ⟨tail, rfl, rfl, hread⟩ := readPiece_lexeme_of_fades hpiece hfades
      have hspace : (readPieces hash (after ++ '\n' :: more)).startsBlank =
          (readPieces hash after).startsBlank := by
        rw [startsBlank_readPieces, startsBlank_readPieces]
        cases after <;> rfl
      obtain ⟨others, hothers, rfl⟩ := Reading.exists_tokens_behind h
      have hkind : kind ≠ .ending := by
        rcases readPiece_cases hpiece with
          ⟨_, hcase, -⟩ | ⟨_, hcase, -⟩ | ⟨_, _, _, hcase, -, hkind⟩
        · cases hcase
        · cases hcase
        · cases hcase
          exact hkind
      rw [List.cons_append, List.append_assoc, tokens_lexeme hread, ih hothers, hplace, hspace]
      simp only [Piece.text]
      cases (readPieces hash more).tokens file
        (((p.advance (c :: tail)).advance after).next '\n') with
      | error e => rfl
      | ok behind => simp [Except.map, Token.isEnding, hkind]

end

/-! ### Sources -/

/-- The source that two sources make with a line feed between them. -/
def joinedSource (a b : String) : String :=
  a ++ "\n" ++ b

/-- A source that is read in front of a line feed and another source has the tokens it has alone.
The tokens or the fault of the other source stand further on by the bytes and lines in front of
it. -/
theorem tokenize_joined {file : Nat} {hash : Bool} {a b : String} {tokens : List Token}
    (h : tokenize file hash a = .ok tokens) :
    tokenize file hash (joinedSource a b) =
      ((tokenize file hash b).map fun others =>
        tokens.filter (fun t => !t.isEnding) ++
          others.map (Token.moved (a.utf8ByteSize + 1) (a.toList.count '\n' + 1))).mapError
        (LexicalError.moved (a.utf8ByteSize + 1) (a.toList.count '\n' + 1)) := by
  have hsource : (joinedSource a b).toList = a.toList ++ '\n' :: b.toList := by
    simp [joinedSource]
  have hplace : (Position.start.advance a.toList).next '\n' =
      Position.start.moved (a.utf8ByteSize + 1) (a.toList.count '\n' + 1) := by
    rw [Position.start_advance, String.utf8Len_toList]
    have hsize : '\n'.utf8Size = 1 := rfl
    simp only [Position.next, Position.moved, Position.start, if_true, hsize, Nat.zero_add,
      Nat.add_assoc]
  unfold tokenize at h ⊢
  rw [hsource, tokens_append_line h, hplace, Reading.tokens_moved]
  cases (readPieces hash b.toList).tokens file Position.start <;> rfl

/-- A sign that would go on with what stands behind the line feed, and a comment up to it. -/
theorem tokenize_joined_sign :
    let front : List Token :=
      [⟨.identifier, "ß", none, ⟨1, 0, 2, 1, 1, 1, 2⟩, true⟩,
       ⟨.sign .lt, "<", none, ⟨1, 3, 4, 2, 1, 2, 2⟩, false⟩]
    tokenize 1 true "ß\n<#" = .ok (front ++ [Token.ending ⟨1, 5, 5, 2, 3, 2, 3⟩]) ∧
      tokenize 1 true "=" =
        .ok [⟨.sign .assign, "=", none, ⟨1, 0, 1, 1, 1, 1, 2⟩, true⟩,
          Token.ending ⟨1, 1, 1, 1, 2, 1, 2⟩] ∧
      tokenize 1 true (joinedSource "ß\n<#" "=") =
        .ok (front ++ [⟨.sign .assign, "=", none, ⟨1, 6, 7, 3, 1, 3, 2⟩, true⟩,
          Token.ending ⟨1, 7, 7, 3, 2, 3, 2⟩]) := by
  intro front
  have hfront : tokenize 1 true "ß\n<#" =
      .ok (front ++ [Token.ending ⟨1, 5, 5, 2, 3, 2, 3⟩]) := by
    decide +kernel
  have hback : tokenize 1 true "=" =
      .ok [⟨.sign .assign, "=", none, ⟨1, 0, 1, 1, 1, 1, 2⟩, true⟩,
        Token.ending ⟨1, 1, 1, 1, 2, 1, 2⟩] := by
    decide +kernel
  refine ⟨hfront, hback, ?_⟩
  rw [tokenize_joined hfront, hback]
  rfl

end TodLang
