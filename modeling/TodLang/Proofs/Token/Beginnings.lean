import TodLang.Proofs.Token.TextLiteral
import TodLang.Proofs.Token.Tiling
/-!
Where the tokens and the faults of a source begin. A region begins behind some text if its offset,
line and column are those of the place there. Every token begins behind a part of the source and in
front of its own characters, the end mark behind all of it, and what cannot be read begins in front
of a character, too (`beginsIn_of_tokenize_error`).
-/

namespace TodLang

namespace Span

/-- The region begins at the place behind a text. -/
def BeginsBehind (file : Nat) (front : List Char) (s : Span) : Prop :=
  s.file = file ∧
    (⟨s.start, s.startLine, s.startColumn⟩ : Position) = Position.start.advance front

/-- The region begins in front of a character of a source. -/
def BeginsIn (file : Nat) (source : String) (s : Span) : Prop :=
  ∃ front c back, source.toList = front ++ c :: back ∧ s.BeginsBehind file front

theorem between_beginsBehind (file : Nat) (front : List Char) (place : Position) :
    (between file (Position.start.advance front) place).BeginsBehind file front :=
  ⟨rfl, rfl⟩

theorem point_beginsBehind (file : Nat) (front : List Char) :
    (point file (Position.start.advance front)).BeginsBehind file front :=
  ⟨rfl, rfl⟩

theorem BeginsBehind.start_eq {file : Nat} {front : List Char} {s : Span}
    (h : s.BeginsBehind file front) : s.start = String.utf8Len front := by
  have hoffset := congrArg Position.offset h.2
  rwa [Position.start_advance] at hoffset

end Span

section

variable {file : Nat} {hash : Bool}

/-! ### Tokens -/

/-- A token of a source stands in it between two other parts, where its region says. -/
theorem Laid.exists_split {front rest : List Char} {tokens : List Token}
    (h : Laid file hash front rest tokens) {t : Token} (ht : t ∈ tokens)
    (hkind : t.isEnding = false) :
    ∃ before behind, front ++ rest = before ++ t.literal.toList ++ behind ∧
      t.literal.toList ≠ [] ∧
      t.span = Span.between file (Position.start.advance before)
        (Position.start.advance (before ++ t.literal.toList)) := by
  induction h with
  | ending =>
    rw [List.mem_singleton.1 ht] at hkind
    cases hkind
  | @lexeme front gap text back u others _ hne _ hliteral hspan _ _ ih =>
    rcases List.mem_cons.1 ht with rfl | ht
    · have htext : t.literal.toList = text := by rw [hliteral, String.toList_ofList]
      rw [htext]
      exact ⟨front ++ gap, back, by simp only [List.append_assoc], hne, hspan⟩
    · obtain ⟨before, behind, heq, hne, hplace⟩ := ih ht
      exact ⟨before, behind, by rw [← heq]; simp only [List.append_assoc], hne, hplace⟩

theorem beginsIn_of_mem_tokenize {source : String} {tokens : List Token}
    (h : tokenize file hash source = .ok tokens) {t : Token} (ht : t ∈ tokens)
    (hkind : t.isEnding = false) : t.span.BeginsIn file source := by
  obtain ⟨before, behind, hsource, hne, hspan⟩ := (laid_tokenize h).exists_split ht hkind
  obtain ⟨c, tail, hliteral⟩ := List.exists_cons_of_ne_nil hne
  refine ⟨before, c, tail ++ behind, ?_, ?_⟩
  · rw [← List.nil_append source.toList, hsource, hliteral, List.append_assoc, List.cons_append]
  · rw [hspan]
    exact Span.between_beginsBehind file before _

theorem Laid.endingSpan_beginsBehind {front rest : List Char} {tokens : List Token}
    (h : Laid file hash front rest tokens) :
    ∃ mark ∈ tokens.find? Token.isEnding, mark.span.BeginsBehind file (front ++ rest) := by
  induction h with
  | @ending front gap _ => exact ⟨_, rfl, Span.point_beginsBehind file (front ++ gap)⟩
  | @lexeme front gap text back t others _ _ hkind _ _ _ _ ih =>
    obtain ⟨mark, hmark, hspan⟩ := ih
    refine ⟨mark, ?_, ?_⟩
    · rwa [List.find?_cons_of_neg (by simp [hkind])]
    · simpa only [List.append_assoc] using hspan

/-! ### What cannot be read -/

/-- What is faulty in a piece that cannot be read begins in front of a character. -/
theorem extent_of_readPiece {c : Char} {rest : List Char} {piece : BrokenPiece}
    (h : readPiece hash c rest = .error piece) :
    ∃ d behind, c :: rest = piece.before ++ d :: behind := by
  unfold readPiece at h
  split at h
  · cases h
  · split at h
    · next hcomment =>
      subst h
      unfold readComment? at hcomment
      split at hcomment
      · cases hcomment
      · split at hcomment
        · cases hcomment
        · cases hcomment
          exact ⟨c, rest, rfl⟩
      · split at hcomment <;> cases hcomment
      · cases hcomment
    · split at h
      · unfold readTextLexeme at h
        split at h
        · cases h
        · cases h
          exact ⟨c, rest, rfl⟩
        · next escape hread =>
          cases h
          have hreached : TextEnd.Reached c rest (readText c rest) := readText_reached rest
          rw [hread] at hreached
          cases hreached with
          | unknownEscape tail _ _ => exact ⟨escape, tail, by simp⟩
      · split at h
        · unfold readNumber at h
          dsimp only at h
          split at h
          · cases h
          · cases h
            exact ⟨c, rest, rfl⟩
        · split at h
          · cases h
          · split at h <;> cases h

theorem Reading.error_beginsBehind (front : List Char) {text : List Char} {e : LexicalError}
    (h : (readPieces hash text).tokens file (Position.start.advance front) = .error e) :
    ∃ before d behind, text = before ++ d :: behind ∧
      e.span.BeginsBehind file (front ++ before) := by
  fun_induction readPieces hash text generalizing front with
  | case1 => cases h
  | case2 c rest piece hpiece =>
    obtain ⟨d, behind, htext⟩ := extent_of_readPiece hpiece
    cases h
    refine ⟨piece.before, d, behind, htext, ?_⟩
    rw [BrokenPiece.errorAt, ← Position.advance_append]
    exact Span.between_beginsBehind file (front ++ piece.before) _
  | case3 c rest piece after hpiece _ ih =>
    have hrest : (readPieces hash after).tokens file
        (Position.start.advance (front ++ piece.text)) = .error e := by
      rw [Position.advance_append]
      cases piece with
      | blank text | comment text => exact h
      | lexeme kind value text =>
        rw [Reading.tokens] at h
        cases hothers : (readPieces hash after).tokens file
            ((Position.start.advance front).advance text) with
        | error e' =>
          rw [hothers] at h
          cases h
          exact hothers
        | ok others =>
          rw [hothers] at h
          cases h
    obtain ⟨before, d, behind, hafter, hspan⟩ := ih (front ++ piece.text) hrest
    refine ⟨piece.text ++ before, d, behind, ?_, ?_⟩
    · rw [← (readPiece_append hpiece).1, hafter, List.append_assoc]
    · rwa [← List.append_assoc]

theorem beginsIn_of_tokenize_error {source : String} {e : LexicalError}
    (h : tokenize file hash source = .error e) : e.span.BeginsIn file source := by
  obtain ⟨before, c, behind, hsource, hspan⟩ := Reading.error_beginsBehind [] h
  exact ⟨before, c, behind, hsource, hspan⟩

end

end TodLang
