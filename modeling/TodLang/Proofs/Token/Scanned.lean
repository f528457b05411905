import TodLang.Proofs.Token.Respelling
/-!
The scanner one piece at a time. A piece at the head of a text is laid at the place of the text: it
is a token, it leaves none if it is white space or a comment, or it is an error. The tokens of a
text are those of its first piece and then those of what comes behind it (`tokens_eq_scanPiece`), so
what a literal is read as can be said for any place of any source.
-/

namespace TodLang

/-- A piece that was scanned: its token, if it is a lexeme, and the text behind it with the place
where that text stands. -/
structure Scanned where
  token : Option Token
  place : Position
  after : List Char
  deriving DecidableEq

namespace Scanned

/-- A piece that leaves no token. -/
def skipped (place : Position) (text after : List Char) : Scanned :=
  ⟨none, place.advance text, after⟩

/-- A lexeme that stands at a place, in front of some text. -/
def lexeme (file : Nat) (place : Position) (kind : TokenKind) (value : Option Value)
    (text after : List Char) : Scanned :=
  { token := some
      { kind, literal := String.ofList text, value,
        span := Span.between file place (place.advance text),
        spaceAfter := after.head?.all isBlank }
    place := place.advance text
    after }

end Scanned

/-- Scans the piece at the head of a text that stands at a place. -/
def scanPiece (hash : Bool) (file : Nat) (place : Position) (c : Char) (rest : List Char) :
    Except LexicalError Scanned :=
  match readPiece hash c rest with
  | .ok (.lexeme kind value text, after) => .ok (.lexeme file place kind value text after)
  | .ok (piece, after) => .ok (.skipped place piece.text after)
  | .error piece => .error (piece.errorAt file place)

section

variable {hash : Bool} {file : Nat} {place : Position} {c : Char} {rest : List Char}

/-- The tokens of a text are that of its first piece, if it has one, and those of what comes
behind. -/
theorem tokens_eq_scanPiece :
    (readPieces hash (c :: rest)).tokens file place =
      (scanPiece hash file place c rest).bind fun first =>
        ((readPieces hash first.after).tokens file first.place).map (first.token.toList ++ ·) := by
  cases hpiece : readPiece hash c rest with
  | error piece =>
    rw [tokens_broken hpiece, scanPiece, hpiece]
    rfl
  | ok read =>
    obtain ⟨piece, after⟩ := read
    cases piece with
    | blank text =>
      have hblank := isBlank_of_readPiece_blank hpiece
      rw [← (readPiece_append hpiece).1, Piece.text, tokens_blank hblank, scanPiece, hpiece]
      exact (congrFun Except.map_id _).symm
    | comment text =>
      rw [tokens_comment hpiece, scanPiece, hpiece]
      exact (congrFun Except.map_id _).symm
    | lexeme kind value text =>
      rw [tokens_lexeme hpiece, startsBlank_readPieces, scanPiece, hpiece]
      rfl

/-- A source that is one lexeme has its token and the end mark. -/
theorem tokenize_of_lexeme {kind : TokenKind} {value : Option Value}
    (h : scanPiece hash file Position.start c rest =
      .ok (.lexeme file Position.start kind value (c :: rest) [])) :
    tokenize file hash (String.ofList (c :: rest)) =
      .ok [{ kind, literal := String.ofList (c :: rest), value,
             span := Span.between file Position.start (Position.start.advance (c :: rest)),
             spaceAfter := true },
           Token.ending (Span.point file (Position.start.advance (c :: rest)))] := by
  rw [tokenize, String.toList_ofList, tokens_eq_scanPiece, h]
  simp [Scanned.lexeme, Except.bind, Except.map, readPieces, Reading.tokens]

/-- A source whose first piece is an error has no tokens. -/
theorem tokenize_of_error {e : LexicalError}
    (h : scanPiece hash file Position.start c rest = .error e) :
    tokenize file hash (String.ofList (c :: rest)) = .error e := by
  rw [tokenize, String.toList_ofList, tokens_eq_scanPiece, h]
  rfl

/-- What begins with a quote is a text literal. -/
theorem readPiece_quote {quote : Char} (hquote : quote = '"' ∨ quote = '\'') (rest : List Char) :
    readPiece hash quote rest = readTextLexeme quote rest := by
  rcases hquote with rfl | rfl <;> rfl

/-- What begins with a digit is a number. -/
theorem readPiece_digit (hc : c.isDigit = true) (rest : List Char) :
    readPiece hash c rest = readNumber (c :: rest) := by
  have hblank : ¬ isBlank c = true := by
    intro hblank
    rcases eq_of_isBlank hblank with rfl | rfl | rfl | rfl | rfl <;> cases hc
  have hcomment : readComment? hash (c :: rest) = none := by
    rw [readComment?_cons_eq_none_iff]
    constructor <;> rintro rfl <;> cases hc
  have hquote : ¬ (c = '"' ∨ c = '\'') := by
    rintro (rfl | rfl) <;> cases hc
  rw [readPiece, if_neg hblank, hcomment]
  dsimp only
  rw [if_neg hquote, if_pos hc]

end

end TodLang
