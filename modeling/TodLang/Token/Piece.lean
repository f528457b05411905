import TodLang.Token.Literal
/-!
A source as a sequence of pieces: white space, comments and lexemes. What a piece is depends on
the characters alone and not on where they stand. The main facts are that every piece has at least
one character and that the pieces, put together again, are the source.
-/

namespace TodLang

/-- The characters that stand between lexemes for nothing. -/
def isBlank (c : Char) : Bool :=
  c == ' ' || c == '\t' || c == '\r' || c == '\n' || c == '\x0b'

/-- What a name begins with. -/
def isNameStart (c : Char) : Bool :=
  isLetter c || c == '_'

/-- What a name goes on with. -/
def isNamePart (c : Char) : Bool :=
  isLetter c || isNumeral c || c == '_' || c == '$'

/-- A piece of a source. -/
inductive Piece where
  | blank (text : List Char)
  | comment (text : List Char)
  | lexeme (kind : TokenKind) (value : Option Value) (text : List Char)
  deriving DecidableEq, Repr

namespace Piece

/-- The characters of a piece. -/
def text : Piece → List Char
  | blank text | comment text | lexeme _ _ text => text

end Piece

/-- Why a source has no tokens. -/
inductive LexicalFault where
  | unterminatedText
  | unterminatedComment
  | unknownEscape (escape : Char)
  | unreadableNumber (run : List Char) (form : NumberForm)
  deriving DecidableEq, Repr

/-- A piece that cannot be read: the characters it has before the fault, and the faulty ones. -/
structure BrokenPiece where
  fault : LexicalFault
  before : List Char
  extent : List Char
  deriving DecidableEq, Repr

/-- The text up to and including the first `*/`, and what comes after it. -/
def splitBlockEnd? : List Char → Option (List Char × List Char)
  | '*' :: '/' :: rest => some (['*', '/'], rest)
  | c :: rest => (splitBlockEnd? rest).map fun parts => (c :: parts.1, parts.2)
  | [] => none

/-- The comment at the head of a text, if there is one. A line comment stops before the line
feed. -/
def readComment? (hashComments : Bool) (text : List Char) :
    Option (Except BrokenPiece (Piece × List Char)) :=
  match text with
  | '/' :: '/' :: _ =>
    some (.ok (.comment (text.takeWhile (· ≠ '\n')), text.dropWhile (· ≠ '\n')))
  | '/' :: '*' :: rest =>
    match splitBlockEnd? rest with
    | some (body, rest) => some (.ok (.comment ('/' :: '*' :: body), rest))
    | none => some (.error ⟨.unterminatedComment, [], text⟩)
  | '#' :: _ =>
    if hashComments then
      some (.ok (.comment (text.takeWhile (· ≠ '\n')), text.dropWhile (· ≠ '\n')))
    else none
  | _ => none

/-- The lexeme of a text literal, from its opening quote on. -/
def readTextLexeme (quote : Char) (rest : List Char) : Except BrokenPiece (Piece × List Char) :=
  match readText quote rest with
  | .closed value written rest =>
    .ok (.lexeme .text (some (.text (String.ofList value))) (quote :: written), rest)
  | .missing => .error ⟨.unterminatedText, [], quote :: rest⟩
  | .unknownEscape written escape => .error ⟨.unknownEscape escape, quote :: written, [escape]⟩

/-- The kind of token of a number. -/
def NumberForm.kind : NumberForm → TokenKind
  | integer => .integer
  | decimal => .decimal

/-- The lexeme of a number. -/
def readNumber (text : List Char) : Except BrokenPiece (Piece × List Char) :=
  let run := (splitNumber text).1
  match numberValue? run with
  | some value => .ok (.lexeme (numberForm run).kind (some value) run, (splitNumber text).2)
  | none => .error ⟨.unreadableNumber run (numberForm run), [], run⟩

/-- The value of a reserved word. -/
def Keyword.value? : Keyword → Option Value
  | trueWord => some (.truth true)
  | falseWord => some (.truth false)
  | _ => none

/-- The lexeme of a word: a keyword if it is reserved and a name otherwise. -/
def wordLexeme (word : List Char) : Piece :=
  match Keyword.ofText? (String.ofList word) with
  | some keyword => .lexeme (.keyword keyword) keyword.value? word
  | none => .lexeme .identifier none word

/-- The longest sign at the head of a text. -/
def longestSign? (text : List Char) : Option Sign :=
  Sign.ofSpelling? (text.take 3) <|> Sign.ofSpelling? (text.take 2) <|>
    Sign.ofSpelling? (text.take 1)

/-- The piece at the head of a text that has a first character, and what comes after it. -/
def readPiece (hashComments : Bool) (c : Char) (rest : List Char) :
    Except BrokenPiece (Piece × List Char) :=
  if isBlank c then .ok (.blank (c :: rest.takeWhile isBlank), rest.dropWhile isBlank)
  else
    match readComment? hashComments (c :: rest) with
    | some outcome => outcome
    | none =>
      if c = '"' ∨ c = '\'' then readTextLexeme c rest
      else if c.isDigit then readNumber (c :: rest)
      else if isNameStart c then
        .ok (wordLexeme (c :: rest.takeWhile isNamePart), rest.dropWhile isNamePart)
      else
        match longestSign? (c :: rest) with
        | some sign => .ok (.lexeme (.sign sign) none sign.spelling,
            (c :: rest).drop sign.spelling.length)
        | none => .ok (.lexeme .illegal none [c], rest)

theorem splitBlockEnd?_append {text body rest : List Char}
    (h : splitBlockEnd? text = some (body, rest)) : body ++ rest = text ∧ body ≠ [] := by
  fun_induction splitBlockEnd? text generalizing body with
  | case1 =>
    simp only [Option.some.injEq, Prod.mk.injEq] at h
    obtain ⟨rfl, rfl⟩ := h
    simp
  | case2 c tail hc ih =>
    obtain ⟨parts, hp, heq⟩ := Option.map_eq_some_iff.1 h
    obtain ⟨rfl, rfl⟩ := Prod.mk.inj heq
    simp [(ih hp).1]
  | case3 => simp at h

theorem readComment?_append {hash : Bool} {text rest : List Char} {piece : Piece}
    (h : readComment? hash text = some (.ok (piece, rest))) :
    piece.text ++ rest = text ∧ piece.text ≠ [] := by
  unfold readComment? at h
  split at h
  · simp only [Option.some.injEq, Except.ok.injEq, Prod.mk.injEq] at h
    obtain ⟨rfl, rfl⟩ := h
    constructor
    · simp only [Piece.text, List.takeWhile_append_dropWhile]
    · simp [Piece.text]
  · split at h
    · next hb =>
      simp only [Option.some.injEq, Except.ok.injEq, Prod.mk.injEq] at h
      obtain ⟨rfl, rfl⟩ := h
      simp [Piece.text, (splitBlockEnd?_append hb).1]
    · simp at h
  · split at h
    · simp only [Option.some.injEq, Except.ok.injEq, Prod.mk.injEq] at h
      obtain ⟨rfl, rfl⟩ := h
      constructor
      · simp only [Piece.text, List.takeWhile_append_dropWhile]
      · simp [Piece.text]
    · simp at h
  · simp at h

theorem splitNumber_ne_nil {c : Char} (hc : c.isDigit = true) (rest : List Char) :
    (splitNumber (c :: rest)).1 ≠ [] := by
  unfold splitNumber
  split
  · simp
  · simp [isDecimalPart, hc]

theorem wordLexeme_text (word : List Char) : (wordLexeme word).text = word := by
  unfold wordLexeme
  split <;> rfl

theorem longestSign?_append {text : List Char} {sign : Sign} (h : longestSign? text = some sign) :
    sign.spelling ++ text.drop sign.spelling.length = text := by
  have take_append : ∀ n, Sign.ofSpelling? (text.take n) = some sign →
      sign.spelling ++ text.drop sign.spelling.length = text := by
    intro n hn
    have hs := Sign.spelling_of_ofSpelling? hn
    rw [hs, List.length_take]
    by_cases hle : n ≤ text.length
    · rw [Nat.min_eq_left hle, List.take_append_drop]
    · rw [Nat.min_eq_right (by omega), List.take_of_length_le (by omega)]
      simp
  unfold longestSign? at h
  simp only [Option.orElse_eq_orElse, Option.orElse_eq_or, Option.or_eq_some_iff] at h
  rcases h with h | ⟨_, h | ⟨_, h⟩⟩
  · exact take_append 3 h
  · exact take_append 2 h
  · exact take_append 1 h

/-- A piece and what comes after it are the text that was read. -/
theorem readPiece_append {hash : Bool} {c : Char} {rest after : List Char} {piece : Piece}
    (h : readPiece hash c rest = .ok (piece, after)) :
    piece.text ++ after = c :: rest ∧ piece.text ≠ [] := by
  unfold readPiece at h
  split at h
  · simp only [Except.ok.injEq, Prod.mk.injEq] at h
    obtain ⟨rfl, rfl⟩ := h
    simp [Piece.text]
  · split at h
    · next hcomment =>
      subst h
      exact readComment?_append hcomment
    · split at h
      · unfold readTextLexeme at h
        split at h
        · next hr =>
          simp only [Except.ok.injEq, Prod.mk.injEq] at h
          obtain ⟨rfl, rfl⟩ := h
          simp [Piece.text, readText_closed hr]
        · simp at h
        · simp at h
      · split at h
        · next hd =>
          unfold readNumber at h
          dsimp only at h
          split at h
          · simp only [Except.ok.injEq, Prod.mk.injEq] at h
            obtain ⟨rfl, rfl⟩ := h
            exact ⟨splitNumber_append _, splitNumber_ne_nil hd rest⟩
          · simp at h
        · split at h
          · simp only [Except.ok.injEq, Prod.mk.injEq] at h
            obtain ⟨rfl, rfl⟩ := h
            simp [wordLexeme_text]
          · split at h
            · next sign hs =>
              simp only [Except.ok.injEq, Prod.mk.injEq] at h
              obtain ⟨rfl, rfl⟩ := h
              exact ⟨longestSign?_append hs, sign.spelling_ne_nil⟩
            · simp only [Except.ok.injEq, Prod.mk.injEq] at h
              obtain ⟨rfl, rfl⟩ := h
              simp [Piece.text]

theorem readPiece_shorter {hash : Bool} {c : Char} {rest after : List Char} {piece : Piece}
    (h : readPiece hash c rest = .ok (piece, after)) : after.length < rest.length + 1 := by
  obtain ⟨happ, hne⟩ := readPiece_append h
  have hlen := congrArg List.length happ
  have := List.length_pos_iff.2 hne
  simp only [List.length_append, List.length_cons] at hlen
  omega

/-- A source read from some place on: its pieces, up to its end or to one that is broken. -/
inductive Reading where
  | finished
  | broken (piece : BrokenPiece)
  | piece (first : Piece) (next : Reading)
  deriving Repr

/-- Reads a source piece by piece. -/
def readPieces (hashComments : Bool) : List Char → Reading
  | [] => .finished
  | c :: rest =>
    match h : readPiece hashComments c rest with
    | .error broken => .broken broken
    | .ok (first, after) =>
      have := readPiece_shorter h
      .piece first (readPieces hashComments after)
termination_by text => text.length

namespace Reading

/-- The characters of the pieces that were read. -/
def text : Reading → List Char
  | finished => []
  | broken _ => []
  | piece first next => first.text ++ next.text

/-- Whether all of the source was read. -/
def isComplete : Reading → Bool
  | finished => true
  | broken _ => false
  | piece _ next => next.isComplete

/-- Whether white space or the end comes next. -/
def startsBlank : Reading → Bool
  | finished => true
  | piece (.blank _) _ => true
  | _ => false

end Reading

/-- The pieces of a source that can be read are the source. -/
theorem text_readPieces {hash : Bool} {source : List Char}
    (h : (readPieces hash source).isComplete = true) : (readPieces hash source).text = source := by
  fun_induction readPieces hash source with
  | case1 => rfl
  | case2 => simp [Reading.isComplete] at h
  | case3 c rest first after hp _ ih =>
    simp [Reading.text, ih h, (readPiece_append hp).1]

end TodLang
