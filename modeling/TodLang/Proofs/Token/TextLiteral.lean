import TodLang.Proofs.Token.Scanned
/-!
Text literals. The characters between two quotes encode a text: each stands for itself or, behind a
backslash, for what the escape means. Behind an opening quote the literal is closed by the first
quote that no backslash escapes, unless an unknown escape or the end of the source comes first
(`readText_eq_iff`). The main statement says this of the scanner, with the token or the error and
the region of each (`scanPiece_text`).
-/

namespace TodLang

/-- What may stand behind a backslash in a text, each with its meaning there. -/
def escapes : List (Char × Char) :=
  [('n', '\n'), ('t', '\t'), ('r', '\r'), ('0', '\x00'), ('\\', '\\'), ('"', '"'), ('\'', '\'')]

theorem escapeMeaning?_eq_some_iff {letter meaning : Char} :
    escapeMeaning? letter = some meaning ↔ (letter, meaning) ∈ escapes := by
  constructor
  · intro h
    unfold escapeMeaning? at h
    split at h
    case h_8 => cases h
    all_goals
      cases h
      decide
  · intro h
    simp only [escapes, List.mem_cons, Prod.mk.injEq, List.not_mem_nil, or_false] at h
    rcases h with ⟨rfl, rfl⟩ | ⟨rfl, rfl⟩ | ⟨rfl, rfl⟩ | ⟨rfl, rfl⟩ | ⟨rfl, rfl⟩ | ⟨rfl, rfl⟩ |
      ⟨rfl, rfl⟩ <;> rfl

theorem escapeMeaning?_eq_none_iff {letter : Char} :
    escapeMeaning? letter = none ↔ ∀ meaning, (letter, meaning) ∉ escapes := by
  simp only [Option.eq_none_iff_forall_ne_some, ne_eq, escapeMeaning?_eq_some_iff]

/-- Between two quotes, the first characters stand for the second ones. -/
inductive Encodes (quote : Char) : List Char → List Char → Prop
  | nil : Encodes quote [] []
  | plain {c : Char} {written value : List Char} (hquote : c ≠ quote) (hslash : c ≠ '\\')
      (h : Encodes quote written value) : Encodes quote (c :: written) (c :: value)
  | escape {letter meaning : Char} {written value : List Char}
      (hletter : (letter, meaning) ∈ escapes) (h : Encodes quote written value) :
      Encodes quote ('\\' :: letter :: written) (meaning :: value)

/-- What comes first behind an opening quote: the closing quote, an unknown escape, or the end, at
which a backslash may be left. -/
inductive TextEnd.Reached (quote : Char) : List Char → TextEnd → Prop
  | closed {written value : List Char} (rest : List Char) (h : Encodes quote written value) :
      Reached quote (written ++ quote :: rest) (.closed value (written ++ [quote]) rest)
  | unknownEscape {written value : List Char} {letter : Char} (rest : List Char)
      (h : Encodes quote written value) (hletter : ∀ meaning, (letter, meaning) ∉ escapes) :
      Reached quote (written ++ '\\' :: letter :: rest) (.unknownEscape (written ++ ['\\']) letter)
  | missing {written value : List Char} (h : Encodes quote written value) :
      Reached quote written .missing
  | missingLetter {written value : List Char} (h : Encodes quote written value) :
      Reached quote (written ++ ['\\']) .missing

/-- The outcome if more characters, written in some way, stand in front. -/
def TextEnd.prepend (values spelling : List Char) : TextEnd → TextEnd
  | closed tail written rest => closed (values ++ tail) (spelling ++ written) rest
  | missing => missing
  | unknownEscape written letter => unknownEscape (spelling ++ written) letter

theorem TextEnd.prepend_nil (r : TextEnd) : r.prepend [] [] = r := by
  cases r <;> rfl

theorem TextEnd.push_prepend (r : TextEnd) (c : Char) (spelling values written : List Char) :
    (r.prepend values written).push c spelling = r.prepend (c :: values) (spelling ++ written) := by
  cases r <;> simp [push, prepend]

section

variable {quote : Char}

theorem Encodes.append {front back value tail : List Char} (hfront : Encodes quote front value)
    (hback : Encodes quote back tail) : Encodes quote (front ++ back) (value ++ tail) := by
  induction hfront with
  | nil => exact hback
  | plain hquote hslash _ ih => exact .plain hquote hslash ih
  | escape hletter _ ih => exact .escape hletter ih

/-- What encodes one character may stand in front of what comes first. -/
theorem TextEnd.Reached.push {spelling text : List Char} {c : Char} {r : TextEnd}
    (hc : Encodes quote spelling [c]) (h : Reached quote text r) :
    Reached quote (spelling ++ text) (r.push c spelling) := by
  cases h with
  | closed rest h =>
    rw [← List.append_assoc, TextEnd.push, ← List.append_assoc]
    exact .closed rest (hc.append h)
  | unknownEscape rest h hletter =>
    rw [← List.append_assoc, TextEnd.push, ← List.append_assoc]
    exact .unknownEscape rest (hc.append h) hletter
  | missing h => exact .missing (hc.append h)
  | missingLetter h =>
    rw [← List.append_assoc]
    exact .missingLetter (hc.append h)

theorem readText_reached (text : List Char) : TextEnd.Reached quote text (readText quote text) := by
  fun_induction readText quote text with
  | case1 => exact .missing .nil
  | case2 rest => exact .closed rest .nil
  | case3 => exact .missingLetter .nil
  | case4 letter rest meaning hmeaning _ ih =>
    exact .push (.escape (escapeMeaning?_eq_some_iff.1 hmeaning) .nil) ih
  | case5 letter rest hnone => exact .unknownEscape rest .nil (escapeMeaning?_eq_none_iff.1 hnone)
  | case6 c rest hquote hslash ih => exact .push (.plain hquote hslash .nil) ih

/-- The reader goes over what encodes a text. -/
theorem Encodes.readText_append {written value : List Char} (hquote : quote ≠ '\\')
    (h : Encodes quote written value) (text : List Char) :
    readText quote (written ++ text) = (readText quote text).prepend value written := by
  induction h with
  | nil => rw [List.nil_append, TextEnd.prepend_nil]
  | @plain c written value hc hslash h ih =>
    rw [List.cons_append, readText.eq_def]
    simp only [hc, hslash, if_false, ih, TextEnd.push_prepend, List.singleton_append]
  | @escape letter meaning written value hletter h ih =>
    rw [List.cons_append, List.cons_append, readText.eq_def]
    simp only [Ne.symm hquote, if_false, if_true, escapeMeaning?_eq_some_iff.2 hletter, ih,
      TextEnd.push_prepend, List.cons_append, List.nil_append]

/-- A text literal is read as what comes first behind its opening quote. -/
theorem readText_eq_iff (hquote : quote ≠ '\\') {text : List Char} {r : TextEnd} :
    readText quote text = r ↔ TextEnd.Reached quote text r := by
  constructor
  · rintro rfl
    exact readText_reached text
  · intro h
    cases h with
    | closed rest h =>
      rw [h.readText_append hquote, readText.eq_def]
      simp [TextEnd.prepend]
    | unknownEscape rest h hletter =>
      rw [h.readText_append hquote, readText.eq_def]
      simp [Ne.symm hquote, escapeMeaning?_eq_none_iff.2 hletter, TextEnd.prepend]
    | missing h =>
      have hread := h.readText_append hquote []
      rwa [List.append_nil] at hread
    | missingLetter h =>
      rw [h.readText_append hquote, readText.eq_def]
      simp [Ne.symm hquote, TextEnd.prepend]

end

/-! ### The scanner at a quote -/

/-- What the scanner makes of a quote at a place and the characters behind it. -/
structure ScansText (quote : Char) (file : Nat) (place : Position) (rest : List Char)
    (outcome : Except LexicalError Scanned) : Prop where
  /-- A token, from quote to quote, exactly if the quote comes back first. -/
  closed (scanned : Scanned) : outcome = .ok scanned ↔
    ∃ written value after, Encodes quote written value ∧ rest = written ++ quote :: after ∧
      scanned = .lexeme file place .text (some (.text (String.ofList value)))
        (quote :: (written ++ [quote])) after
  /-- An unknown escape, at the character behind the backslash, exactly if one comes first. -/
  unknownEscape (letter : Char) (span : Span) : outcome = .error ⟨.unknownEscape letter, span⟩ ↔
    ∃ written value after, Encodes quote written value ∧
      rest = written ++ '\\' :: letter :: after ∧ (∀ meaning, (letter, meaning) ∉ escapes) ∧
      span = Span.between file (place.advance (quote :: (written ++ ['\\'])))
        (place.advance (quote :: (written ++ ['\\', letter])))
  /-- A text without an end, from the quote to the end of the source, exactly if that comes first,
  perhaps behind one more backslash. -/
  unterminated (span : Span) : outcome = .error ⟨.unterminatedText, span⟩ ↔
    (∃ written value, Encodes quote written value ∧ (rest = written ∨ rest = written ++ ['\\'])) ∧
      span = Span.between file place (place.advance (quote :: rest))
  noOther (e : LexicalError) : outcome = .error e →
    e.fault = .unterminatedText ∨ ∃ letter, e.fault = .unknownEscape letter

/-- What is scanned at a quote, by what the reader of texts comes to. -/
theorem scanPiece_quote {quote : Char} (hquote : quote = '"' ∨ quote = '\'') (hash : Bool)
    (file : Nat) (place : Position) (rest : List Char) :
    scanPiece hash file place quote rest =
      match readText quote rest with
      | .closed value written after =>
        .ok (.lexeme file place .text (some (.text (String.ofList value))) (quote :: written) after)
      | .unknownEscape written letter =>
        .error ⟨.unknownEscape letter, Span.between file (place.advance (quote :: written))
          (place.advance (quote :: (written ++ [letter])))⟩
      | .missing =>
        .error ⟨.unterminatedText, Span.between file place (place.advance (quote :: rest))⟩ := by
  rw [scanPiece, readPiece_quote hquote, readTextLexeme]
  cases readText quote rest with
  | closed => rfl
  | missing => rfl
  | unknownEscape written letter =>
    have happend : place.advance (quote :: (written ++ [letter])) =
        (place.advance (quote :: written)).advance [letter] :=
      Position.advance_append place (quote :: written) [letter]
    dsimp only
    rw [happend]
    rfl

theorem scansText {quote : Char} (hquote : quote = '"' ∨ quote = '\'') (hash : Bool) (file : Nat)
    (place : Position) (rest : List Char) :
    ScansText quote file place rest (scanPiece hash file place quote rest) := by
  have hslash : quote ≠ '\\' := by rcases hquote with rfl | rfl <;> decide
  rw [scanPiece_quote hquote]
  constructor
  case closed =>
    intro scanned
    constructor
    · intro h
      cases hread : readText quote rest with
      | closed value written after =>
        rw [hread] at h
        cases h
        cases (readText_eq_iff hslash).1 hread with
        | closed _ hencodes => exact ⟨_, _, _, hencodes, rfl, rfl⟩
      | missing | unknownEscape =>
        rw [hread] at h
        cases h
    · rintro ⟨written, value, after, hencodes, rfl, rfl⟩
      rw [(readText_eq_iff hslash).2 (.closed after hencodes)]
  case unknownEscape =>
    intro letter span
    constructor
    · intro h
      cases hread : readText quote rest with
      | unknownEscape written letter =>
        rw [hread] at h
        cases h
        cases (readText_eq_iff hslash).1 hread with
        | unknownEscape after hencodes hletter =>
          exact ⟨_, _, after, hencodes, rfl, hletter, by simp⟩
      | missing | closed =>
        rw [hread] at h
        cases h
    · rintro ⟨written, value, after, hencodes, rfl, hletter, rfl⟩
      rw [(readText_eq_iff hslash).2 (.unknownEscape after hencodes hletter)]
      simp
  case unterminated =>
    intro span
    constructor
    · intro h
      cases hread : readText quote rest with
      | missing =>
        rw [hread] at h
        cases h
        refine ⟨?_, rfl⟩
        cases (readText_eq_iff hslash).1 hread with
        | missing hencodes => exact ⟨_, _, hencodes, .inl rfl⟩
        | missingLetter hencodes => exact ⟨_, _, hencodes, .inr rfl⟩
      | closed | unknownEscape =>
        rw [hread] at h
        cases h
    · rintro ⟨⟨written, value, hencodes, rfl | rfl⟩, rfl⟩
      · rw [(readText_eq_iff hslash).2 (.missing hencodes)]
      · rw [(readText_eq_iff hslash).2 (.missingLetter hencodes)]
  case noOther =>
    intro e h
    cases hread : readText quote rest with
    | closed =>
      rw [hread] at h
      cases h
    | missing =>
      rw [hread] at h
      cases h
      exact .inl rfl
    | unknownEscape _ letter =>
      rw [hread] at h
      cases h
      exact .inr ⟨letter, rfl⟩

/-- Every text can be written between two quotes of either sort. -/
theorem exists_encodes {quote : Char} (hquote : quote = '"' ∨ quote = '\'') (value : List Char) :
    ∃ written, Encodes quote written value := by
  induction value with
  | nil => exact ⟨[], .nil⟩
  | cons c value ih =>
    obtain ⟨written, hwritten⟩ := ih
    by_cases hc : c = quote ∨ c = '\\'
    · have hescape : (c, c) ∈ escapes := by
        rcases hc with rfl | rfl
        · rcases hquote with rfl | rfl <;> decide
        · decide
      exact ⟨_, .escape hescape hwritten⟩
    · rw [not_or] at hc
      exact ⟨_, .plain hc.1 hc.2 hwritten⟩

/-- A quote of either sort, anywhere in a source, begins a text that is read as its characters say.
Every text is the value of some literal between such quotes. -/
theorem scanPiece_text {quote : Char} (hquote : quote = '"' ∨ quote = '\'') (hash : Bool)
    (file : Nat) :
    (∀ place rest, ScansText quote file place rest (scanPiece hash file place quote rest)) ∧
      ∀ value : String, ∃ body,
        let literal := quote :: (body ++ [quote])
        tokenize file hash (String.ofList literal) =
          .ok [{ kind := .text, literal := String.ofList literal, value := some (.text value),
                 span := Span.between file Position.start (Position.start.advance literal),
                 spaceAfter := true },
               Token.ending (Span.point file (Position.start.advance literal))] := by
  refine ⟨scansText hquote hash file, fun value => ?_⟩
  obtain ⟨written, hencodes⟩ := exists_encodes hquote value.toList
  have hscan := ((scansText hquote hash file Position.start (written ++ [quote])).closed _).2
    ⟨written, value.toList, [], hencodes, rfl, rfl⟩
  rw [String.ofList_toList] at hscan
  exact ⟨written, tokenize_of_lexeme hscan⟩

/-- The other sort of quote is a character like others, and a backslash may stand in front of a
backslash or of the quote; behind the last one there is no letter. -/
theorem scanPiece_text_apostrophe :
    scanPiece true 0 ⟨3, 1, 4⟩ '\'' "\"\\\\\\'\\0'+".toList =
        .ok (.lexeme 0 ⟨3, 1, 4⟩ .text (some (.text "\"\\'\x00")) "'\"\\\\\\'\\0'".toList ['+']) ∧
      scanPiece true 0 ⟨3, 1, 4⟩ '\'' "\\q'".toList =
        .error ⟨.unknownEscape 'q', ⟨0, 5, 6, 1, 6, 1, 7⟩⟩ ∧
      scanPiece true 0 ⟨3, 1, 4⟩ '\'' "a\n\\".toList =
        .error ⟨.unterminatedText, ⟨0, 3, 7, 1, 4, 2, 2⟩⟩ ∧
      (∀ place rest, ScansText '\'' 0 place rest (scanPiece true 0 place '\'' rest)) ∧
      ∃ body,
        let literal := '\'' :: (body ++ ['\''])
        tokenize 0 true (String.ofList literal) =
          .ok [⟨.text, String.ofList literal, some (.text "\\"),
                 Span.between 0 Position.start (Position.start.advance literal), true⟩,
               Token.ending (Span.point 0 (Position.start.advance literal))] := by
  obtain ⟨hscans, hvalue⟩ := scanPiece_text (.inr rfl) true 0
  exact ⟨by decide +kernel, by decide +kernel, by decide +kernel, hscans, hvalue "\\"⟩

end TodLang
