import TodLang.Token.Basic
/-!
Literals: how far a number or a text reaches and what value it has. Underscores between the
digits of a number count for nothing. A text ends at the quote that opened it, and a backslash
gives the next character a meaning of its own.
-/

namespace TodLang

/-- A number that fits the integers of the language: below `2 ^ 63`. -/
def integerLimit : Nat := Nat.pow 2 63

/-- The base that a number announces by its first two characters. -/
def baseMark? : List Char → Option Nat
  | '0' :: 'x' :: _ | '0' :: 'X' :: _ => some 16
  | '0' :: 'b' :: _ | '0' :: 'B' :: _ => some 2
  | _ => none

/-- What a number with a base mark is made of. All letters belong to it, so that a digit that is
too large is a fault of the number and not the start of another token. -/
def isBasedPart (c : Char) : Bool :=
  c.isAlphanum || c == '_'

/-- What a number without a base mark is made of. -/
def isDecimalPart (c : Char) : Bool :=
  c.isDigit || c == '.' || c == '_'

/-- The number at the head of a text, and what comes after it. -/
def splitNumber (text : List Char) : List Char × List Char :=
  match baseMark? text with
  | some _ =>
    (text.take 2 ++ (text.drop 2).takeWhile isBasedPart, (text.drop 2).dropWhile isBasedPart)
  | none => (text.takeWhile isDecimalPart, text.dropWhile isDecimalPart)

/-- What a digit or a letter is worth as a digit. -/
def digitWeight? (c : Char) : Option Nat :=
  if c.isDigit then some (c.toNat - '0'.toNat)
  else if c.isLower then some (c.toNat - 'a'.toNat + 10)
  else if c.isUpper then some (c.toNat - 'A'.toNat + 10)
  else none

/-- The number that is one digit longer. -/
def appendDigit? (base : Nat) (number : Nat) (c : Char) : Option Nat :=
  match digitWeight? c with
  | some weight => if weight < base then some (number * base + weight) else none
  | none => none

/-- The natural number that some digits of a base spell. There has to be one. -/
def naturalValue? (base : Nat) (digits : List Char) : Option Nat :=
  if digits.isEmpty then none else digits.foldlM (appendDigit? base) 0

/-- The value of an integer. -/
def integerValue? (base : Nat) (digits : List Char) : Option Value :=
  match naturalValue? base digits with
  | some number => if number < integerLimit then some (.integer number) else none
  | none => none

/-- The value of a number with one point. -/
def decimalValue? (digits : List Char) : Option Value :=
  let whole := digits.takeWhile (· ≠ '.')
  let fraction := (digits.dropWhile (· ≠ '.')).drop 1
  (naturalValue? 10 (whole ++ fraction)).map fun number =>
    .decimal (Binary64.ofDecimal number fraction.length)

/-- The two kinds of numbers. -/
inductive NumberForm where
  | integer
  | decimal
  deriving DecidableEq, Repr

/-- A number is a decimal if it has a point and no base mark. -/
def numberForm (run : List Char) : NumberForm :=
  if (baseMark? run).isNone && run.contains '.' then .decimal else .integer

/-- The value of a number as it is written, if it has one. -/
def numberValue? (run : List Char) : Option Value :=
  let digits := run.filter (· ≠ '_')
  match baseMark? run, numberForm run with
  | some base, _ => integerValue? base ((run.drop 2).filter (· ≠ '_'))
  | none, .decimal => decimalValue? digits
  | none, .integer => integerValue? 10 digits

theorem splitNumber_append (text : List Char) :
    (splitNumber text).1 ++ (splitNumber text).2 = text := by
  unfold splitNumber
  split
  · simp
  · simp

/-- The character that a backslash gives to the one after it. -/
def escapeMeaning? : Char → Option Char
  | 'n' => some '\n'
  | 't' => some '\t'
  | 'r' => some '\r'
  | '0' => some '\x00'
  | '\\' => some '\\'
  | '"' => some '"'
  | '\'' => some '\''
  | _ => none

/-- What reading a text literal from behind its opening quote comes to. -/
inductive TextEnd where
  /-- The closing quote was found: the value, the characters up to the quote, what follows. -/
  | closed (value written rest : List Char)
  /-- The source ends first. -/
  | missing
  /-- A backslash stands before a character that it gives no meaning. -/
  | unknownEscape (written : List Char) (escape : Char)
  deriving DecidableEq, Repr

namespace TextEnd

/-- The outcome if one more character, written in some way, stands in front. -/
def push (value : Char) (spelling : List Char) : TextEnd → TextEnd
  | closed values written rest => closed (value :: values) (spelling ++ written) rest
  | missing => missing
  | unknownEscape written escape => unknownEscape (spelling ++ written) escape

theorem push_eq_closed {c : Char} {spelling values written rest : List Char} {r : TextEnd}
    (h : r.push c spelling = .closed values written rest) :
    ∃ tail back, r = .closed tail back rest ∧ values = c :: tail ∧ written = spelling ++ back := by
  cases r with
  | closed tail back others =>
    simp only [push, closed.injEq] at h
    obtain ⟨rfl, rfl, rfl⟩ := h
    exact ⟨tail, back, rfl, rfl, rfl⟩
  | missing => simp [push] at h
  | unknownEscape => simp [push] at h

end TextEnd

/-- Reads a text literal from behind its opening quote. -/
def readText (quote : Char) : List Char → TextEnd
  | [] => .missing
  | c :: rest =>
    if c = quote then .closed [] [c] rest
    else if c = '\\' then
      match rest with
      | [] => .missing
      | escape :: rest =>
        match escapeMeaning? escape with
        | some value => (readText quote rest).push value [c, escape]
        | none => .unknownEscape [c] escape
    else (readText quote rest).push c [c]

theorem readText_closed {quote : Char} {text value written rest : List Char}
    (h : readText quote text = .closed value written rest) : written ++ rest = text := by
  fun_induction readText quote text generalizing value written with
  | case1 => simp at h
  | case2 =>
    simp only [TextEnd.closed.injEq] at h
    obtain ⟨_, rfl, rfl⟩ := h
    rfl
  | case3 => simp at h
  | case4 _ _ _ _ _ ih =>
    obtain ⟨tail, back, hr, _, rfl⟩ := TextEnd.push_eq_closed h
    simp [ih hr]
  | case5 => simp at h
  | case6 _ _ _ _ ih =>
    obtain ⟨tail, back, hr, _, rfl⟩ := TextEnd.push_eq_closed h
    simp [ih hr]

end TodLang
