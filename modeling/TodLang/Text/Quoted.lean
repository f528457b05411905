import TodLang.Text.Printable
/-!
Texts shown between double quotes. A character stands for itself if it can be shown; otherwise it
has a short form after a backslash or is written by its code point.
-/

namespace TodLang

/-- The letter that stands for a character after a backslash, if it has one. -/
def shortEscape? (c : Char) : Option Char :=
  if c = '\x00' then some '0'
  else if c = '\t' then some 't'
  else if c = '\r' then some 'r'
  else if c = '\n' then some 'n'
  else if c = '"' then some '"'
  else if c = '\\' then some '\\'
  else none

/-- One character as it stands between double quotes. -/
def quotedChar (c : Char) : List Char :=
  match shortEscape? c with
  | some letter => ['\\', letter]
  | none =>
    if isShown c then [c]
    else '\\' :: 'u' :: '\x7b' :: (Nat.toDigits 16 c.toNat ++ ['\x7d'])

/-- A text between double quotes. -/
def quoted (text : String) : String :=
  String.ofList ('"' :: (text.toList.flatMap quotedChar ++ ['"']))

theorem quotedChar_of_shown {c : Char} (hc : isShown c = true) (hs : shortEscape? c = none) :
    quotedChar c = [c] := by
  simp [quotedChar, hs, hc]

end TodLang
