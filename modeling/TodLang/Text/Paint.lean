/-!
Terminal colours. A painted text stands between the sequence that sets the colour and the one that
takes it back; without colours it is left as it is.
-/

namespace TodLang

/-- The colours in use, by their numbers in the terminal's palette. -/
inductive Ink where
  | red
  | yellow
  | cyan
  deriving DecidableEq, Repr

namespace Ink

def code : Ink → String
  | red => "9"
  | yellow => "11"
  | cyan => "14"

/-- The sequence from which on text has the colour. -/
def opening (ink : Ink) : String :=
  "\x1b[38;5;" ++ ink.code ++ "m"

/-- A text in the colour, if colours are wanted. -/
def paint (ink : Ink) (color : Bool) (text : String) : String :=
  if color then ink.opening ++ text ++ "\x1b[39m" else text

/-- A text in the colour and in bold, if colours are wanted. -/
def paintBold (ink : Ink) (color : Bool) (text : String) : String :=
  if color then ink.opening ++ "\x1b[1m" ++ text ++ "\x1b[0m" else text

@[simp] theorem paint_false (ink : Ink) (text : String) : ink.paint false text = text := rfl

@[simp] theorem paintBold_false (ink : Ink) (text : String) : ink.paintBold false text = text := rfl

end Ink

end TodLang
