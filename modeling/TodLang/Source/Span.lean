/-!
Places in a source text. A position counts bytes, lines and characters at once; a span is the
region between two positions of one file. The main fact is that a position is determined by the
text before it: walking over two pieces of text in turn is walking over both together.
-/

namespace TodLang

/-- A place in a text: bytes before it, its line, and its column in characters. -/
structure Position where
  offset : Nat
  line : Nat
  column : Nat
  deriving DecidableEq, Repr, Inhabited

namespace Position

/-- The place before the first character: lines and columns count from one. -/
def start : Position := ⟨0, 1, 1⟩

/-- The place after one more character; a line feed opens the next line. -/
def next (p : Position) (c : Char) : Position :=
  if c = '\n' then ⟨p.offset + c.utf8Size, p.line + 1, 1⟩
  else ⟨p.offset + c.utf8Size, p.line, p.column + 1⟩

/-- The place after a piece of text. -/
def advance (p : Position) (text : List Char) : Position :=
  text.foldl next p

@[simp] theorem advance_nil (p : Position) : p.advance [] = p := rfl

@[simp] theorem advance_cons (p : Position) (c : Char) (text : List Char) :
    p.advance (c :: text) = (p.next c).advance text := rfl

theorem advance_append (p : Position) (front back : List Char) :
    p.advance (front ++ back) = (p.advance front).advance back := by
  simp [advance]

end Position

/-- A region of one file. Bytes and columns stop before `stop` and `stopColumn`. -/
structure Span where
  file : Nat
  start : Nat
  stop : Nat
  startLine : Nat
  startColumn : Nat
  stopLine : Nat
  stopColumn : Nat
  deriving DecidableEq, Repr, Inhabited

namespace Span

/-- A region does not stop before it starts. -/
def Valid (s : Span) : Prop :=
  s.start ≤ s.stop

/-- The region of a text that is not there. -/
def none : Span := ⟨0, 0, 0, 0, 0, 0, 0⟩

/-- A region with the given ends; an end before the start is moved up to it. -/
def make (file start stop startLine startColumn stopLine stopColumn : Nat) : Span :=
  ⟨file, start, max stop start, startLine, startColumn, stopLine, stopColumn⟩

/-- The region between two places of a file. -/
def between (file : Nat) (first last : Position) : Span :=
  make file first.offset last.offset first.line first.column last.line last.column

/-- The empty region at one place of a file. -/
def point (file : Nat) (place : Position) : Span :=
  between file place place

/-- The empty region where a region stops. -/
def finish (s : Span) : Span :=
  point s.file ⟨s.stop, s.stopLine, s.stopColumn⟩

/-- The smallest region that covers both: it starts where the earlier one starts and stops where
the later one stops, and on a tie the first one counts. -/
def cover (a b : Span) : Span :=
  let first := if b.start < a.start then b else a
  let last := if b.stop > a.stop then b else a
  { file := first.file
    start := first.start
    stop := last.stop
    startLine := first.startLine
    startColumn := first.startColumn
    stopLine := last.stopLine
    stopColumn := last.stopColumn }

/-- How many bytes the region has. -/
def length (s : Span) : Nat :=
  s.stop - s.start

/-- Whether the region has no bytes. -/
def isEmpty (s : Span) : Bool :=
  s.start == s.stop

/-- Whether the second region lies inside the first. -/
def contains (outer inner : Span) : Bool :=
  outer.start ≤ inner.start && inner.stop ≤ outer.stop

theorem make_valid (file start stop startLine startColumn stopLine stopColumn : Nat) :
    (make file start stop startLine startColumn stopLine stopColumn).Valid :=
  Nat.le_max_right stop start

theorem cover_start (a b : Span) : (a.cover b).start = min a.start b.start := by
  unfold cover
  dsimp only
  split <;> omega

theorem cover_stop (a b : Span) : (a.cover b).stop = max a.stop b.stop := by
  unfold cover
  dsimp only
  split <;> omega

theorem contains_iff (outer inner : Span) :
    outer.contains inner = true ↔ outer.start ≤ inner.start ∧ inner.stop ≤ outer.stop := by
  simp [contains]

theorem cover_contains_left (a b : Span) : (a.cover b).contains a = true := by
  rw [contains_iff, cover_start, cover_stop]
  omega

theorem cover_contains_right (a b : Span) : (a.cover b).contains b = true := by
  rw [contains_iff, cover_start, cover_stop]
  omega

end Span

end TodLang
