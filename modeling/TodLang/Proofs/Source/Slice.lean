import Mathlib.Data.List.Induction
import Mathlib.Data.String.Basic
import TodLang.Source.Span
/-!
Places in a source, read off the source itself. A byte offset has a line and a column: the line
feeds before it, and the characters since the last of them. The main fact is that walking over a
text arrives at the place that its end has by this rule.
-/

namespace TodLang

/-- The text between two byte offsets of a source. -/
def slice (source : String) (start stop : Nat) : String :=
  String.Pos.Raw.extract source ⟨start⟩ ⟨stop⟩

/-- The character that begins at a byte offset of a source, if one does. -/
def charAt? (source : String) (offset : Nat) : Option Char :=
  String.Pos.Raw.get? source ⟨offset⟩

/-- Line feeds before an offset, and one more. -/
def lineAt (source : String) (offset : Nat) : Nat :=
  1 + (slice source 0 offset).toList.count '\n'

/-- Characters between the last line feed before an offset and the offset, and one more. -/
def columnAt (source : String) (offset : Nat) : Nat :=
  1 + ((slice source 0 offset).toList.reverse.takeWhile (· ≠ '\n')).length

/-- A region of a source: its ends lie between characters and in order, and its lines and columns
are those of its ends. -/
structure Span.PlacedIn (file : Nat) (source : String) (s : Span) : Prop where
  file_eq : s.file = file
  start_valid : (⟨s.start⟩ : String.Pos.Raw).IsValid source
  stop_valid : (⟨s.stop⟩ : String.Pos.Raw).IsValid source
  start_le_stop : s.start ≤ s.stop
  startLine_eq : s.startLine = lineAt source s.start
  startColumn_eq : s.startColumn = columnAt source s.start
  stopLine_eq : s.stopLine = lineAt source s.stop
  stopColumn_eq : s.stopColumn = columnAt source s.stop

theorem slice_append (front middle back : List Char) :
    slice (String.ofList (front ++ middle ++ back)) (String.utf8Len front)
      (String.utf8Len front + String.utf8Len middle) = String.ofList middle :=
  String.extract_of_valid front middle back

theorem slice_zero_append (front back : List Char) :
    slice (String.ofList (front ++ back)) 0 (String.utf8Len front) = String.ofList front := by
  simpa using slice_append [] front back

theorem charAt?_append (front back : List Char) :
    charAt? (String.ofList (front ++ back)) (String.utf8Len front) = back.head? :=
  String.get?_of_valid front back

theorem isValid_append (front back : List Char) :
    (⟨String.utf8Len front⟩ : String.Pos.Raw).IsValid (String.ofList (front ++ back)) := by
  rw [String.Pos.Raw.isValid_iff_exists_append]
  exact ⟨String.ofList front, String.ofList back, String.ofList_append,
    (String.rawEndPos_ofList front).symm⟩

namespace Position

/-- Walking over a text from the start of a source arrives where the text ends. -/
theorem start_advance (text : List Char) :
    start.advance text =
      { offset := String.utf8Len text
        line := 1 + text.count '\n'
        column := 1 + (text.reverse.takeWhile (· ≠ '\n')).length } := by
  induction text using List.reverseRecOn with
  | nil => rfl
  | append_singleton text c ih =>
    rw [advance_append, ih]
    by_cases hc : c = '\n'
    · subst hc
      simp [next, Nat.add_assoc]
    · have hcount : [c].count '\n' = 0 := List.count_eq_zero.2 (by simpa using Ne.symm hc)
      simp [next, hc, hcount, Nat.add_comm]

end Position

/-- The place after the front of a source has the line and the column of its offset. -/
theorem start_advance_append (front back : List Char) :
    Position.start.advance front =
      { offset := String.utf8Len front
        line := lineAt (String.ofList (front ++ back)) (String.utf8Len front)
        column := columnAt (String.ofList (front ++ back)) (String.utf8Len front) } := by
  rw [Position.start_advance, lineAt, columnAt, slice_zero_append, String.toList_ofList]

/-- The region between the places before and after a part of a source. -/
theorem between_placedIn (file : Nat) (front middle back : List Char) :
    (Span.between file (Position.start.advance front)
      (Position.start.advance (front ++ middle))).PlacedIn file
        (String.ofList (front ++ middle ++ back)) := by
  have hstart := start_advance_append front (middle ++ back)
  have hstop := start_advance_append (front ++ middle) back
  rw [← List.append_assoc] at hstart
  have hle : String.utf8Len front ≤ String.utf8Len (front ++ middle) := by simp
  rw [hstart, hstop]
  simp only [Span.between, Span.make, Nat.max_eq_left hle]
  refine ⟨rfl, ?_, isValid_append _ _, hle, rfl, rfl, rfl, rfl⟩
  rw [List.append_assoc]
  exact isValid_append _ _

end TodLang
