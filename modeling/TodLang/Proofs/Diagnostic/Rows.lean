import Mathlib.Data.String.Basic
import TodLang.Diagnostic
import TodLang.Proofs.Source.Lines
/-!
The rows of a report. If a source has the line of a fault, the report ends in two rows: the line
behind its number, and carets below it. The rows are characters here, so that those of the lower row
can be held against those of the upper one.
-/

namespace TodLang

/-- What stands in front of a line in a report. -/
def gutter (number : Nat) : List Char :=
  [' ', ' '] ++ (toString number).toList ++ [' ', '|', ' ']

/-- What stands in front of carets in a report, below the number of a line and the front of it. -/
def margin (number before : Nat) : List Char :=
  [' ', ' '] ++ List.replicate (toString number).length ' ' ++ [' ', '|', ' '] ++
    List.replicate before ' '

theorem feed_notMem_gutter (number : Nat) : '\n' ∉ gutter number := by
  have hdigits : '\n' ∉ Nat.toDigits 10 number := by
    intro hmem
    have hdigit := Nat.isDigit_of_mem_toDigits (by decide) (by decide) hmem
    cases hdigit
  simp [gutter, hdigits]

theorem mem_margin {number before : Nat} {c : Char} (h : c ∈ margin number before) :
    c = ' ' ∨ c = '|' := by
  simp only [margin, List.mem_append, List.mem_replicate, List.mem_cons, List.not_mem_nil] at h
  tauto

/-- The margin is as wide as the gutter and what stands in front of the carets on the line. -/
theorem length_margin (number : Nat) (before : List Char) :
    (margin number before.length).length = (gutter number ++ before).length := by
  simp only [margin, gutter, List.length_append, List.length_replicate, String.length_toList]

namespace Diagnostic

theorem caretCount_pos (span : Span) : 0 < caretCount span := by
  unfold caretCount
  split
  · exact Nat.one_pos
  · exact Nat.lt_of_lt_of_le Nat.one_pos (Nat.le_max_right _ _)

theorem excerpt_eq_rows (span : Span) (line : List Char) (color : Bool) :
    excerpt span (String.ofList line) color =
      "\n" ++ String.ofList (gutter span.startLine ++ line) ++ "\n" ++
        String.ofList (margin span.startLine (span.startColumn - 1)) ++
          Ink.red.paint color (String.ofList (List.replicate (caretCount span) '^')) := by
  rw [← String.toList_inj]
  simp [excerpt, gutter, margin, repeated]

/-- A report about a fault that begins on a line of its source shows the line. -/
theorem render_of_line {d : Diagnostic} {sources : Sources} {file : SourceFile} (l : Line)
    (hfile : sources.file? d.span.file = some file) (htext : l.text = file.text.toList)
    (hnumber : l.number = d.span.startLine) (color : Bool) :
    d.render sources color =
      d.paintedHeader sources color ++ "\n" ++ String.ofList (gutter l.number ++ l.shown) ++ "\n" ++
        String.ofList (margin l.number (d.span.startColumn - 1)) ++
          Ink.red.paint color (String.ofList (List.replicate (caretCount d.span) '^')) := by
  have hline : sources.line? d.span.file d.span.startLine = some (String.ofList l.shown) := by
    rw [Sources.line?, hfile, Option.bind_some, ← hnumber, l.line?_number htext]
  rw [render, hline, hnumber]
  simp only [excerpt_eq_rows, String.append_assoc]

@[simp] theorem paintedHeader_false (d : Diagnostic) (sources : Sources) :
    d.paintedHeader sources false = d.header sources := by
  unfold paintedHeader
  split <;> rfl

end Diagnostic

end TodLang
