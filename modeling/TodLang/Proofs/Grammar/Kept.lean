import Mathlib.Data.Nat.Find
import TodLang.Proofs.Grammar.Files
import TodLang.Proofs.Grammar.Readings
import TodLang.Proofs.Token.Beginnings
/-!
Regions that come from tokens. What is read from tokens has no regions but those of the tokens and
those that cover them: a relocation that keeps the tokens where they are keeps all that is read from
them (`parseMembers_kept`). So there is no need to go through the grammar to see where the regions
of a program begin. There is a relocation after which every region begins in front of a character of
the source, and it keeps the tokens of the source (`exists_relocation_into`).
-/

namespace TodLang

/-! ### Relocations that keep tokens -/

section

variable {g : Relocation} {ts : List Token}

theorem congruent_of_kept (h : ∀ t ∈ ts, t.relocate g = t) : Congruent g .stay ts ts := by
  induction ts with
  | nil => exact .nil
  | cons t others ih =>
    rw [List.forall_mem_cons] at h
    exact .cons h.1 rfl rfl (ih h.2)

/-- A relocation that keeps some tokens keeps the members that are read from them, or the tokens
that do not fit. -/
theorem parseMembers_kept (h : ∀ t ∈ ts, t.relocate g = t) :
    match parseMembers ts with
    | .ok members => members.map (Member.relocate g) = members
    | .error mismatch => mismatch.rest.map (Token.relocate g) = mismatch.rest := by
  have hagree := parseMembers_congruent (congruent_of_kept h)
  cases hread : parseMembers ts with
  | ok members =>
    rw [hread, MembersAgree, Member.relocate_stay, List.map_id] at hagree
    exact hagree
  | error mismatch =>
    rw [hread] at hagree
    have hmoved := hagree.2.map_relocate
    rwa [show Token.relocate .stay = id from rfl, List.map_id] at hmoved

end

/-! ### Regions that begin in a source -/

/-- Whether a character of the source begins at a byte offset. -/
def BeginsChar (source : String) (offset : Nat) : Prop :=
  ∃ front c back, source.toList = front ++ c :: back ∧ offset = String.utf8Len front

/-- Regions are moved to a file, and their beginnings to other offsets in their order. The lines and
columns become those of the offsets in a source. -/
def Relocation.into (file : Nat) (source : String) {floor : Nat → Nat} (hfloor : Monotone floor) :
    Relocation where
  span s :=
    { file
      start := floor s.start
      stop := s.stop
      startLine := lineAt source (floor s.start)
      startColumn := columnAt source (floor s.start)
      stopLine := lineAt source s.stop
      stopColumn := columnAt source s.stop }
  spaceAfter := id
  span_cover a b := by
    have hpick : floor (if b.start < a.start then b.start else a.start) =
        if floor b.start < floor a.start then floor b.start else floor a.start := by
      by_cases hlt : b.start < a.start
      · have hle : floor b.start ≤ floor a.start := hfloor hlt.le
        rw [if_pos hlt]
        split <;> omega
      · have hle : floor a.start ≤ floor b.start := hfloor (Nat.le_of_not_lt hlt)
        rw [if_neg hlt, if_neg (Nat.not_lt.2 hle)]
    have hfirst : (a.cover b).start = if b.start < a.start then b.start else a.start := by
      unfold Span.cover
      dsimp only
      split <;> rfl
    rw [hfirst, hpick]
    unfold Span.cover
    dsimp only
    split <;> split <;> rfl

theorem Relocation.into_beginsIn (file : Nat) {source : String} {floor : Nat → Nat}
    (hfloor : Monotone floor) (hbegins : ∀ offset, BeginsChar source (floor offset)) (s : Span) :
    ((Relocation.into file source hfloor).span s).BeginsIn file source := by
  obtain ⟨front, c, back, hsource, hoffset⟩ := hbegins s.start
  refine ⟨front, c, back, hsource, rfl, ?_⟩
  rw [start_advance_append front (c :: back), ← hsource, String.ofList_toList, ← hoffset]
  rfl

/-- From every offset one can go back to where a character begins, if there is one at all. -/
theorem exists_floor {source : String} (hne : source.toList ≠ []) :
    ∃ floor : Nat → Nat, Monotone floor ∧ (∀ offset, BeginsChar source (floor offset)) ∧
      ∀ offset, BeginsChar source offset → floor offset = offset := by
  classical
  have hzero : BeginsChar source 0 := by
    obtain ⟨c, back, hsource⟩ := List.exists_cons_of_ne_nil hne
    exact ⟨[], c, back, hsource, rfl⟩
  refine ⟨Nat.findGreatest (BeginsChar source), ?_, ?_, ?_⟩
  · exact fun m n hle => Nat.findGreatest_mono_right (BeginsChar source) hle
  · exact fun offset => Nat.findGreatest_spec (Nat.zero_le offset) hzero
  · exact fun offset h => Nat.findGreatest_eq h

section

variable {file : Nat} {hash : Bool} {source : String} {tokens : List Token}

theorem mem_tokens_of_mem_beforeEnding {t : Token} (h : t ∈ beforeEnding tokens) :
    t ∈ tokens ∧ t.isEnding = false := by
  refine ⟨(List.takeWhile_prefix _).subset h, ?_⟩
  have hkind := List.mem_takeWhile_imp h
  simpa using hkind

/-- There is a relocation that lets every region begin in front of a character of a source, and
keeps the tokens of the source. -/
theorem exists_relocation_into (htokens : tokenize file hash source = .ok tokens)
    (hne : beforeEnding tokens ≠ []) :
    ∃ g : Relocation, (∀ s, (g.span s).BeginsIn file source) ∧
      ∀ t ∈ beforeEnding tokens, t.relocate g = t := by
  have hbegins : ∀ t ∈ beforeEnding tokens, t.span.BeginsIn file source := by
    intro t ht
    obtain ⟨hmem, hkind⟩ := mem_tokens_of_mem_beforeEnding ht
    exact beginsIn_of_mem_tokenize htokens hmem hkind
  have hsource : source.toList ≠ [] := by
    obtain ⟨t, others, hbefore⟩ := List.exists_cons_of_ne_nil hne
    obtain ⟨front, c, back, hsource, -⟩ := hbegins t (by rw [hbefore]; exact List.mem_cons_self)
    rw [hsource]
    simp
  obtain ⟨floor, hfloor, hchars, hkeeps⟩ := exists_floor hsource
  refine ⟨.into file source hfloor, Relocation.into_beginsIn file hfloor hchars, ?_⟩
  intro t ht
  have hplaced := (tokenize_tiling htokens).placed t (mem_tokens_of_mem_beforeEnding ht).1
  obtain ⟨front, c, back, heq, hbehind⟩ := hbegins t ht
  have hstart := hkeeps t.span.start ⟨front, c, back, heq, hbehind.start_eq⟩
  have hspan : (Relocation.into file source hfloor).span t.span = t.span := by
    show Span.mk _ _ _ _ _ _ _ = _
    rw [hstart, ← hplaced.file_eq, ← hplaced.startLine_eq, ← hplaced.startColumn_eq,
      ← hplaced.stopLine_eq, ← hplaced.stopColumn_eq]
  rw [Token.relocate, hspan]
  rfl

/-! ### Programs -/

/-- A program that does not fit the grammar fails to do so in front of a character of the source, or
where the source ends. -/
theorem begins_of_parseProgram_error (htokens : tokenize file hash source = .ok tokens)
    {e : SyntaxError} (hparse : parseProgram tokens = .error e) :
    e.span.BeginsIn file source ∨ e.span.BeginsBehind file source.toList := by
  unfold parseProgram at hparse
  split at hparse
  · cases hparse
  · next mismatch hread =>
    cases hparse
    cases hrest : mismatch.rest with
    | nil =>
      obtain ⟨mark, hmark, hbehind⟩ := (laid_tokenize htokens).endingSpan_beginsBehind
      have hspan : endingSpan tokens = mark.span := by rw [endingSpan, Option.mem_def.1 hmark]
      refine .inr ?_
      show (endingSpan tokens).BeginsBehind file source.toList
      rw [hspan]
      exact hbehind
    | cons t others =>
      have hne : beforeEnding tokens ≠ [] := by
        intro hnil
        rw [hnil, parseMembers_nil_iff.2 rfl] at hread
        cases hread
      obtain ⟨g, hg, hkeeps⟩ := exists_relocation_into htokens hne
      have hkept := parseMembers_kept hkeeps
      rw [hread] at hkept
      dsimp only at hkept
      rw [hrest, List.map_cons] at hkept
      have hspan : g.span t.span = t.span := congrArg Token.span (List.cons.inj hkept).1
      refine .inl ?_
      show t.span.BeginsIn file source
      rw [← hspan]
      exact hg t.span

/-- The regions of a program that is read from a source begin in front of characters of it: there is
a relocation that lets all regions begin there, and it keeps the members. -/
theorem exists_relocation_of_parseProgram (htokens : tokenize file hash source = .ok tokens)
    {members : List Member} (hparse : parseProgram tokens = .ok members) (hne : members ≠ []) :
    ∃ g : Relocation, (∀ s, (g.span s).BeginsIn file source) ∧
      members.map (Member.relocate g) = members := by
  unfold parseProgram at hparse
  split at hparse
  · next hread =>
    cases hparse
    have hbefore : beforeEnding tokens ≠ [] := by
      intro hnil
      rw [hnil, parseMembers_nil_iff.2 rfl] at hread
      cases hread
      exact hne rfl
    obtain ⟨g, hg, hkeeps⟩ := exists_relocation_into htokens hbefore
    have hkept := parseMembers_kept hkeeps
    rw [hread] at hkept
    exact ⟨g, hg, hkept⟩
  · cases hparse

end

end TodLang
