import Mathlib.Order.Lattice
import TodLang.Proofs.Token.Tiling
/-!
Covering as a join. The regions of one text are ordered by what they contain, and the region that
covers two of them is the least one that contains both, so that Mathlib's laws of a join hold of it.
They hold only because an offset tells the line and the column: where two regions begin or stop
together, either may give the line and the column of the region that covers them. The main result
is `cover_isJoin`.
-/

namespace TodLang

/-- Which line and which column each byte offset of a text has. -/
structure Ruler where
  line : Nat → Nat
  column : Nat → Nat

/-- The lines and columns of a source. -/
def Ruler.of (source : String) : Ruler :=
  ⟨lineAt source, columnAt source⟩

namespace Span

/-- A region of a file: its ends are in order, and their lines and columns are those of their
offsets. -/
structure MeasuredBy (file : Nat) (ruler : Ruler) (s : Span) : Prop where
  file_eq : s.file = file
  start_le_stop : s.start ≤ s.stop
  startLine_eq : s.startLine = ruler.line s.start
  startColumn_eq : s.startColumn = ruler.column s.start
  stopLine_eq : s.stopLine = ruler.line s.stop
  stopColumn_eq : s.stopColumn = ruler.column s.stop

section

variable {file : Nat} {ruler : Ruler} {a b : Span}

theorem PlacedIn.measuredBy {source : String} (h : a.PlacedIn file source) :
    a.MeasuredBy file (.of source) :=
  ⟨h.file_eq, h.start_le_stop, h.startLine_eq, h.startColumn_eq, h.stopLine_eq, h.stopColumn_eq⟩

/-- The tokens of a source stand in such regions. -/
theorem measuredBy_of_tokenize {hash : Bool} {source : String} {tokens : List Token}
    (h : tokenize file hash source = .ok tokens) :
    ∀ t ∈ tokens, t.span.MeasuredBy file (.of source) :=
  fun t ht => ((tokenize_tiling h).placed t ht).measuredBy

namespace MeasuredBy

theorem eq_mk (h : a.MeasuredBy file ruler) :
    a = ⟨file, a.start, a.stop, ruler.line a.start, ruler.column a.start, ruler.line a.stop,
      ruler.column a.stop⟩ := by
  rw [← h.startLine_eq, ← h.startColumn_eq, ← h.stopLine_eq, ← h.stopColumn_eq, ← h.file_eq]

/-- Two regions of one text that contain each other are the same. -/
theorem eq_of_contains (ha : a.MeasuredBy file ruler) (hb : b.MeasuredBy file ruler)
    (hab : a.contains b = true) (hba : b.contains a = true) : a = b := by
  rw [contains_iff] at hab hba
  have hstart : a.start = b.start := Nat.le_antisymm hab.1 hba.1
  have hstop : a.stop = b.stop := Nat.le_antisymm hba.2 hab.2
  rw [ha.eq_mk, hb.eq_mk, hstart, hstop]

theorem cover (ha : a.MeasuredBy file ruler) (hb : b.MeasuredBy file ruler) :
    (a.cover b).MeasuredBy file ruler := by
  have hfirst : (if b.start < a.start then b else a).MeasuredBy file ruler := by
    split <;> assumption
  have hlast : (if b.stop > a.stop then b else a).MeasuredBy file ruler := by
    split <;> assumption
  have hle : (a.cover b).start ≤ (a.cover b).stop := by
    have := ha.start_le_stop
    rw [cover_start, cover_stop]
    omega
  exact ⟨hfirst.file_eq, hle, hfirst.startLine_eq, hfirst.startColumn_eq, hlast.stopLine_eq,
    hlast.stopColumn_eq⟩

theorem start_add_length (h : a.MeasuredBy file ruler) : a.start + a.length = a.stop :=
  Nat.add_sub_of_le h.start_le_stop

end MeasuredBy

theorem contains_refl (s : Span) : s.contains s = true :=
  (contains_iff s s).2 ⟨Nat.le_refl _, Nat.le_refl _⟩

theorem contains_trans {outer middle inner : Span} (h : outer.contains middle = true)
    (hinner : middle.contains inner = true) : outer.contains inner = true := by
  rw [contains_iff] at h hinner ⊢
  exact ⟨Nat.le_trans h.1 hinner.1, Nat.le_trans hinner.2 h.2⟩

/-- A region contains what covers two regions if and only if it contains both. -/
theorem contains_cover_iff {outer : Span} :
    outer.contains (a.cover b) = true ↔ outer.contains a = true ∧ outer.contains b = true := by
  rw [contains_iff, contains_iff, contains_iff, cover_start, cover_stop]
  omega

end

end Span

/-! ### The order of regions -/

/-- The regions of a text, each with the proof that it is one. -/
structure Stretch (file : Nat) (ruler : Ruler) where
  span : Span
  measured : span.MeasuredBy file ruler

namespace Stretch

variable {file : Nat} {ruler : Ruler}

theorem eq_of_span_eq {a b : Stretch file ruler} (h : a.span = b.span) : a = b := by
  cases a
  cases b
  cases h
  rfl

/-- A region is below those that contain it. -/
instance : PartialOrder (Stretch file ruler) where
  le a b := b.span.contains a.span = true
  le_refl a := a.span.contains_refl
  le_trans _ _ _ hab hbc := Span.contains_trans hbc hab
  le_antisymm a b hab hba := eq_of_span_eq (a.measured.eq_of_contains b.measured hba hab)

instance : SemilatticeSup (Stretch file ruler) where
  sup a b := ⟨a.span.cover b.span, a.measured.cover b.measured⟩
  le_sup_left a b := a.span.cover_contains_left b.span
  le_sup_right a b := a.span.cover_contains_right b.span
  sup_le _ _ _ ha hb := Span.contains_cover_iff.2 ⟨ha, hb⟩

theorem span_sup (a b : Stretch file ruler) : (a ⊔ b).span = a.span.cover b.span := rfl

end Stretch

/-! ### Any order, any grouping -/

/-- Regions that are to be covered two by two, in some order and with some grouping. A fold over a
list of regions is the grouping that leans to one side. -/
inductive Grouping where
  | region (s : Span)
  | pair (first second : Grouping)

namespace Grouping

/-- The regions of a grouping from left to right. -/
def regions : Grouping → List Span
  | region s => [s]
  | pair first second => first.regions ++ second.regions

/-- What covers the regions of a grouping. -/
def cover : Grouping → Span
  | region s => s
  | pair first second => first.cover.cover second.cover

theorem measuredBy {file : Nat} {ruler : Ruler} {g : Grouping}
    (h : ∀ s ∈ g.regions, s.MeasuredBy file ruler) : g.cover.MeasuredBy file ruler := by
  induction g with
  | region s => exact h s List.mem_cons_self
  | pair first second ihFirst ihSecond =>
    rw [regions, List.forall_mem_append] at h
    exact (ihFirst h.1).cover (ihSecond h.2)

/-- A region contains what covers others if and only if it contains each of them. -/
theorem contains_cover_iff (g : Grouping) (outer : Span) :
    outer.contains g.cover = true ↔ ∀ s ∈ g.regions, outer.contains s = true := by
  induction g with
  | region s => simp [cover, regions]
  | pair first second ihFirst ihSecond =>
    rw [cover, regions, Span.contains_cover_iff, ihFirst, ihSecond, List.forall_mem_append]

/-- What covers regions of one text depends neither on their order nor on their grouping. -/
theorem cover_eq {file : Nat} {ruler : Ruler} {g g' : Grouping}
    (hg : ∀ s ∈ g.regions, s.MeasuredBy file ruler)
    (hsame : ∀ s, s ∈ g.regions ↔ s ∈ g'.regions) : g.cover = g'.cover := by
  have hg' : ∀ s ∈ g'.regions, s.MeasuredBy file ruler := fun s hs => hg s ((hsame s).2 hs)
  -- Each of the two contains all regions, so it contains the least that does.
  have hcontains := (g.contains_cover_iff g.cover).1 g.cover.contains_refl
  have hcontains' := (g'.contains_cover_iff g'.cover).1 g'.cover.contains_refl
  refine (measuredBy hg).eq_of_contains (measuredBy hg') ?_ ?_
  · exact (g'.contains_cover_iff g.cover).2 fun s hs => hcontains s ((hsame s).2 hs)
  · exact (g.contains_cover_iff g'.cover).2 fun s hs => hcontains' s ((hsame s).1 hs)

end Grouping

namespace Span

/-- Covering is the join of the regions of one text: idempotent, commutative and associative, it
gives the least region of the text that contains both. What covers several regions, each taken once
or more often, depends neither on their order nor on their grouping, and its length is the distance
between its ends. -/
theorem cover_isJoin {file : Nat} {ruler : Ruler} {a b c : Span} (ha : a.MeasuredBy file ruler)
    (hb : b.MeasuredBy file ruler) (hc : c.MeasuredBy file ruler) :
    a.cover a = a ∧ a.cover b = b.cover a ∧ (a.cover b).cover c = a.cover (b.cover c) ∧
    (a.cover b).MeasuredBy file ruler ∧ (a.cover b).contains a = true ∧
    (a.cover b).contains b = true ∧
    (∀ outer : Span, outer.contains a = true → outer.contains b = true →
      outer.contains (a.cover b) = true) ∧
    ∀ g : Grouping, (∀ s ∈ g.regions, s.MeasuredBy file ruler) →
      g.cover.MeasuredBy file ruler ∧ g.cover.start + g.cover.length = g.cover.stop ∧
      ∀ g' : Grouping, (∀ s, s ∈ g.regions ↔ s ∈ g'.regions) → g.cover = g'.cover := by
  let x : Stretch file ruler := ⟨a, ha⟩
  let y : Stretch file ruler := ⟨b, hb⟩
  let z : Stretch file ruler := ⟨c, hc⟩
  have hidem : (x ⊔ x).span = x.span := congrArg Stretch.span (sup_idem x)
  have hcomm : (x ⊔ y).span = (y ⊔ x).span := congrArg Stretch.span (sup_comm x y)
  have hassoc : (x ⊔ y ⊔ z).span = (x ⊔ (y ⊔ z)).span := congrArg Stretch.span (sup_assoc x y z)
  simp only [Stretch.span_sup] at hidem hcomm hassoc
  refine ⟨hidem, hcomm, hassoc, ha.cover hb, a.cover_contains_left b, a.cover_contains_right b,
    fun _ houter houter' => contains_cover_iff.2 ⟨houter, houter'⟩, fun g hg => ?_⟩
  have hmeasured := Grouping.measuredBy hg
  exact ⟨hmeasured, hmeasured.start_add_length, fun g' hsame => Grouping.cover_eq hg hsame⟩

/-- The three tokens of a sum over two lines, with a letter of two bytes. -/
theorem cover_isJoin_lines :
    let left : Span := ⟨1, 0, 2, 1, 1, 1, 2⟩
    let sign : Span := ⟨1, 3, 4, 1, 3, 1, 4⟩
    let right : Span := ⟨1, 6, 7, 2, 2, 2, 3⟩
    tokenize 1 true "ß +\n b" = .ok
        [⟨.identifier, "ß", .none, left, true⟩, ⟨.sign .add, "+", .none, sign, true⟩,
          ⟨.identifier, "b", .none, right, true⟩, Token.ending ⟨1, 7, 7, 2, 3, 2, 3⟩] ∧
      (∀ s ∈ [left, sign, right], s.MeasuredBy 1 (.of "ß +\n b")) ∧
      (left.cover sign).cover right = left.cover (sign.cover right) ∧
      (left.cover sign).MeasuredBy 1 (.of "ß +\n b") ∧
      (Grouping.pair (.region right) (.pair (.region left) (.region sign))).cover =
        (Grouping.pair (.pair (.region left) (.region sign)) (.region right)).cover := by
  intro left sign right
  have htokens : tokenize 1 true "ß +\n b" = .ok
      [⟨.identifier, "ß", .none, left, true⟩, ⟨.sign .add, "+", .none, sign, true⟩,
        ⟨.identifier, "b", .none, right, true⟩, Token.ending ⟨1, 7, 7, 2, 3, 2, 3⟩] := by
    decide +kernel
  have hplaces := measuredBy_of_tokenize htokens
  have hmeasured : ∀ s ∈ [left, sign, right], s.MeasuredBy 1 (.of "ß +\n b") := by
    simpa using And.intro (hplaces _ (.head _)) ⟨hplaces _ (.tail _ (.head _)),
      hplaces _ (.tail _ (.tail _ (.head _)))⟩
  obtain ⟨-, -, hassoc, hcover, -, -, -, hgroupings⟩ := cover_isJoin
    (hmeasured left (.head _)) (hmeasured sign (.tail _ (.head _)))
    (hmeasured right (.tail _ (.tail _ (.head _))))
  refine ⟨htokens, hmeasured, hassoc, hcover, (hgroupings _ fun s hs => ?_).2.2 _ fun s => ?_⟩
  · refine hmeasured s ?_
    simp only [Grouping.regions, List.mem_append, List.mem_cons, List.not_mem_nil, or_false] at hs ⊢
    tauto
  · simp only [Grouping.regions, List.mem_append, List.mem_cons, List.not_mem_nil, or_false]
    tauto

end Span

end TodLang
