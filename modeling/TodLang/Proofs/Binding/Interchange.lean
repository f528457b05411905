import Mathlib.Logic.Equiv.Basic
import TodLang.Proofs.Binding.Mirror
/-!
Steps of a walk in another order. A step does something for one thing of a list, in the scope that
the walk is in, and gives something back (`Step`). In another order of the list, the steps take
other numbers, but what they find and give back is the same up to these (`Step.perm`): two steps
one after the other exchange the numbers that they take (`exchange`), and every order is reached by
such exchanges.
-/

namespace TodLang

/-! ### Exchanging numbers -/

/-- Exchanges two rows of numbers, one behind the other, of given lengths. -/
def exchangeRows (start first second : Nat) (i : Nat) : Nat :=
  if i ≤ start then i
  else if i ≤ start + first then i + second
  else if i ≤ start + first + second then i - first
  else i

theorem exchangeRows_exchangeRows (start first second i : Nat) :
    exchangeRows start second first (exchangeRows start first second i) = i := by
  unfold exchangeRows
  split_ifs <;> omega

/-- The exchange of two rows of numbers is undone by an exchange. -/
def exchange (start first second : Nat) : Equiv.Perm Nat where
  toFun := exchangeRows start first second
  invFun := exchangeRows start second first
  left_inv := exchangeRows_exchangeRows start first second
  right_inv := exchangeRows_exchangeRows start second first

/-- Whether the numbers up to a bound stay. -/
def Fixes (σ : Nat → Nat) (bound : Nat) : Prop :=
  ∀ i ≤ bound, σ i = i

theorem Fixes.mono {σ : Nat → Nat} {bound less : Nat} (h : Fixes σ bound) (hle : less ≤ bound) :
    Fixes σ less :=
  fun i hi => h i (hi.trans hle)

theorem Fixes.trans {σ τ : Equiv.Perm Nat} {bound : Nat} (h : Fixes σ bound)
    (h' : Fixes τ bound) : Fixes (σ.trans τ) bound := by
  intro i hi
  rw [Equiv.trans_apply, h i hi, h' i hi]

theorem fixes_exchange (start first second : Nat) : Fixes (exchange start first second) start :=
  fun _ hi => if_pos hi

theorem exchange_first {start first i : Nat} (hlt : start < i) (hle : i ≤ start + first)
    (second : Nat) : exchange start first second i = i + second := by
  change exchangeRows start first second i = i + second
  unfold exchangeRows
  split_ifs <;> omega

theorem exchange_second {start first second i : Nat} (hlt : start + first < i)
    (hle : i ≤ start + first + second) : exchange start first second i + first = i := by
  change exchangeRows start first second i + first = i
  unfold exchangeRows
  split_ifs <;> omega

theorem exchange_later {start first second i : Nat} (hlt : start + first + second < i) :
    exchange start first second i = i := by
  change exchangeRows start first second i = i
  unfold exchangeRows
  split_ifs <;> omega

section

variable {start first both i : Nat}

/-- The second row, up to a given number, moves in front of the first one. -/
theorem exchange_back (hle : start ≤ first) (hlt : first < i) (hbound : i ≤ both) :
    exchange start (first - start) (both - first) i + first = i + start := by
  have hrow : exchange start (first - start) (both - first) i + (first - start) = i :=
    exchange_second (by omega) (by omega)
  omega

/-- The first row moves behind the second one. -/
theorem exchange_forth {second : Nat} (hle : first ≤ both)
    (hcount : second + first = both + start) (hlt : start < i) (hbound : i ≤ first) :
    exchange start (first - start) (both - first) i + start = i + second := by
  have hrow : exchange start (first - start) (both - first) i = i + (both - first) :=
    exchange_first hlt (by omega) _
  omega

theorem exchange_behind (hle : start ≤ first) (hle' : first ≤ both) (hlt : both < i) :
    exchange start (first - start) (both - first) i = i :=
  exchange_later (by omega)

end

/-! ### Walks whose numbers are taken -/

/-- Whether a walk is in no body, and nothing in it has a number that is still to be taken. -/
structure Walk.Settled (w : Walk) : Prop where
  closed : w.closed = []
  scope : ∀ σ, Fixes σ w.last → w.scope.renumber σ = w.scope
  findings : ∀ σ, Fixes σ w.last → w.findings.map (Finding.renumber σ) = w.findings

/-- Whether two walks are the same up to the numbers of variables and the order of what was found.
The numbers that are exchanged were taken since a given one. -/
structure Walk.Rearranged (start : Nat) (σ : Equiv.Perm Nat) (w w' : Walk) : Prop where
  scope : w'.scope = w.scope.renumber σ
  functions : w'.typeFunctions = w.typeFunctions
  last : w'.last = w.last
  findings : w'.findings.Perm (w.findings.map (Finding.renumber σ))
  earlier : Fixes σ start
  later : ∀ i, w.last < i → σ i = i

theorem Walk.Settled.rearranged {w : Walk} (hw : w.Settled) (start : Nat) :
    w.Rearranged start (Equiv.refl Nat) w where
  scope := (hw.scope id fun _ _ => rfl).symm
  functions := rfl
  last := rfl
  findings := .of_eq (hw.findings id fun _ _ => rfl).symm
  earlier := fun _ _ => rfl
  later := fun _ _ => rfl

theorem map_renumber_trans (σ τ : Equiv.Perm Nat) (findings : List Finding) :
    (findings.map (Finding.renumber σ)).map (Finding.renumber τ) =
      findings.map (Finding.renumber (σ.trans τ)) := by
  rw [List.map_map]
  apply List.map_congr_left
  intro f _
  exact f.renumber_comp σ τ

theorem Walk.Rearranged.trans {start : Nat} {σ τ : Equiv.Perm Nat} {w w' w'' : Walk}
    (h : w.Rearranged start σ w') (h' : w'.Rearranged start τ w'') :
    w.Rearranged start (σ.trans τ) w'' where
  scope := by
    rw [h'.scope, h.scope]
    exact w.scope.renumber_comp σ τ
  functions := h'.functions.trans h.functions
  last := h'.last.trans h.last
  findings := by
    have hmap := h.findings.map (Finding.renumber τ)
    rw [map_renumber_trans] at hmap
    exact h'.findings.trans hmap
  earlier := h.earlier.trans h'.earlier
  later := by
    intro i hi
    rw [Equiv.trans_apply, h.later i hi]
    exact h'.later i (by rwa [h.last])

theorem Walk.Rearranged.mono {start less : Nat} {σ : Equiv.Perm Nat} {w w' : Walk}
    (h : w.Rearranged start σ w') (hle : less ≤ start) : w.Rearranged less σ w' :=
  { h with earlier := h.earlier.mono hle }

namespace Mirror

/-- The correspondence of two walks from where they are. -/
def between (w w' : Walk) (σ : Nat → Nat) (bound : Nat)
    (h : ∀ i, w.last < i → i ≤ bound → σ i + w.last = i + w'.last) : Mirror where
  renumber := σ
  last := w.last
  last' := w'.last
  found := w.findings
  found' := w'.findings
  bound := bound
  shifts := h

theorem shows_between {w w' : Walk} {σ : Nat → Nat} {bound : Nat}
    (h : ∀ i, w.last < i → i ≤ bound → σ i + w.last = i + w'.last)
    (hscope : w'.scope = w.scope.renumber σ) (hfunctions : w'.typeFunctions = w.typeFunctions)
    (hw : w.closed = []) (hw' : w'.closed = []) : (between w w' σ bound h).Shows w w' := by
  intro _
  refine ⟨hscope, hfunctions, ?_, le_rfl, Nat.add_comm .., [], ?_, ?_⟩
  · rw [hw, hw']
    rfl
  · exact (List.append_nil _).symm
  · exact (List.append_nil _).symm

/-- A walk mirrors itself as far as its numbers stay. -/
def ofFixes (w : Walk) {σ : Nat → Nat} {bound : Nat} (h : Fixes σ bound) : Mirror :=
  between w w σ bound fun i _ hi => congrArg (· + w.last) (h i hi)

theorem shows_ofFixes {w : Walk} (hw : w.Settled) {σ : Nat → Nat} {bound : Nat}
    (h : Fixes σ bound) : (ofFixes w h).Shows w w := by
  intro hbound
  have hscope := (hw.scope σ (h.mono hbound)).symm
  exact shows_between _ hscope rfl hw.closed hw.closed hbound

theorem Rearranged.shifts {start : Nat} {σ : Equiv.Perm Nat} {w w' : Walk}
    (h : w.Rearranged start σ w') (i : Nat) (hi : w.last < i) : σ i + w.last = i + w'.last := by
  rw [h.later i hi, h.last]

/-- A rearranged walk mirrors the first one. -/
def ofRearranged {start : Nat} {σ : Equiv.Perm Nat} {w w' : Walk}
    (h : w.Rearranged start σ w') (bound : Nat) : Mirror :=
  between w w' σ bound fun i hi _ => Rearranged.shifts h i hi

theorem shows_ofRearranged {start : Nat} {σ : Equiv.Perm Nat} {w w' : Walk}
    (h : w.Rearranged start σ w') (hw : w.closed = []) (hw' : w'.closed = []) (bound : Nat) :
    (ofRearranged h bound).Shows w w' :=
  shows_between _ h.scope h.functions hw hw'

end Mirror

/-- A walk that goes on in the same way as itself leaves no number open. -/
theorem Walk.Settled.of_reflects {w v : Walk} (hw : w.Settled) (hlast : w.last ≤ v.last)
    (hclosed : v.closed = [])
    (h : ∀ σ (hσ : Fixes σ v.last), (Mirror.ofFixes w hσ).Reflects v v) : v.Settled := by
  refine ⟨hclosed, fun σ hσ => (h σ hσ).scope.symm, ?_⟩
  intro σ hσ
  obtain ⟨added, hfirst, hsecond⟩ := (h σ hσ).findings
  have hfound : w.findings.map (Finding.renumber σ) = w.findings :=
    hw.findings σ (hσ.mono hlast)
  have hadded : added.map (Finding.renumber σ) = added :=
    List.append_cancel_left (hsecond.symm.trans hfirst)
  have hall : v.findings = w.findings ++ added := hfirst
  rw [hall, List.map_append, hfound, hadded]

/-- Rearranged walks that go on in the same way are rearranged. -/
theorem Walk.Rearranged.of_reflects {start : Nat} {σ : Equiv.Perm Nat} {w w' v v' : Walk}
    (h : w.Rearranged start σ w') (hlast : w.last ≤ v.last)
    (hv : (Mirror.ofRearranged h v.last).Reflects v v') : v.Rearranged start σ v' := by
  obtain ⟨added, hfirst, hsecond⟩ := hv.findings
  refine ⟨hv.scope, hv.functions, ?_, ?_, h.earlier, fun i hi => h.later i (hlast.trans_lt hi)⟩
  · have hsame : v'.last + w.last = v.last + w'.last := hv.last
    rw [h.last] at hsame
    exact Nat.add_right_cancel hsame
  · have hall : v.findings = w.findings ++ added := hfirst
    have hall' : v'.findings = w'.findings ++ added.map (Finding.renumber σ) := hsecond
    rw [hall, hall', List.map_append]
    exact h.findings.append_right _

/-! ### Steps -/

/-- What a walk does for each thing of a list. It stays in its scope, and does the same in walks
that mirror each other. -/
structure Step (X α : Type) where
  run : X → Walk → α × Walk
  /-- The things may have numbers themselves. -/
  renumberThing : (Nat → Nat) → X → X
  renumberResult : (Nat → Nat) → α → α
  scope : ∀ x w, (run x w).2.scope = w.scope
  functions : ∀ x w, (run x w).2.typeFunctions = w.typeFunctions
  closed : ∀ x w, w.closed = [] → (run x w).2.closed = []
  last : ∀ x w, w.last ≤ (run x w).2.last
  shows : ∀ (m : Mirror) {w w' : Walk}, m.Shows w w' → ∀ x,
    m.Yields (renumberResult m.renumber) (run x w) (run (renumberThing m.renumber x) w')
  comp : ∀ σ τ a, renumberResult τ (renumberResult σ a) = renumberResult (τ ∘ σ) a

namespace Step

variable {X α : Type} (t : Step X α)

/-- One step after another, with their results. -/
def runAll : List X → Walk → List α × Walk
  | [], w => ([], w)
  | x :: others, w =>
    ((t.run x w).1 :: (runAll others (t.run x w).2).1, (runAll others (t.run x w).2).2)

theorem runAll_last (xs : List X) (w : Walk) : w.last ≤ (t.runAll xs w).2.last := by
  induction xs generalizing w with
  | nil => exact le_rfl
  | cons x others ih => exact (t.last x w).trans (ih _)

/-- Steps one after another are a step. -/
def all : Step (List X) (List α) where
  run := t.runAll
  renumberThing σ := List.map (t.renumberThing σ)
  renumberResult σ := List.map (t.renumberResult σ)
  scope := by
    intro xs
    induction xs with
    | nil => exact fun _ => rfl
    | cons x others ih => exact fun w => (ih _).trans (t.scope x w)
  functions := by
    intro xs
    induction xs with
    | nil => exact fun _ => rfl
    | cons x others ih => exact fun w => (ih _).trans (t.functions x w)
  closed := by
    intro xs
    induction xs with
    | nil => exact fun _ hw => hw
    | cons x others ih => exact fun w hw => ih _ (t.closed x w hw)
  last := t.runAll_last
  shows := by
    intro m w w' h xs
    induction xs generalizing w w' with
    | nil => exact fun hbound => ⟨rfl, h hbound⟩
    | cons x others ih =>
      intro hbound
      have hx := t.shows m h x
      obtain ⟨hothers, hw⟩ := ih hx.shows hbound
      have hfirst := (hx ((t.runAll_last others (t.run x w).2).trans hbound)).1
      exact ⟨congrArg₂ List.cons hfirst hothers, hw⟩
  comp := by
    intro σ τ as
    rw [List.map_map]
    apply List.map_congr_left
    intro a _
    exact t.comp σ τ a

/-- Whether a thing has no number that is still to be taken. -/
def Settles (w : Walk) (x : X) : Prop :=
  ∀ σ, Fixes σ w.last → t.renumberThing σ x = x

variable {t}

theorem Settles.mono {w w' : Walk} {x : X} (h : t.Settles w x) (hlast : w.last ≤ w'.last) :
    t.Settles w' x :=
  fun σ hσ => h σ (hσ.mono hlast)

theorem settles_all {w : Walk} {xs : List X} (h : ∀ x ∈ xs, t.Settles w x) :
    t.all.Settles w xs := by
  intro σ hσ
  change xs.map (t.renumberThing σ) = xs
  conv_rhs => rw [← List.map_id xs]
  apply List.map_congr_left
  exact fun x hx => h x hx σ hσ

/-- A step leaves no number open, and its result has none. -/
theorem settled {w : Walk} (hw : w.Settled) {x : X} (hx : t.Settles w x) :
    (t.run x w).2.Settled ∧
      ∀ σ, Fixes σ (t.run x w).2.last → t.renumberResult σ (t.run x w).1 = (t.run x w).1 := by
  have hself (σ : Nat → Nat) (hσ : Fixes σ (t.run x w).2.last) :=
    t.shows _ (Mirror.shows_ofFixes hw hσ) x le_rfl
  have hlast := t.last x w
  have hsame (σ : Nat → Nat) (hσ : Fixes σ (t.run x w).2.last) : t.renumberThing σ x = x :=
    hx σ (hσ.mono hlast)
  constructor
  · apply hw.of_reflects hlast (t.closed x w hw.closed)
    intro σ hσ
    have hreflects := (hself σ hσ).2
    change (Mirror.ofFixes w hσ).Reflects _ (t.run (t.renumberThing σ x) w).2 at hreflects
    rwa [hsame σ hσ] at hreflects
  · intro σ hσ
    have hresult := (hself σ hσ).1
    change (t.run (t.renumberThing σ x) w).1 = _ at hresult
    rw [hsame σ hσ] at hresult
    exact hresult.symm

/-- Steps of rearranged walks give the same up to numbers, and lead to rearranged walks. -/
theorem rearranged {start : Nat} {σ : Equiv.Perm Nat} {w w' : Walk}
    (h : w.Rearranged start σ w') (hw : w.closed = []) (hw' : w'.closed = []) (x : X) :
    (t.run (t.renumberThing σ x) w').1 = t.renumberResult σ (t.run x w).1 ∧
      (t.run x w).2.Rearranged start σ (t.run (t.renumberThing σ x) w').2 := by
  have hshows := t.shows _ (Mirror.shows_ofRearranged h hw hw' (t.run x w).2.last) x le_rfl
  exact ⟨hshows.1, h.of_reflects (t.last x w) hshows.2⟩

/-- A step that begins elsewhere in the same scope gives the same up to numbers, and finds the
same. -/
theorem mirrored {w v : Walk} {x : X} {σ : Nat → Nat}
    (h : ∀ i, w.last < i → i ≤ (t.run x w).2.last → σ i + w.last = i + v.last)
    (hscope : v.scope = w.scope.renumber σ) (hfunctions : v.typeFunctions = w.typeFunctions)
    (hw : w.closed = []) (hv : v.closed = []) (hx : t.renumberThing σ x = x) :
    (t.run x v).1 = t.renumberResult σ (t.run x w).1 ∧
      (t.run x v).2.last + w.last = (t.run x w).2.last + v.last ∧
      ∃ added, (t.run x w).2.findings = w.findings ++ added ∧
        (t.run x v).2.findings = v.findings ++ added.map (Finding.renumber σ) := by
  have hshows := Mirror.shows_between h hscope hfunctions hw hv
  have hyields : (Mirror.between w v σ _ h).Yields (t.renumberResult σ) (t.run x w)
      (t.run (t.renumberThing σ x) v) := t.shows _ hshows x
  rw [hx] at hyields
  obtain ⟨hresult, hreflects⟩ := hyields le_rfl
  exact ⟨hresult, hreflects.last, hreflects.findings⟩

/-- Two steps in the other order exchange the numbers that they take. -/
theorem interchange {w : Walk} (hw : w.Settled) {x y : X} (hx : t.Settles w x)
    (hy : t.Settles w y) :
    ∃ σ : Equiv.Perm Nat,
      (t.all.run [x, y] w).2.Rearranged w.last σ (t.all.run [y, x] w).2 ∧
        (t.all.run [y, x] w).1.Perm ((t.all.run [x, y] w).1.map (t.renumberResult σ)) := by
  let first := (t.run x w).2
  let second := (t.run y w).2
  let both := (t.run y first).2
  let both' := (t.run x second).2
  -- The second step begins behind the numbers of the first one, or in front of them.
  let σ := exchange w.last (first.last - w.last) (both.last - first.last)
  have hle : w.last ≤ first.last := t.last x w
  have hle' : first.last ≤ both.last := t.last y first
  have hfixes : Fixes σ w.last := fixes_exchange _ _ _
  have hscope : w.scope.renumber σ = w.scope := hw.scope σ hfixes
  have hfound : w.findings.map (Finding.renumber σ) = w.findings := hw.findings σ hfixes
  have hback : ∀ i, first.last < i → i ≤ both.last → σ i + first.last = i + w.last :=
    fun _ => exchange_back hle
  obtain ⟨hresult, hlast, added, hadded, hadded'⟩ := t.mirrored hback
    (by rw [t.scope, hscope]) (t.functions x w).symm (t.closed x w hw.closed) hw.closed
    (hy σ hfixes)
  have hcount : second.last + first.last = both.last + w.last := hlast
  have hforth : ∀ i, w.last < i → i ≤ first.last → σ i + w.last = i + second.last :=
    fun _ => exchange_forth hle' hcount
  obtain ⟨hresult', hlast', others, hothers, hothers'⟩ := t.mirrored hforth
    (by rw [t.scope, hscope]) (t.functions y w) hw.closed (t.closed y w hw.closed) (hx σ hfixes)
  have hcount' : both'.last + w.last = first.last + second.last := hlast'
  refine ⟨σ, ⟨?_, ?_, ?_, ?_, hfixes, ?_⟩, ?_⟩
  · change both'.scope = both.scope.renumber σ
    rw [t.scope, t.scope, t.scope, t.scope, hscope]
  · change both'.typeFunctions = both.typeFunctions
    rw [t.functions, t.functions, t.functions, t.functions]
  · change both'.last = both.last
    omega
  · change both'.findings.Perm (both.findings.map _)
    rw [hadded, hothers, hothers', hadded', List.map_append, List.map_append, hfound,
      List.append_assoc, List.append_assoc]
    exact List.perm_append_comm.append_left _
  · exact fun _ => exchange_behind hle hle'
  · change [(t.run y w).1, (t.run x second).1].Perm
      [t.renumberResult σ (t.run x w).1, t.renumberResult σ (t.run y first).1]
    rw [hresult, hresult']
    exact .swap ..

/-- In another order, steps give and find the same up to numbers. -/
theorem perm {xs ys : List X} (h : xs.Perm ys) {w : Walk} (hw : w.Settled)
    (hxs : ∀ x ∈ xs, t.Settles w x) :
    ∃ σ : Equiv.Perm Nat,
      (t.all.run xs w).2.Rearranged w.last σ (t.all.run ys w).2 ∧
        (t.all.run ys w).1.Perm ((t.all.run xs w).1.map (t.renumberResult σ)) := by
  induction h generalizing w with
  | nil => exact ⟨.refl Nat, hw.rearranged w.last, .nil⟩
  | @cons x xs ys _ ih =>
    obtain ⟨hx, hothers⟩ := List.forall_mem_cons.1 hxs
    obtain ⟨hnext, hresult⟩ := settled hw hx
    have hlast := t.last x w
    obtain ⟨σ, hrearranged, hperm⟩ := ih hnext fun y hy => (hothers y hy).mono hlast
    refine ⟨σ, hrearranged.mono hlast, ?_⟩
    change ((t.run x w).1 :: (t.all.run ys (t.run x w).2).1).Perm
      (t.renumberResult σ (t.run x w).1 :: (t.all.run xs (t.run x w).2).1.map _)
    rw [hresult σ hrearranged.earlier]
    exact hperm.cons _
  | swap x y others =>
    obtain ⟨hy, hrest⟩ := List.forall_mem_cons.1 hxs
    obtain ⟨hx, hrest⟩ := List.forall_mem_cons.1 hrest
    obtain ⟨σ, hrearranged, hperm⟩ := interchange hw hy hx
    have hsame : t.all.renumberThing σ others = others := settles_all hrest σ hrearranged.earlier
    have hothers := t.all.rearranged hrearranged (t.all.closed _ w hw.closed)
      (t.all.closed _ w hw.closed) others
    rw [hsame] at hothers
    refine ⟨σ, hothers.2, ?_⟩
    change ((t.all.run [x, y] w).1 ++ (t.all.run others (t.all.run [x, y] w).2).1).Perm
      (((t.all.run [y, x] w).1 ++ (t.all.run others (t.all.run [y, x] w).2).1).map _)
    rw [hothers.1, List.map_append]
    exact hperm.append_right _
  | @trans xs ys zs hfirst _ ih ih' =>
    obtain ⟨σ, hrearranged, hperm⟩ := ih hw hxs
    obtain ⟨τ, hrearranged', hperm'⟩ := ih' hw fun y hy => hxs y (hfirst.mem_iff.2 hy)
    refine ⟨σ.trans τ, hrearranged.trans hrearranged', ?_⟩
    have hmap := hperm.map (t.renumberResult τ)
    rw [List.map_map] at hmap
    refine (hperm'.trans hmap).trans (.of_eq ?_)
    apply List.map_congr_left
    intro a _
    exact t.comp σ τ a

/-- From rearranged walks, steps in another order give and find the same up to numbers. -/
theorem perm_of_rearranged {start : Nat} {σ : Equiv.Perm Nat} {w w' : Walk}
    (h : w.Rearranged start σ w') (hw : w.closed = []) (hw' : w'.Settled) (hstart : start ≤ w'.last)
    {xs ys : List X} (hys : (t.all.renumberThing σ xs).Perm ys)
    (hsettles : ∀ y ∈ ys, t.Settles w' y) :
    ∃ τ : Equiv.Perm Nat,
      (t.all.run xs w).2.Rearranged start τ (t.all.run ys w').2 ∧
        (t.all.run ys w').1.Perm ((t.all.run xs w).1.map (t.renumberResult τ)) := by
  obtain ⟨hresult, hfirst⟩ := t.all.rearranged h hw hw'.closed xs
  obtain ⟨τ, hsecond, hperm⟩ := perm hys hw' fun y hy => hsettles y (hys.mem_iff.1 hy)
  refine ⟨σ.trans τ, hfirst.trans (hsecond.mono hstart), hperm.trans (.of_eq ?_)⟩
  rw [hresult]
  exact t.all.comp σ τ _

end Step

end TodLang
