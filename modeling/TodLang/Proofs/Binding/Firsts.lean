import TodLang.Proofs.Binding.Origin
/-!
The first declaration of a name counts. Of things that are declared one after another in a region,
`firsts` are those that are the first of their name, and `repeats` are the others. A region holds
the first ones of all symbols that were declared in it
(`Region.declare?_ofDeclared_of_not_mem`), in the order of their names and each of them once
(`Region.perm_ofDeclared`).
-/

namespace TodLang

section

variable {α β : Type} {name : α → String}

/-- Of things with names, those whose name was taken before, or those whose name was not. Each of
them takes its name. -/
def sift (again : Bool) (name : α → String) (taken : List String) : List α → List α
  | [] => []
  | a :: others =>
    if decide (name a ∈ taken) = again then a :: sift again name (name a :: taken) others
    else sift again name (name a :: taken) others

/-- The things that are the first of their name, where some names are taken already. -/
def firsts (name : α → String) (taken : List String) (l : List α) : List α :=
  sift false name taken l

/-- The things that are not the first of their name. -/
def repeats (name : α → String) (taken : List String) (l : List α) : List α :=
  sift true name taken l

/-- It does not matter in which order names were taken, nor how often. -/
theorem sift_congr (again : Bool) {taken taken' : List String} (h : ∀ n, n ∈ taken ↔ n ∈ taken')
    (l : List α) : sift again name taken l = sift again name taken' l := by
  induction l generalizing taken taken' with
  | nil => rfl
  | cons a others ih =>
    have hcons (n : String) : n ∈ name a :: taken ↔ n ∈ name a :: taken' := by
      rw [List.mem_cons, List.mem_cons, h]
    simp only [sift, h, ih hcons]

/-- For what comes behind, the names in front are taken. -/
theorem sift_append (again : Bool) (taken : List String) (front back : List α) :
    sift again name taken (front ++ back) =
      sift again name taken front ++ sift again name (taken ++ front.map name) back := by
  induction front generalizing taken with
  | nil =>
    rw [List.map_nil, List.append_nil]
    rfl
  | cons a others ih =>
    have htaken (n : String) :
        n ∈ name a :: taken ++ others.map name ↔ n ∈ taken ++ (a :: others).map name :=
      List.perm_middle.symm.mem_iff
    rw [List.cons_append, sift, sift, ih, sift_congr again htaken]
    split <;> rfl

theorem sift_map (again : Bool) (f : β → α) (taken : List String) (l : List β) :
    sift again name taken (l.map f) = (sift again (name ∘ f) taken l).map f := by
  induction l generalizing taken with
  | nil => rfl
  | cons b others ih =>
    simp only [List.map_cons, sift, ih, Function.comp_apply]
    split <;> rfl

/-- A thing is told by whether its name is taken. -/
theorem sift_singleton (again : Bool) (taken : List String) (a : α) :
    sift again name taken [a] = if decide (name a ∈ taken) = again then [a] else [] :=
  rfl

theorem firsts_append (taken : List String) (front back : List α) :
    firsts name taken (front ++ back) =
      firsts name taken front ++ firsts name (taken ++ front.map name) back :=
  sift_append ..

theorem repeats_append (taken : List String) (front back : List α) :
    repeats name taken (front ++ back) =
      repeats name taken front ++ repeats name (taken ++ front.map name) back :=
  sift_append ..

theorem firsts_map (f : β → α) (taken : List String) (l : List β) :
    firsts name taken (l.map f) = (firsts (name ∘ f) taken l).map f :=
  sift_map ..

theorem repeats_map (f : β → α) (taken : List String) (l : List β) :
    repeats name taken (l.map f) = (repeats (name ∘ f) taken l).map f :=
  sift_map ..

theorem firsts_singleton_of_mem {taken : List String} {a : α} (h : name a ∈ taken) :
    firsts name taken [a] = [] := by
  rw [firsts, sift_singleton, decide_eq_true h, if_neg (by decide)]

theorem firsts_singleton_of_not_mem {taken : List String} {a : α} (h : name a ∉ taken) :
    firsts name taken [a] = [a] := by
  rw [firsts, sift_singleton, decide_eq_false h, if_pos rfl]

theorem repeats_singleton_of_mem {taken : List String} {a : α} (h : name a ∈ taken) :
    repeats name taken [a] = [a] := by
  rw [repeats, sift_singleton, decide_eq_true h, if_pos rfl]

theorem repeats_singleton_of_not_mem {taken : List String} {a : α} (h : name a ∉ taken) :
    repeats name taken [a] = [] := by
  rw [repeats, sift_singleton, decide_eq_false h, if_neg (by decide)]

theorem sift_sublist (again : Bool) (taken : List String) (l : List α) :
    (sift again name taken l).Sublist l := by
  induction l generalizing taken with
  | nil => exact .slnil
  | cons a others ih =>
    rw [sift]
    split
    · exact (ih _).cons_cons a
    · exact (ih _).cons a

/-- Every thing is the first of its name or not. -/
theorem perm_firsts_repeats (taken : List String) (l : List α) :
    (firsts name taken l ++ repeats name taken l).Perm l := by
  induction l generalizing taken with
  | nil => exact .nil
  | cons a others ih =>
    have hothers := ih (name a :: taken)
    rw [firsts, repeats, sift, sift]
    by_cases h : name a ∈ taken
    · rw [decide_eq_true h, if_neg (by decide), if_pos rfl]
      exact List.perm_middle.trans (hothers.cons a)
    · rw [decide_eq_false h, if_pos rfl, if_neg (by decide)]
      exact hothers.cons a

theorem not_mem_taken_of_mem_firsts {taken : List String} {l : List α} {a : α}
    (h : a ∈ firsts name taken l) : name a ∉ taken := by
  induction l generalizing taken with
  | nil => cases h
  | cons b others ih =>
    have hothers (h : a ∈ firsts name (name b :: taken) others) : name a ∉ taken :=
      fun hmem => ih h (List.mem_cons_of_mem _ hmem)
    rw [firsts, sift] at h
    split at h
    · next hfree =>
      rcases List.mem_cons.1 h with rfl | h
      · exact of_decide_eq_false hfree
      · exact hothers h
    · exact hothers h

theorem nodup_names_firsts (taken : List String) (l : List α) :
    ((firsts name taken l).map name).Nodup := by
  induction l generalizing taken with
  | nil => exact List.nodup_nil
  | cons a others ih =>
    rw [firsts, sift]
    split
    · rw [List.map_cons, List.nodup_cons]
      refine ⟨?_, ih _⟩
      intro hmem
      obtain ⟨b, hb, hname⟩ := List.mem_map.1 hmem
      exact not_mem_taken_of_mem_firsts hb (hname ▸ List.mem_cons_self)
    · exact ih _

/-- Under a name that is not taken, the first thing is found. -/
theorem find?_firsts {taken : List String} {n : String} (h : n ∉ taken) (l : List α) :
    (firsts name taken l).find? (name · == n) = l.find? (name · == n) := by
  induction l generalizing taken with
  | nil => rfl
  | cons a others ih =>
    rw [firsts, sift]
    by_cases hname : name a = n
    · rw [if_pos (decide_eq_false (hname ▸ h)), List.find?_cons_of_pos (by simpa using hname),
        List.find?_cons_of_pos (by simpa using hname)]
    · have hfree : n ∉ name a :: taken := by
        rw [List.mem_cons, not_or]
        exact ⟨Ne.symm hname, h⟩
      rw [List.find?_cons_of_neg (by simpa using hname), ← ih hfree]
      split
      · exact List.find?_cons_of_neg (by simpa using hname)
      · rfl

end

namespace Region

theorem perm_insertSorted (s : Symbol) (l : List Symbol) : (insertSorted s l).Perm (s :: l) := by
  induction l with
  | nil => exact .refl _
  | cons t others ih =>
    unfold insertSorted
    split
    · exact .refl _
    · exact (ih.cons t).trans (.swap s t others)

theorem perm_addAll (r : Region) (symbols : List Symbol) :
    (r.addAll symbols).symbols.Perm (r.symbols ++ symbols) := by
  induction symbols generalizing r with
  | nil => exact .of_eq (List.append_nil _).symm
  | cons s others ih =>
    have hinsert := (perm_insertSorted s r.symbols).append_right others
    exact (ih (r.add s)).trans (hinsert.trans List.perm_middle.symm)

/-- The region in which given symbols were declared, one after another. -/
def ofDeclared (symbols : List Symbol) : Region :=
  empty.addAll (firsts Symbol.name [] symbols)

/-- The symbols of a region are the first ones of those that were declared in it. -/
theorem perm_ofDeclared (symbols : List Symbol) :
    (ofDeclared symbols).symbols.Perm (firsts Symbol.name [] symbols) :=
  perm_addAll empty _

theorem takes_firsts (symbols : List Symbol) :
    empty.Takes (firsts Symbol.name [] symbols) :=
  ⟨nodup_names_firsts [] symbols, fun _ _ => rfl⟩

theorem Takes.valid_addAll {r : Region} {symbols : List Symbol} (h : r.Takes symbols)
    (hr : r.Valid) : (r.addAll symbols).Valid := by
  induction symbols generalizing r with
  | nil => exact hr
  | cons s others ih => exact ih h.tail (hr.declare? (declare?_eq_add h.head))

theorem valid_ofDeclared (symbols : List Symbol) : (ofDeclared symbols).Valid :=
  (takes_firsts symbols).valid_addAll valid_empty

/-- A name stands for the first symbol that was declared under it. -/
theorem lookup?_ofDeclared (symbols : List Symbol) (n : String) :
    (ofDeclared symbols).lookup? n = symbols.find? (·.name == n) := by
  have hempty : empty.lookup? n = none := rfl
  rw [ofDeclared, (takes_firsts symbols).lookup?_addAll, hempty, Option.or_none,
    find?_firsts List.not_mem_nil]

theorem declares_ofDeclared (symbols : List Symbol) (n : String) :
    (ofDeclared symbols).declares n = decide (n ∈ symbols.map Symbol.name) := by
  rw [declares, lookup?_ofDeclared, Bool.eq_iff_iff, List.find?_isSome, decide_eq_true_iff,
    List.mem_map]
  simp only [beq_iff_eq]

/-- A symbol whose name was declared before changes nothing. -/
theorem declare?_ofDeclared_of_mem {symbols : List Symbol} {s : Symbol}
    (h : s.name ∈ symbols.map Symbol.name) :
    (ofDeclared symbols).declare? s = none ∧ ofDeclared (symbols ++ [s]) = ofDeclared symbols := by
  constructor
  · rw [declare?, declares_ofDeclared, decide_eq_true h, if_pos rfl]
  · rw [ofDeclared, firsts_append, List.nil_append, firsts_singleton_of_mem h, List.append_nil]
    rfl

/-- A symbol whose name is free is declared. -/
theorem declare?_ofDeclared_of_not_mem {symbols : List Symbol} {s : Symbol}
    (h : s.name ∉ symbols.map Symbol.name) :
    (ofDeclared symbols).declare? s = some (ofDeclared (symbols ++ [s])) := by
  have hmore : ofDeclared (symbols ++ [s]) = (ofDeclared symbols).add s := by
    rw [ofDeclared, firsts_append, List.nil_append, firsts_singleton_of_not_mem h, addAll_append]
    rfl
  rw [declare?, declares_ofDeclared, decide_eq_false h, if_neg (by decide), hmore]
  rfl

end Region

end TodLang
