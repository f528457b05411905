import TodLang.Proofs.Token.Tiling
/-!
How far a lexeme looks ahead. What a lexeme is depends on its own characters and on the next two
behind it, and a blank there or the end of the text only cuts it off where it would have ended
anyway. So a lexeme that is spelled again, in front of a blank, of the end, or of what stood behind
it before, is read as the same lexeme.
-/

namespace TodLang

/-! ### Texts that fade into white space -/

/-- The second text shows what the first one does for a number of characters, or for fewer and
then ends or has a blank. -/
inductive Fades : Nat → List Char → List Char → Prop
  | nothing {x y : List Char} : Fades 0 x y
  | ending {n : Nat} {x : List Char} : Fades n x []
  | blank {n : Nat} {c : Char} {x y : List Char} (hc : isBlank c = true) : Fades n x (c :: y)
  | same {n : Nat} {c : Char} {x y : List Char} (h : Fades n x y) : Fades (n + 1) (c :: x) (c :: y)

namespace Fades

variable {n : Nat} {x y : List Char}

theorem refl (n : Nat) (x : List Char) : Fades n x x := by
  induction n generalizing x with
  | zero => exact nothing
  | succ n ih =>
    cases x with
    | nil => exact ending
    | cons c x => exact same (ih x)

theorem pred (h : Fades (n + 1) x y) : Fades n x y := by
  induction n generalizing x y with
  | zero => exact nothing
  | succ n ih =>
    cases h with
    | ending => exact ending
    | blank hc => exact blank hc
    | same h => exact same (ih h)

/-- Texts that fade still do behind the same characters. -/
theorem append (h : Fades n x y) (front : List Char) : Fades n (front ++ x) (front ++ y) := by
  induction front with
  | nil => exact h
  | cons c front ih =>
    cases n with
    | zero => exact nothing
    | succ n => exact same ih.pred

/-- A piece without blanks that is short enough stands at the head of both. -/
theorem isPrefix (h : Fades n x y) {piece : List Char} (hpiece : piece <+: y)
    (hlength : piece.length ≤ n) (hblank : ∀ c ∈ piece, isBlank c = false) : piece <+: x := by
  induction h generalizing piece with
  | nothing =>
    rw [List.length_eq_zero_iff.1 (Nat.le_zero.1 hlength)]
    exact List.nil_prefix
  | ending =>
    rw [List.prefix_nil.1 hpiece]
    exact List.nil_prefix
  | blank hc =>
    cases piece with
    | nil => exact List.nil_prefix
    | cons d piece =>
      obtain ⟨rfl, -⟩ := List.cons_prefix_cons.1 hpiece
      rw [hblank d List.mem_cons_self] at hc
      cases hc
  | same _ ih =>
    cases piece with
    | nil => exact List.nil_prefix
    | cons d piece =>
      obtain ⟨rfl, htail⟩ := List.cons_prefix_cons.1 hpiece
      refine List.cons_prefix_cons.2 ⟨rfl, ih htail ?_ ?_⟩
      · simpa using hlength
      · exact fun c hc => hblank c (List.mem_cons_of_mem d hc)

/-- The first character of the second text is a blank or the first one of the first text. -/
theorem head (h : Fades (n + 1) x y) {c : Char} (hc : c ∈ y.head?) :
    isBlank c = true ∨ c ∈ x.head? := by
  cases h with
  | ending => cases hc
  | blank hblank =>
    cases hc
    exact .inl hblank
  | same h =>
    cases hc
    exact .inr rfl

end Fades

/-! ### Signs -/

theorem Sign.isBlank_spelling (s : Sign) : ∀ c ∈ s.spelling, isBlank c = false := by
  have hall : s.spelling.all (fun c => !isBlank c) = true := by
    cases s <;> decide
  simpa using hall

theorem Sign.length_spelling (s : Sign) : 1 ≤ s.spelling.length ∧ s.spelling.length ≤ 3 := by
  cases s <;> decide

theorem Sign.spelling_injective {s t : Sign} (h : s.spelling = t.spelling) : s = t := by
  have hs := Sign.ofSpelling?_spelling s
  rw [h, Sign.ofSpelling?_spelling] at hs
  exact (Option.some.inj hs).symm

theorem ofSpelling?_take_of_isPrefix {text : List Char} {s : Sign} (h : s.spelling <+: text) :
    Sign.ofSpelling? (text.take s.spelling.length) = some s := by
  rw [← List.prefix_iff_eq_take.1 h]
  exact s.ofSpelling?_spelling

/-- A sign that is read stands at the head of the text, and no longer one does. -/
theorem longestSign?_eq_some {text : List Char} {s : Sign} (h : longestSign? text = some s) :
    s.spelling <+: text ∧
      ∀ t : Sign, t.spelling <+: text → t.spelling.length ≤ s.spelling.length := by
  have longest (n : Nat) (hs : Sign.ofSpelling? (text.take n) = some s)
      (hnone : ∀ m, n < m → m ≤ 3 → Sign.ofSpelling? (text.take m) = none) :
      s.spelling <+: text ∧
        ∀ t : Sign, t.spelling <+: text → t.spelling.length ≤ s.spelling.length := by
    rw [Sign.spelling_of_ofSpelling? hs, List.length_take]
    refine ⟨List.take_prefix n text, fun t ht => ?_⟩
    have hle : t.spelling.length ≤ n := by
      by_contra hlt
      have hfound := ofSpelling?_take_of_isPrefix ht
      rw [hnone _ (by omega) t.length_spelling.2] at hfound
      cases hfound
    exact Nat.le_min.2 ⟨hle, ht.length_le⟩
  unfold longestSign? at h
  simp only [Option.orElse_eq_orElse, Option.orElse_eq_or, Option.or_eq_some_iff] at h
  rcases h with h | ⟨h₃, h | ⟨h₂, h⟩⟩
  · exact longest 3 h fun m _ _ => by omega
  · refine longest 2 h fun m hlt hle => ?_
    rwa [show m = 3 by omega]
  · refine longest 1 h fun m hlt hle => ?_
    obtain rfl | rfl : m = 2 ∨ m = 3 := by omega
    · exact h₂
    · exact h₃

theorem longestSign?_eq_none {text : List Char} (h : longestSign? text = none) (s : Sign) :
    ¬ s.spelling <+: text := by
  intro hs
  have hfound := ofSpelling?_take_of_isPrefix hs
  obtain ⟨hpos, hle⟩ := s.length_spelling
  unfold longestSign? at h
  simp only [Option.orElse_eq_orElse, Option.orElse_eq_or, Option.or_eq_none_iff] at h
  obtain ⟨h₃, h₂, h₁⟩ := h
  have hlength : s.spelling.length = 1 ∨ s.spelling.length = 2 ∨ s.spelling.length = 3 := by omega
  rcases hlength with hlength | hlength | hlength
  · rw [hlength, h₁] at hfound
    cases hfound
  · rw [hlength, h₂] at hfound
    cases hfound
  · rw [hlength, h₃] at hfound
    cases hfound

/-- The sign at the head of a text is the one at the head of a text that fades behind it. -/
theorem longestSign?_of_fades {x y : List Char} (h : Fades 3 x y) {s : Sign}
    (hs : longestSign? x = some s) (hy : s.spelling <+: y) : longestSign? y = some s := by
  cases ht : longestSign? y with
  | none => exact absurd hy (longestSign?_eq_none ht s)
  | some t =>
    obtain ⟨hstarts, hlongest⟩ := longestSign?_eq_some ht
    have hle := (longestSign?_eq_some hs).2 t
      (h.isPrefix hstarts t.length_spelling.2 t.isBlank_spelling)
    have heq : s.spelling.length = t.spelling.length := Nat.le_antisymm (hlongest s hy) hle
    rw [List.prefix_iff_eq_take] at hy hstarts
    rw [heq, ← hstarts] at hy
    rw [Sign.spelling_injective hy]

theorem longestSign?_eq_none_of_fades {x y : List Char} (h : Fades 3 x y)
    (hx : longestSign? x = none) : longestSign? y = none := by
  cases ht : longestSign? y with
  | none => rfl
  | some t =>
    have hstarts := (longestSign?_eq_some ht).1
    exact absurd (h.isPrefix hstarts t.length_spelling.2 t.isBlank_spelling)
      (longestSign?_eq_none hx t)

/-! ### Words and numbers -/

theorem eq_of_isBlank {b : Char} (h : isBlank b = true) :
    b = ' ' ∨ b = '\t' ∨ b = '\r' ∨ b = '\n' ∨ b = '\x0b' := by
  simpa [isBlank, or_assoc] using h

theorem isNamePart_of_isBlank {b : Char} (h : isBlank b = true) : isNamePart b = false := by
  rcases eq_of_isBlank h with rfl | rfl | rfl | rfl | rfl <;> decide

theorem isBasedPart_of_isBlank {b : Char} (h : isBlank b = true) : isBasedPart b = false := by
  rcases eq_of_isBlank h with rfl | rfl | rfl | rfl | rfl <;> decide

theorem isDecimalPart_of_isBlank {b : Char} (h : isBlank b = true) : isDecimalPart b = false := by
  rcases eq_of_isBlank h with rfl | rfl | rfl | rfl | rfl <;> decide

/-- A run of characters of one sort in front of a text that begins with none. -/
theorem span_append {sort : Char → Bool} {run after : List Char} (hrun : ∀ c ∈ run, sort c = true)
    (hafter : ∀ c ∈ after.head?, sort c = false) :
    (run ++ after).takeWhile sort = run ∧ (run ++ after).dropWhile sort = after := by
  rw [List.takeWhile_append_of_pos hrun, List.dropWhile_append_of_pos hrun]
  cases after with
  | nil => simp
  | cons c after => simp [hafter c rfl]

/-- A run of characters of one sort ends where it ended, if no blank is of that sort. -/
theorem span_of_fades {sort : Char → Bool} (hsort : ∀ b, isBlank b = true → sort b = false)
    {rest y : List Char} (h : Fades 1 (rest.dropWhile sort) y) :
    (rest.takeWhile sort ++ y).takeWhile sort = rest.takeWhile sort ∧
      (rest.takeWhile sort ++ y).dropWhile sort = y := by
  have hall : ∀ c ∈ rest.takeWhile sort, sort c = true := fun c hc => List.mem_takeWhile_imp hc
  have hhead : ∀ c ∈ y.head?, sort c = false := by
    intro c hc
    rcases h.head hc with hblank | hsame
    · exact hsort c hblank
    · have hstop := List.head?_dropWhile_not sort rest
      rw [Option.mem_def.1 hsame] at hstop
      simpa using hstop
  exact span_append hall hhead

theorem readText_of_closed {quote : Char} {text value written rest : List Char}
    (h : readText quote text = .closed value written rest) (y : List Char) :
    readText quote (written ++ y) = .closed value written y := by
  fun_induction readText quote text generalizing value written with
  | case1 => cases h
  | case2 rest =>
    cases h
    rw [List.cons_append, List.nil_append, readText.eq_def]
    simp
  | case3 => cases h
  | case4 escape rest meaning hmeaning hquote ih =>
    obtain ⟨tail, back, hr, rfl, rfl⟩ := TextEnd.push_eq_closed h
    rw [List.cons_append, List.cons_append, readText.eq_def]
    simp [hquote, hmeaning, ih hr, TextEnd.push]
  | case5 => cases h
  | case6 c rest hquote hescape ih =>
    obtain ⟨tail, back, hr, rfl, rfl⟩ := TextEnd.push_eq_closed h
    rw [List.cons_append, readText.eq_def]
    simp [hquote, hescape, ih hr, TextEnd.push]

/-- The characters that make a base mark of a zero before them. -/
def isBaseMark (c : Char) : Bool :=
  c == 'x' || c == 'X' || c == 'b' || c == 'B'

theorem baseMark?_isSome_iff (text : List Char) :
    (baseMark? text).isSome = true ↔
      ∃ mark tail, text = '0' :: mark :: tail ∧ isBaseMark mark = true := by
  constructor
  · intro h
    unfold baseMark? at h
    split at h
    case h_5 => cases h
    all_goals exact ⟨_, _, rfl, rfl⟩
  · rintro ⟨mark, tail, rfl, hmark⟩
    simp only [isBaseMark, Bool.or_eq_true, beq_iff_eq] at hmark
    rcases hmark with ((rfl | rfl) | rfl) | rfl <;> rfl

theorem isDecimalPart_of_isBaseMark {c : Char} (h : isBaseMark c = true) :
    isDecimalPart c = false := by
  simp only [isBaseMark, Bool.or_eq_true, beq_iff_eq] at h
  rcases h with ((rfl | rfl) | rfl) | rfl <;> decide

theorem isBlank_of_isBaseMark {c : Char} (h : isBaseMark c = true) : isBlank c = false := by
  simp only [isBaseMark, Bool.or_eq_true, beq_iff_eq] at h
  rcases h with ((rfl | rfl) | rfl) | rfl <;> decide

theorem splitNumber_of_isSome {text : List Char} (h : (baseMark? text).isSome = true) :
    splitNumber text =
      (text.take 2 ++ (text.drop 2).takeWhile isBasedPart,
        (text.drop 2).dropWhile isBasedPart) := by
  unfold splitNumber
  split
  · rfl
  · next hnone =>
    rw [hnone] at h
    cases h

theorem splitNumber_of_not_isSome {text : List Char} (h : ¬ (baseMark? text).isSome = true) :
    splitNumber text = (text.takeWhile isDecimalPart, text.dropWhile isDecimalPart) := by
  unfold splitNumber
  split
  · next hsome =>
    rw [hsome] at h
    exact absurd rfl h
  · rfl

/-- A number ends where it ended: no character that belongs to it is a blank, and a mark that was
none does not become one. -/
theorem splitNumber_of_fades {c : Char} (hc : c.isDigit = true) {rest y : List Char}
    (h : Fades 1 (splitNumber (c :: rest)).2 y) :
    splitNumber ((splitNumber (c :: rest)).1 ++ y) = ((splitNumber (c :: rest)).1, y) := by
  by_cases hbase : (baseMark? (c :: rest)).isSome = true
  · obtain ⟨mark, tail, htext, hmark⟩ := (baseMark?_isSome_iff _).1 hbase
    rw [splitNumber_of_isSome hbase] at h ⊢
    rw [htext] at h ⊢
    simp only [List.take_succ_cons, List.take_zero, List.drop_succ_cons, List.drop_zero,
      List.cons_append, List.nil_append] at h ⊢
    obtain ⟨htake, hdrop⟩ := span_of_fades (fun _ => isBasedPart_of_isBlank) h
    have hbase' := (baseMark?_isSome_iff
      ('0' :: mark :: (tail.takeWhile isBasedPart ++ y))).2 ⟨_, _, rfl, hmark⟩
    rw [splitNumber_of_isSome hbase']
    simp only [List.take_succ_cons, List.take_zero, List.drop_succ_cons, List.drop_zero,
      List.cons_append, List.nil_append, htake, hdrop]
  · rw [splitNumber_of_not_isSome hbase] at h ⊢
    obtain ⟨htake, hdrop⟩ := span_of_fades (fun _ => isDecimalPart_of_isBlank) h
    have hbase' :
        ¬ (baseMark? ((c :: rest).takeWhile isDecimalPart ++ y)).isSome = true := by
      intro hsome
      obtain ⟨mark, tail, htext, hmark⟩ := (baseMark?_isSome_iff _).1 hsome
      have hpart : isDecimalPart c = true := by simp [isDecimalPart, hc]
      simp only [List.takeWhile_cons, List.dropWhile_cons, hpart, if_true, List.cons_append,
        List.cons.injEq] at h htext
      obtain ⟨rfl, htail⟩ := htext
      have hnot := isDecimalPart_of_isBaseMark hmark
      cases rest with
      | nil =>
        simp only [List.takeWhile_nil, List.dropWhile_nil, List.nil_append] at h htail
        rcases h.head (c := mark) (by simp [htail]) with hblank | hhead
        · rw [isBlank_of_isBaseMark hmark] at hblank
          cases hblank
        · cases hhead
      | cons d rest =>
        by_cases hd : isDecimalPart d = true
        · simp only [List.takeWhile_cons, hd, if_true, List.cons_append, List.cons.injEq] at htail
          rw [htail.1, hnot] at hd
          cases hd
        · simp only [List.takeWhile_cons, List.dropWhile_cons, hd, Bool.false_eq_true, if_false,
            List.nil_append] at h htail
          rcases h.head (c := mark) (by simp [htail]) with hblank | hhead
          · rw [isBlank_of_isBaseMark hmark] at hblank
            cases hblank
          · cases hhead
            exact hbase ((baseMark?_isSome_iff _).2 ⟨_, _, rfl, hmark⟩)
    rw [splitNumber_of_not_isSome hbase', htake, hdrop]

/-! ### Lexemes -/

theorem readComment?_cons_eq_none_iff {hash : Bool} {c : Char} {rest : List Char} :
    readComment? hash (c :: rest) = none ↔
      (c = '/' → '/' ∉ rest.head? ∧ '*' ∉ rest.head?) ∧ (c = '#' → hash = false) := by
  constructor
  · intro h
    refine ⟨?_, ?_⟩
    · rintro rfl
      cases rest with
      | nil => simp
      | cons d rest =>
        refine ⟨?_, ?_⟩
        · rintro ⟨⟩
          cases h
        · rintro ⟨⟩
          rw [readComment?] at h
          split at h <;> cases h
    · rintro rfl
      cases hash with
      | false => rfl
      | true => cases h
  · rintro ⟨hslash, hhash⟩
    unfold readComment?
    split
    · next heq =>
      obtain ⟨rfl, rfl⟩ := List.cons.inj heq
      exact absurd rfl (hslash rfl).1
    · next heq =>
      obtain ⟨rfl, rfl⟩ := List.cons.inj heq
      exact absurd rfl (hslash rfl).2
    · next heq =>
      obtain ⟨rfl, rfl⟩ := List.cons.inj heq
      rw [hhash rfl]
      rfl
    · rfl

/-- What begins no comment does not begin one in front of a text that fades. -/
theorem readComment?_of_fades {hash : Bool} {c : Char} {rest y : List Char}
    (h : readComment? hash (c :: rest) = none) (hy : Fades 1 rest y) :
    readComment? hash (c :: y) = none := by
  rw [readComment?_cons_eq_none_iff] at h ⊢
  obtain ⟨hslash, hhash⟩ := h
  have stays {d : Char} (hd : isBlank d = false) (hrest : d ∉ rest.head?) : d ∉ y.head? := by
    intro hmem
    rcases hy.head hmem with hblank | hsame
    · rw [hd] at hblank
      cases hblank
    · exact hrest hsame
  exact ⟨fun hc => ⟨stays rfl (hslash hc).1, stays rfl (hslash hc).2⟩, hhash⟩

/-- A lexeme in front of a text that fades is read as it was. -/
theorem readPiece_lexeme_of_fades {hash : Bool} {c : Char} {rest after y : List Char}
    {kind : TokenKind} {value : Option Value} {text : List Char}
    (h : readPiece hash c rest = .ok (.lexeme kind value text, after)) (hy : Fades 2 after y) :
    ∃ tail, text = c :: tail ∧ rest = tail ++ after ∧
      readPiece hash c (tail ++ y) = .ok (.lexeme kind value text, y) := by
  obtain ⟨happend, hne⟩ := readPiece_append h
  obtain ⟨d, tail, rfl⟩ := List.exists_cons_of_ne_nil hne
  simp only [Piece.text, List.cons_append, List.cons.injEq] at happend
  obtain ⟨rfl, rfl⟩ := happend
  refine ⟨tail, rfl, rfl, ?_⟩
  have htail : Fades 2 (tail ++ after) (tail ++ y) := hy.append tail
  unfold readPiece at h
  split at h
  · cases h
  · next hblank =>
    split at h
    · next hcomment =>
      subst h
      obtain ⟨⟨body, hbody⟩, -⟩ := skips_comment hcomment
      cases hbody
    · next hcomment =>
      rw [readPiece, if_neg hblank, readComment?_of_fades hcomment htail.pred]
      dsimp only
      split at h
      · next hquote =>
        rw [if_pos hquote]
        unfold readTextLexeme at h ⊢
        split at h
        · next hclosed =>
          cases h
          rw [readText_of_closed hclosed]
        · cases h
        · cases h
      · next hquote =>
        rw [if_neg hquote]
        split at h
        · next hdigit =>
          rw [if_pos hdigit]
          unfold readNumber at h ⊢
          dsimp only at h ⊢
          split at h
          · next hvalue =>
            simp only [Except.ok.injEq, Prod.mk.injEq, Piece.lexeme.injEq] at h
            obtain ⟨⟨hkind, hsome, htext⟩, hafter⟩ := h
            rw [← hafter] at hy
            have hnumber := splitNumber_of_fades hdigit hy.pred
            rw [htext, List.cons_append] at hnumber
            rw [hnumber]
            dsimp only
            rw [← htext, hvalue, ← hkind, ← hsome]
          · cases h
        · next hdigit =>
          rw [if_neg hdigit]
          split at h
          · next hname =>
            rw [if_pos hname]
            simp only [Except.ok.injEq, Prod.mk.injEq] at h
            obtain ⟨hword, hafter⟩ := h
            have htext := congrArg Piece.text hword
            rw [wordLexeme_text] at htext
            replace htext := (List.cons.inj htext).2
            rw [← hafter] at hy
            obtain ⟨htake, hdrop⟩ := span_of_fades (fun _ => isNamePart_of_isBlank) hy.pred
            rw [htext] at htake hdrop hword
            rw [htake, hdrop, hword]
          · next hname =>
            rw [if_neg hname]
            split at h
            · next sign hsign =>
              simp only [Except.ok.injEq, Prod.mk.injEq, Piece.lexeme.injEq] at h
              obtain ⟨⟨rfl, rfl, htext⟩, -⟩ := h
              have hstarts : sign.spelling <+: d :: (tail ++ y) := by
                rw [htext, ← List.cons_append]
                exact List.prefix_append _ _
              rw [longestSign?_of_fades htail.same hsign hstarts]
              simp [htext]
            · next hnone =>
              have hnone' := longestSign?_eq_none_of_fades htail.same hnone
              cases h
              rw [List.nil_append] at hnone' ⊢
              rw [hnone']

/-! ### The tokens behind a piece -/

section

variable {file : Nat} {hash : Bool} {place : Position}

/-- White space is a run of blanks. -/
theorem isBlank_of_readPiece_blank {c : Char} {rest text after : List Char}
    (h : readPiece hash c rest = .ok (.blank text, after)) : ∀ d ∈ text, isBlank d = true := by
  have hc : isBlank c = true := by
    rcases readPiece_cases h with ⟨_, -, hc, -⟩ | ⟨_, hpiece, -⟩ | ⟨_, _, _, hpiece, -⟩
    · exact hc
    · cases hpiece
    · cases hpiece
  rw [readPiece, if_pos hc] at h
  cases h
  intro d hd
  rcases List.mem_cons.1 hd with rfl | hd
  · exact hc
  · exact List.mem_takeWhile_imp hd

/-- The white space that a text begins with leaves no token. -/
theorem tokens_dropWhile (text : List Char) :
    (readPieces hash text).tokens file place =
      (readPieces hash (text.dropWhile isBlank)).tokens file
        (place.advance (text.takeWhile isBlank)) := by
  cases text with
  | nil => rfl
  | cons c rest =>
    by_cases hc : isBlank c = true
    · have hpiece : readPiece hash c rest =
          .ok (.blank (c :: rest.takeWhile isBlank), rest.dropWhile isBlank) := by
        rw [readPiece, if_pos hc]
      rw [readPieces_of_readPiece hpiece, List.takeWhile_cons_of_pos hc,
        List.dropWhile_cons_of_pos hc, Reading.tokens, Piece.text]
      simp
    · rw [List.takeWhile_cons_of_neg hc, List.dropWhile_cons_of_neg hc, Position.advance_nil]

/-- White space in front of a text leaves no token and only moves the others. -/
theorem tokens_blank {run : List Char} (hrun : ∀ c ∈ run, isBlank c = true) (text : List Char) :
    (readPieces hash (run ++ text)).tokens file place =
      (readPieces hash text).tokens file (place.advance run) := by
  rw [tokens_dropWhile (run ++ text), tokens_dropWhile text, List.takeWhile_append_of_pos hrun,
    List.dropWhile_append_of_pos hrun, Position.advance_append]

/-- The tokens of a text with a lexeme at its head. -/
theorem tokens_lexeme {c : Char} {rest after : List Char} {kind : TokenKind} {value : Option Value}
    {text : List Char} (h : readPiece hash c rest = .ok (.lexeme kind value text, after)) :
    (readPieces hash (c :: rest)).tokens file place =
      ((readPieces hash after).tokens file (place.advance text)).map fun others =>
        { kind, literal := String.ofList text, value,
          span := Span.between file place (place.advance text),
          spaceAfter := (readPieces hash after).startsBlank } :: others := by
  rw [readPieces_of_readPiece h, Reading.tokens]
  cases (readPieces hash after).tokens file (place.advance text) <;> rfl

/-- A text with a broken piece at its head has no tokens. -/
theorem tokens_broken {c : Char} {rest : List Char} {fault : BrokenPiece}
    (h : readPiece hash c rest = .error fault) :
    (readPieces hash (c :: rest)).tokens file place = .error (fault.errorAt file place) := by
  rw [readPieces_of_broken h, Reading.tokens]

/-- A comment leaves no token and only moves the others. -/
theorem tokens_comment {c : Char} {rest text after : List Char}
    (h : readPiece hash c rest = .ok (.comment text, after)) :
    (readPieces hash (c :: rest)).tokens file place =
      (readPieces hash after).tokens file (place.advance text) := by
  rw [readPieces_of_readPiece h]
  rfl

end

end TodLang
