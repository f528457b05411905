import TodLang.Proofs.Grammar.Layout
import TodLang.Proofs.Token.Respelling
/-!
Comments and white space. A source in which white space with as many line feeds stands for every
comment has the same tokens but for their places, or the same fault. The parser sees one
difference: a comment right behind a sign is no white space, so two signs with nothing else between
them may be a step, which they are no longer with white space in its stead. Where no step is written
like that, both sources are parsed with the same outcome.
-/

namespace TodLang

/-- The second text is the first one with white space, and as many line feeds in it, in the place of
every comment that is skipped. What cannot be read stays as it is. -/
inductive Blanked (hash : Bool) : List Char → List Char → Prop
  | nil : Blanked hash [] []
  | broken {c : Char} {rest : List Char} {fault : BrokenPiece}
      (h : readPiece hash c rest = .error fault) : Blanked hash (c :: rest) (c :: rest)
  | blank {c : Char} {rest text after after' : List Char}
      (h : readPiece hash c rest = .ok (.blank text, after)) (hafter : Blanked hash after after') :
      Blanked hash (c :: rest) (text ++ after')
  | lexeme {c : Char} {rest text after after' : List Char} {kind : TokenKind}
      {value : Option Value} (h : readPiece hash c rest = .ok (.lexeme kind value text, after))
      (hafter : Blanked hash after after') : Blanked hash (c :: rest) (text ++ after')
  | comment {c : Char} {rest text after run after' : List Char}
      (h : readPiece hash c rest = .ok (.comment text, after)) (hne : run ≠ [])
      (hrun : ∀ d ∈ run, isBlank d = true) (hlines : run.count '\n' = text.count '\n')
      (hafter : Blanked hash after after') : Blanked hash (c :: rest) (run ++ after')

section

variable {hash : Bool} {x y : List Char}

/-- Every text can be blanked: a space and the line feeds of a comment stand for it. -/
theorem exists_blanked (hash : Bool) (x : List Char) : ∃ y, Blanked hash x y := by
  fun_induction readPieces hash x with
  | case1 => exact ⟨[], .nil⟩
  | case2 c rest fault h => exact ⟨_, .broken h⟩
  | case3 c rest piece after h _ ih =>
    obtain ⟨after', hafter⟩ := ih
    cases piece with
    | blank text => exact ⟨_, .blank h hafter⟩
    | lexeme kind value text => exact ⟨_, .lexeme h hafter⟩
    | comment text =>
      refine ⟨(' ' :: List.replicate (text.count '\n') '\n') ++ after', .comment h (by simp) ?_ ?_
        hafter⟩
      · intro d hd
        rcases List.mem_cons.1 hd with rfl | hd
        · rfl
        · rw [List.eq_of_mem_replicate hd]
          rfl
      · simp

/-- A blanked text shows what the text does, or white space. -/
theorem Blanked.fades (h : Blanked hash x y) (n : Nat) : Fades n x y := by
  induction h with
  | nil => exact .refl n []
  | broken _ => exact .refl n _
  | blank h _ ih | lexeme h _ ih =>
    rw [← (readPiece_append h).1]
    exact ih.append _
  | @comment _ _ _ _ run _ _ hne hrun _ _ _ =>
    cases run with
    | nil => exact absurd rfl hne
    | cons d run => exact .blank (hrun d List.mem_cons_self)

/-! ### The tokens of a blanked text -/

section

variable {file : Nat} {place : Position}

theorem Position.offset_le_advance (text : List Char) (p : Position) :
    p.offset ≤ (p.advance text).offset := by
  induction text generalizing p with
  | nil => exact Nat.le_refl _
  | cons c text ih =>
    have hnext : p.offset ≤ (p.next c).offset := by
      unfold Position.next
      split <;> exact Nat.le_add_right _ _
    exact hnext.trans (ih _)

theorem Position.offset_lt_advance {text : List Char} (h : text ≠ []) (p : Position) :
    p.offset < (p.advance text).offset := by
  cases text with
  | nil => exact absurd rfl h
  | cons c text =>
    have hnext : p.offset < (p.next c).offset := by
      have hsize := c.utf8Size_pos
      unfold Position.next
      split <;> exact Nat.lt_add_of_pos_right hsize
    exact hnext.trans_le (Position.offset_le_advance text _)

/-- No token starts before the place from which a text is read. -/
theorem offset_le_start {text : List Char} {tokens : List Token}
    (h : (readPieces hash text).tokens file place = .ok tokens) :
    ∀ t ∈ tokens, place.offset ≤ t.span.start := by
  fun_induction readPieces hash text generalizing place tokens with
  | case1 =>
    cases h
    intro t ht
    rw [List.mem_singleton.1 ht]
    exact Nat.le_refl _
  | case2 => cases h
  | case3 c rest piece after _ _ ih =>
    cases piece with
    | blank text | comment text =>
      exact fun t ht => (Position.offset_le_advance text place).trans (ih h t ht)
    | lexeme kind value text =>
      obtain ⟨others, hothers, rfl⟩ := Reading.exists_tokens_behind h
      intro t ht
      rcases List.mem_cons.1 ht with rfl | ht
      · exact Nat.le_refl _
      · exact (Position.offset_le_advance text place).trans (ih hothers t ht)

end

/-- Two rows of the same tokens on the same lines. White space may have come up behind a token in
the second row where the next token did not follow directly. -/
inductive Shifted : List Token → List Token → Prop
  | nil : Shifted [] []
  | cons {t u : Token} {ts us : List Token} (hbare : t.bare = u.bare)
      (hstart : t.span.startLine = u.span.startLine) (hstop : t.span.stopLine = u.span.stopLine)
      (hspace : t.spaceAfter = u.spaceAfter ∨
        t.spaceAfter = false ∧ ∀ next ∈ ts.head?, t.span.stop < next.span.start)
      (h : Shifted ts us) : Shifted (t :: ts) (u :: us)

/-- Two readings that come to the same: the same tokens on the same lines, or the same fault. -/
def ReadAlike : Except LexicalError (List Token) → Except LexicalError (List Token) → Prop
  | .ok tokens, .ok tokens' => ∃ ts us mark mark',
      tokens = ts ++ [Token.ending mark] ∧ tokens' = us ++ [Token.ending mark'] ∧ Shifted ts us
  | .error e, .error e' => e.fault = e'.fault
  | _, _ => False

/-- White space behind a lexeme stays, and comes up only in the place of a comment. -/
theorem Blanked.startsBlank (h : Blanked hash x y) :
    (readPieces hash x).startsBlank = (readPieces hash y).startsBlank ∨
      (readPieces hash x).startsBlank = false ∧ ∀ file place tokens,
        (readPieces hash x).tokens file place = .ok tokens →
          ∀ t ∈ tokens, place.offset < t.span.start := by
  cases h with
  | nil | broken _ => exact .inl rfl
  | @blank c rest text after after' hpiece _ | @lexeme c rest text after after' _ _ hpiece _ =>
    obtain ⟨happend, hne⟩ := readPiece_append hpiece
    rw [← happend, startsBlank_readPieces, startsBlank_readPieces]
    obtain ⟨d, tail, rfl⟩ := List.exists_cons_of_ne_nil hne
    exact .inl rfl
  | comment hpiece _ _ _ _ =>
    refine .inr ⟨?_, fun file place tokens htokens t ht => ?_⟩
    · rcases readPiece_cases hpiece with ⟨_, hpiece, -⟩ | ⟨_, -, hc, -⟩ | ⟨_, _, _, hpiece, -⟩
      · cases hpiece
      · simp [startsBlank_readPieces, hc]
      · cases hpiece
    · rw [tokens_comment hpiece] at htokens
      have hlt := Position.offset_lt_advance (readPiece_append hpiece).2 place
      exact hlt.trans_le (offset_le_start htokens t ht)

/-- A lexeme in front of a text and in front of the blanked text is read as the same token on the
same lines. -/
theorem ReadAlike.cons {e e' : Except LexicalError (List Token)} (h : ReadAlike e e')
    {t u : Token} (hbare : t.bare = u.bare) (hstart : t.span.startLine = u.span.startLine)
    (hstop : t.span.stopLine = u.span.stopLine)
    (hspace : t.spaceAfter = u.spaceAfter ∨
      t.spaceAfter = false ∧ ∀ tokens, e = .ok tokens → ∀ next ∈ tokens,
        t.span.stop < next.span.start) :
    ReadAlike (e.map fun others => t :: others) (e'.map fun others => u :: others) := by
  match e, e', h with
  | .error _, .error _, h => exact h
  | .ok _, .ok _, ⟨ts, us, mark, mark', rfl, rfl, hshifted⟩ =>
    refine ⟨t :: ts, u :: us, mark, mark', rfl, rfl, .cons hbare hstart hstop ?_ hshifted⟩
    rcases hspace with hsame | ⟨hfalse, hbehind⟩
    · exact .inl hsame
    · refine .inr ⟨hfalse, fun next hnext => ?_⟩
      exact hbehind _ rfl next (List.mem_append_left _ (List.mem_of_mem_head? hnext))

/-- Where a name and two signs that may be a step of it stand in a row, with no white space behind
the first sign, the second sign follows directly, and no comment stands between the two. -/
def StepsAdjacent (tokens : List Token) : Prop :=
  ∀ name first second sign, [name, first, second] <:+: tokens → name.kind = .identifier →
    sign.isStep = true → first.kind = .sign sign → second.kind = .sign sign →
      first.spaceAfter = false → first.span.stop = second.span.start

theorem StepsAdjacent.part {tokens part : List Token} (h : StepsAdjacent tokens)
    (hpart : part <:+: tokens) : StepsAdjacent part :=
  fun name first second sign hrow => h name first second sign (hrow.trans hpart)

namespace Shifted

variable {t u : Token} {ts us : List Token}

theorem nextKind_eq (h : Shifted ts us) : nextKind ts = nextKind us := by
  cases h with
  | nil => rfl
  | cons hbare _ _ _ _ => exact congrArg some (Token.kind_eq_of_bare_eq hbare)

theorem atMain_eq (h : Shifted (t :: ts) (u :: us)) : atMain (t :: ts) = atMain (u :: us) := by
  cases h with
  | cons hbare _ hstop _ h =>
    cases h with
    | nil => rfl
    | cons hnext hstart _ _ _ =>
      simp only [atMain, Token.kind_eq_of_bare_eq hbare, Token.literal_eq_of_bare_eq hbare,
        Token.kind_eq_of_bare_eq hnext, hstop, hstart]

/-- The look-ahead finds the same: white space that came up behind a sign is not between the two
signs of a step. -/
theorem opening_eq (h : Shifted (t :: ts) (u :: us)) (hsteps : StepsAdjacent (t :: ts)) :
    opening (t :: ts) = opening (u :: us) := by
  cases h with
  | cons hbare _ _ _ h =>
    cases h with
    | nil => rfl
    | @cons first first' others others' hfirst _ _ hspace h =>
      have hkind := Token.kind_eq_of_bare_eq hfirst
      simp only [opening, Token.kind_eq_of_bare_eq hbare, ← hkind, ← h.nextKind_eq]
      split
      · next sign hname hsign =>
        have hstep : (sign.isStep = true ∧ first.spaceAfter = false ∧
            nextKind others = some (.sign sign)) ↔
              (sign.isStep = true ∧ first'.spaceAfter = false ∧
                nextKind others = some (.sign sign)) := by
          rcases hspace with hspace | ⟨hfalse, hbehind⟩
          · rw [hspace]
          · refine and_congr_right fun hs => and_congr_left fun hnext => ?_
            exfalso
            cases others with
            | nil => cases hnext
            | cons second rest =>
              have hrow : [t, first, second] <:+: t :: first :: second :: rest :=
                (List.prefix_append [t, first, second] rest).isInfix
              have ht : t.kind = .identifier := by rw [Token.kind_eq_of_bare_eq hbare, hname]
              have heq := hsteps t first second sign hrow ht hs hsign (Option.some.inj hnext) hfalse
              exact absurd heq (Nat.ne_of_lt (hbehind second rfl))
        simp only [hstep]
      · rfl

theorem alike (h : Shifted ts us) (hsteps : StepsAdjacent ts) : Alike ts us := by
  induction h with
  | nil => exact .nil
  | @cons t u ts us hbare hstart hstop hspace h ih =>
    have hwhole : Shifted (t :: ts) (u :: us) := .cons hbare hstart hstop hspace h
    exact .cons hbare (hwhole.opening_eq hsteps) hwhole.atMain_eq
      (ih (hsteps.part (List.infix_cons List.infix_rfl)))

end Shifted

end

end TodLang
