import TodLang.Proofs.Token.Respelling
/-!
What it changes that `#` begins a comment. The scanner asks for that only where a piece begins with
`#`, and where `#` begins no comment it is an illegal lexeme by itself. So a source that has tokens,
and no such `#` among them, is the same pieces either way and has the same tokens where `#` begins a
comment (`tokenize_hashComments`). A `#` inside a text literal or a comment makes no difference.
-/

namespace TodLang

/-! ### One piece -/

theorem readComment?_of_ne {c : Char} (hc : c ≠ '#') (rest : List Char) (hash other : Bool) :
    readComment? hash (c :: rest) = readComment? other (c :: rest) := by
  unfold readComment?
  split
  · rfl
  · rfl
  · next heq =>
    obtain ⟨rfl, -⟩ := List.cons.inj heq
    exact absurd rfl hc
  · rfl

/-- What begins with another character than `#` is the same piece either way. -/
theorem readPiece_of_ne {c : Char} (hc : c ≠ '#') (rest : List Char) (hash other : Bool) :
    readPiece hash c rest = readPiece other c rest := by
  unfold readPiece
  rw [readComment?_of_ne hc rest hash other]

theorem Sign.head?_spelling_ne (s : Sign) : s.spelling.head? ≠ some '#' := by
  cases s <;> decide

theorem longestSign?_hash (rest : List Char) : longestSign? ('#' :: rest) = none := by
  cases hsign : longestSign? ('#' :: rest) with
  | none => rfl
  | some s =>
    obtain ⟨tail, htext⟩ := (longestSign?_eq_some hsign).1
    have hhead := congrArg List.head? htext
    rw [List.head?_append_of_ne_nil _ (List.ne_nil_of_length_pos s.length_spelling.1)] at hhead
    exact absurd hhead s.head?_spelling_ne

/-- Where `#` begins no comment it stands for itself. -/
theorem readPiece_hash (rest : List Char) :
    readPiece false '#' rest = .ok (.lexeme .illegal none ['#'], rest) := by
  unfold readPiece
  rw [longestSign?_hash]
  rfl

/-- No lexeme that has a meaning begins with `#`. -/
theorem illegal_of_readPiece_hash {hash : Bool} {rest text after : List Char} {kind : TokenKind}
    {value : Option Value} (h : readPiece hash '#' rest = .ok (.lexeme kind value text, after)) :
    kind = .illegal := by
  cases hash with
  | true => cases h
  | false =>
    rw [readPiece_hash] at h
    cases h
    rfl

/-! ### A whole source -/

/-- No token is a `#` that stands for itself. -/
def NoLoneHash (tokens : List Token) : Prop :=
  ∀ t ∈ tokens, ¬ (t.kind = .illegal ∧ t.literal = "#")
  deriving Decidable

/-- A text that has tokens, and no `#` among them, is the same pieces where `#` begins a comment. -/
theorem readPieces_hashComments {file : Nat} {place : Position} {text : List Char}
    {tokens : List Token} (h : (readPieces false text).tokens file place = .ok tokens)
    (hhash : NoLoneHash tokens) : readPieces true text = readPieces false text := by
  fun_induction readPieces false text generalizing place tokens with
  | case1 => rw [readPieces]
  | case2 => cases h
  | case3 c rest piece after hpiece _ ih =>
    have same (hc : c ≠ '#') (hafter : readPieces true after = readPieces false after) :
        readPieces true (c :: rest) = .piece piece (readPieces false after) := by
      rw [readPiece_of_ne hc rest false true] at hpiece
      rw [readPieces_of_readPiece hpiece, hafter]
    cases piece with
    | blank text | comment text =>
      refine same ?_ (ih h hhash)
      rintro rfl
      rw [readPiece_hash] at hpiece
      cases hpiece
    | lexeme kind value text =>
      obtain ⟨others, hothers, rfl⟩ := Reading.exists_tokens_behind h
      obtain ⟨hfirst, hbehind⟩ := List.forall_mem_cons.1 hhash
      refine same ?_ (ih hothers hbehind)
      rintro rfl
      rw [readPiece_hash] at hpiece
      cases hpiece
      exact hfirst ⟨rfl, rfl⟩

/-- A source that has tokens, and no `#` that stands for itself among them, has the same tokens
where `#` begins a comment. -/
theorem tokenize_hashComments {file : Nat} {source : String} {tokens : List Token}
    (h : tokenize file false source = .ok tokens) (hhash : NoLoneHash tokens) :
    tokenize file true source = .ok tokens := by
  rw [tokenize, readPieces_hashComments h hhash]
  exact h

/-- A `#` in a text literal, one in a line comment and one in a block comment. -/
theorem tokenize_hashComments_inside :
    tokenize 0 false "'#' // #\n/* # */" =
        .ok [⟨.text, "'#'", some (.text "#"), ⟨0, 0, 3, 1, 1, 1, 4⟩, true⟩,
          Token.ending ⟨0, 16, 16, 2, 8, 2, 8⟩] ∧
      tokenize 0 true "'#' // #\n/* # */" =
        .ok [⟨.text, "'#'", some (.text "#"), ⟨0, 0, 3, 1, 1, 1, 4⟩, true⟩,
          Token.ending ⟨0, 16, 16, 2, 8, 2, 8⟩] := by
  refine ⟨?off, tokenize_hashComments ?off (by decide)⟩
  decide +kernel

end TodLang
