import TodLang.Proofs.Cursor.Outcome
import TodLang.Proofs.Grammar.Congruence
import TodLang.Proofs.Token.Tiling
/-!
A name with a bracket behind it is a cast or an element of an array. It is read as a cast if and
only if a written type can be read from the name on and a parenthesis stands behind it. Otherwise
the reading comes to what it would come to if no type had been tried. The main result is
`named_comesTo_bracket`.
-/

namespace TodLang

namespace Steps

/-- A written type, a parenthesis, arguments and a closing parenthesis. -/
def castForm (limit : Nat) : Steps Expression := do
  let type ← typeClause limit
  let _ ← sign .lparen
  let (parts, closing) ← arguments .rparen limit
  return .cast type parts closing

/-- A name and what one pair of brackets behind it makes of it. -/
def elementForm (limit : Nat) : Steps Expression := do
  let array ← ident
  suffix (.name array) limit

end Steps

/-- A written type can be read from a position on, and that leaves the cursor at a parenthesis. -/
def CastAhead (tokens : List Token) (position : Nat) : Prop :=
  ∃ type stop, ComesTo tokens position Steps.typeClause (.ok type) stop ∧
    (tokenAt tokens stop).kind = .sign .lparen

/-! ### Lists of tokens -/

def parseCastForm (tokens : List Token) : Parse Expression tokens.length := do
  let ⟨type, r₁, h₁⟩ ← parseCastHead tokens
  let ⟨⟨arguments, closing⟩, r₂, h₂⟩ ← after h₁ (parseArguments .rparen r₁)
  return ⟨.cast type arguments closing, r₂, h₂⟩

def parseElementForm (tokens : List Token) : Parse Expression tokens.length := do
  let ⟨array, r₁, h₁⟩ ← takeIdent tokens
  after h₁ (parseSuffix (.name array) r₁)

theorem parseCastHead_ok_iff (tokens : List Token) :
    (∃ head, parseCastHead tokens = .ok head) ↔
      ∃ type, parseTypeClause tokens = .ok type ∧ nextKind type.rest = some (.sign .lparen) := by
  constructor
  · rintro ⟨head, h⟩
    obtain ⟨t, htype, hkind⟩ := parseCastHead_iff.1 ⟨head.shorter, h⟩
    obtain ⟨_, htype⟩ := htype.reads
    exact ⟨_, htype, congrArg some hkind⟩
  · rintro ⟨⟨type, rest, hlt⟩, htype, hnext⟩
    cases rest with
    | nil => cases hnext
    | cons t others =>
      have hclause := parseTypeClause_iff.1 ⟨hlt, htype⟩
      obtain ⟨_, h⟩ := parseCastHead_iff.2 ⟨t, hclause, Option.some.inj hnext⟩
      exact ⟨_, h⟩

theorem parseNamed_of_cast {tokens : List Token} {head : Parsed TypeClause tokens.length}
    (hbracket : kindAt tokens 1 = some (.sign .lbrack)) (hhead : parseCastHead tokens = .ok head) :
    parseNamed tokens = parseCastForm tokens := by
  rw [parseNamed, hbracket, parseCastForm, hhead]
  dsimp only
  rw [tryCastHead?_eq, hhead]
  rfl

theorem parseNamed_of_element {tokens : List Token} {mismatch : Mismatch}
    (hbracket : kindAt tokens 1 = some (.sign .lbrack))
    (hhead : parseCastHead tokens = .error mismatch) :
    parseNamed tokens = parseElementForm tokens := by
  rw [parseNamed, hbracket, parseElementForm]
  dsimp only
  rw [tryCastHead?_eq, hhead]
  rfl

def Expression.isCast : Expression → Bool
  | .cast _ _ _ => true
  | _ => false

theorem isCast_of_castForm {tokens : List Token} {p : Parsed Expression tokens.length}
    (h : parseCastForm tokens = .ok p) : p.value.isCast = true := by
  obtain ⟨p₁, -, h⟩ := bind_ok h
  obtain ⟨p₂, -, h⟩ := bind_ok h
  cases h
  rfl

theorem isCast_of_elementForm {tokens : List Token} {p : Parsed Expression tokens.length}
    (h : parseElementForm tokens = .ok p) : p.value.isCast = false := by
  obtain ⟨p₁, -, h⟩ := bind_ok h
  obtain ⟨q, hsuffix, hvalue, -⟩ := after_eq_ok.1 h
  obtain ⟨_, _, hspelling⟩ := (parseSuffix_reading ⟨q.shorter, hsuffix⟩).spells
  rw [← hvalue]
  generalize q.value = e at hspelling
  cases hspelling <;> rfl

/-! ### The cursor -/

section

variable {tokens : List Token} {p : Nat}

theorem castForm_follows {ts : List Token} {limit : Nat} (h : ahead tokens p = ts)
    (hlimit : 8 * ts.length + 6 < limit) :
    Follows tokens p (Steps.castForm limit) (parseCastForm ts) := by
  rw [Steps.castForm, parseCastForm, parseCastHead, bind_assoc]
  refine (typeClause_follows h (by omega)).bind fun q₁ a₁ h₁ => ?_
  rw [bind_assoc]
  refine (sign_follows _ h₁).after.bind fun q₂ a₂ h₂ => ?_
  have := a₁.shorter
  have := a₂.shorter
  rw [pure_bind]
  refine (arguments_follows .rparen h₂ (by omega)).after.bind fun q₃ a₃ h₃ => ?_
  exact .pure rfl h₃

theorem elementForm_follows {ts : List Token} {limit : Nat} (h : ahead tokens p = ts)
    (hlimit : 8 * ts.length < limit) :
    Follows tokens p (Steps.elementForm limit) (parseElementForm ts) := by
  unfold Steps.elementForm parseElementForm
  refine (ident_follows h).bind fun q₁ a₁ h₁ => ?_
  have := a₁.shorter
  exact (suffix_follows _ h₁ (by omega)).after

theorem castAhead_iff (tokens : List Token) (p : Nat) :
    CastAhead tokens p ↔ ∃ head, parseCastHead (ahead tokens p) = .ok head := by
  have hfollows : ∀ limit, readingLimit tokens ≤ limit →
      Follows tokens p (Steps.typeClause limit) (parseTypeClause (ahead tokens p)) :=
    fun limit h => typeClause_follows rfl (lt_of_readingLimit h p (by omega))
  obtain ⟨outcome, stop, hplace, hmeets⟩ := exists_meets_of_follows (hfollows _ (Nat.le_refl _))
  have hcomes := ComesTo.of_follows hfollows hplace hmeets
  rw [parseCastHead_ok_iff]
  constructor
  · rintro ⟨type, q, htype, hparen⟩
    obtain ⟨rfl, rfl⟩ := hcomes.unique htype
    cases hread : parseTypeClause (ahead tokens p) with
    | error mismatch => rw [hread] at hmeets; exact hmeets.elim
    | ok a =>
      rw [hread] at hmeets
      exact ⟨a, rfl, hmeets.2 ▸ (nextKind_ahead (by decide)).2 hparen⟩
  · rintro ⟨a, hread, hnext⟩
    rw [hread] at hmeets
    cases outcome with
    | error e => exact hmeets.elim
    | ok type =>
      rw [← hmeets.2] at hnext
      exact ⟨type, stop, hcomes, (nextKind_ahead (by decide)).1 hnext⟩

theorem castAhead_iff_tried (tokens : List Token) (p : Nat) :
    CastAhead tokens p ↔ (tryCastHead? (ahead tokens p)).isSome = true := by
  rw [castAhead_iff, tryCastHead?_eq]
  cases parseCastHead (ahead tokens p) <;> simp [Except.toOption]

/-- Where a name has a bracket behind it, it is a cast if and only if a written type can be read
from the name on and leaves the cursor at a parenthesis. Then all comes out as if the type were
known to be there, errors in the arguments too. Otherwise all comes out as if no type had been
tried: the value or error, and where the cursor is left. -/
theorem named_comesTo_bracket (tokens : List Token) (position : Nat)
    (hname : (tokenAt tokens position).kind = .identifier)
    (hbracket : (tokenAt tokens (position + 1)).kind = .sign .lbrack) :
    (CastAhead tokens position → ∃ outcome stop,
      ComesTo tokens position Steps.named outcome stop ∧
      ComesTo tokens position Steps.castForm outcome stop ∧
      Meets tokens stop outcome (parseNamed (ahead tokens position))) ∧
    (¬ CastAhead tokens position → ∃ outcome stop,
      ComesTo tokens position Steps.named outcome stop ∧
      ComesTo tokens position Steps.elementForm outcome stop ∧
      Meets tokens stop outcome (parseNamed (ahead tokens position))) ∧
    ∀ e stop, ComesTo tokens position Steps.named (.ok e) stop →
      (e.isCast = true ↔ CastAhead tokens position) := by
  have hnext : nextKind (ahead tokens position) = some .identifier :=
    (nextKind_ahead (by decide)).2 hname
  have hsecond : kindAt (ahead tokens position) 1 = some (.sign .lbrack) := by
    have hlength : 1 ≤ (ahead tokens position).length := by
      cases hahead : ahead tokens position with
      | nil => rw [hahead] at hnext; cases hnext
      | cons t rest => exact Nat.succ_le_succ (Nat.zero_le _)
    rw [kindAt_ahead hlength, hbracket, if_neg (by simp [Token.isEnding, hbracket])]
  have hnamed : ∀ limit, readingLimit tokens ≤ limit →
      Follows tokens position (Steps.named limit) (parseNamed (ahead tokens position)) :=
    fun limit h => named_follows rfl hnext (lt_of_readingLimit h position (by omega))
  have hcast : ∀ limit, readingLimit tokens ≤ limit →
      Follows tokens position (Steps.castForm limit) (parseCastForm (ahead tokens position)) :=
    fun limit h => castForm_follows rfl (lt_of_readingLimit h position (by omega))
  have helement : ∀ limit, readingLimit tokens ≤ limit →
      Follows tokens position (Steps.elementForm limit)
        (parseElementForm (ahead tokens position)) :=
    fun limit h => elementForm_follows rfl (lt_of_readingLimit h position (by omega))
  rw [castAhead_iff]
  cases hhead : parseCastHead (ahead tokens position) with
  | ok head =>
    rw [parseNamed_of_cast hsecond hhead] at hnamed ⊢
    obtain ⟨outcome, stop, hcomes, hform, hmeets⟩ := exists_comesTo_both hnamed hcast
    refine ⟨fun _ => ⟨outcome, stop, hcomes, hform, hmeets⟩, fun h => absurd ⟨head, rfl⟩ h, ?_⟩
    intro e q he
    obtain ⟨rfl, -⟩ := hcomes.unique he
    obtain ⟨a, hread, rfl⟩ := hmeets.exists_ok
    exact iff_of_true (isCast_of_castForm hread) ⟨head, rfl⟩
  | error mismatch =>
    rw [parseNamed_of_element hsecond hhead] at hnamed ⊢
    obtain ⟨outcome, stop, hcomes, hform, hmeets⟩ := exists_comesTo_both hnamed helement
    have hnone : ¬ ∃ head : Parsed TypeClause (ahead tokens position).length,
        (.error mismatch : Parse TypeClause _) = .ok head := by
      rintro ⟨_, h⟩
      cases h
    refine ⟨fun h => absurd h hnone, fun _ => ⟨outcome, stop, hcomes, hform, hmeets⟩, ?_⟩
    intro e q he
    obtain ⟨rfl, -⟩ := hcomes.unique he
    obtain ⟨a, hread, rfl⟩ := hmeets.exists_ok
    exact iff_of_false (by simp [isCast_of_elementForm hread]) hnone

/-- `a[b](c[d])`, a cast with an element of an array in it. -/
def castTokens : List Token :=
  [⟨.identifier, "a", none, ⟨1, 0, 1, 1, 1, 1, 2⟩, false⟩,
    ⟨.sign .lbrack, "[", none, ⟨1, 1, 2, 1, 2, 1, 3⟩, false⟩,
    ⟨.identifier, "b", none, ⟨1, 2, 3, 1, 3, 1, 4⟩, false⟩,
    ⟨.sign .rbrack, "]", none, ⟨1, 3, 4, 1, 4, 1, 5⟩, false⟩,
    ⟨.sign .lparen, "(", none, ⟨1, 4, 5, 1, 5, 1, 6⟩, false⟩,
    ⟨.identifier, "c", none, ⟨1, 5, 6, 1, 6, 1, 7⟩, false⟩,
    ⟨.sign .lbrack, "[", none, ⟨1, 6, 7, 1, 7, 1, 8⟩, false⟩,
    ⟨.identifier, "d", none, ⟨1, 7, 8, 1, 8, 1, 9⟩, false⟩,
    ⟨.sign .rbrack, "]", none, ⟨1, 8, 9, 1, 9, 1, 10⟩, false⟩,
    ⟨.sign .rparen, ")", none, ⟨1, 9, 10, 1, 10, 1, 11⟩, true⟩,
    Token.ending ⟨1, 10, 10, 1, 11, 1, 11⟩]

theorem named_comesTo_bracket_cast :
    tokenize 1 true "a[b](c[d])" = .ok castTokens ∧
      (CastAhead castTokens 0 ∧ ∃ outcome stop,
        ComesTo castTokens 0 Steps.named outcome stop ∧
        ComesTo castTokens 0 Steps.castForm outcome stop) ∧
      (¬ CastAhead castTokens 5 ∧ ∃ outcome stop,
        ComesTo castTokens 5 Steps.named outcome stop ∧
        ComesTo castTokens 5 Steps.elementForm outcome stop) := by
  have hcast : CastAhead castTokens 0 := by
    rw [castAhead_iff_tried]
    cbv
  have helement : ¬ CastAhead castTokens 5 := by
    rw [castAhead_iff_tried, Bool.not_eq_true]
    cbv
  obtain ⟨outcome, stop, hnamed, hform, -⟩ :=
    (named_comesTo_bracket castTokens 0 rfl rfl).1 hcast
  obtain ⟨outcome', stop', hnamed', hform', -⟩ :=
    (named_comesTo_bracket castTokens 5 rfl rfl).2.1 helement
  exact ⟨by decide +kernel, ⟨hcast, outcome, stop, hnamed, hform⟩,
    helement, outcome', stop', hnamed', hform'⟩

end

end TodLang
