import TodLang.Proofs.Grammar.Lockstep
import TodLang.Token.Scan
/-!
Sources under other numbers. The number of a file stands in every place that a source has and
decides nothing: a source with another number has the same tokens and the same members in the file
of that number, or the same fault (`tokenize_files`, `parseProgram_files`).
-/

namespace TodLang

section

variable (g : Relocation)

/-- The fault where a relocation puts it. -/
def LexicalError.relocate (e : LexicalError) : LexicalError :=
  { e with span := g.span e.span }

/-- The tokens that do not fit, where a relocation puts them. -/
def Mismatch.relocate (mismatch : Mismatch) : Mismatch :=
  { mismatch with rest := mismatch.rest.map (Token.relocate g) }

/-- The fault where a relocation puts it. -/
def SyntaxError.relocate (e : SyntaxError) : SyntaxError :=
  { e with found := e.found.relocate g }

theorem SyntaxError.relocate_span (e : SyntaxError) : (e.relocate g).span = g.span e.span := rfl

end

theorem Congruent.map_relocate {g g' : Relocation} {ts us : List Token}
    (h : Congruent g g' ts us) :
    ts.map (Token.relocate g) = us.map (Token.relocate g') := by
  induction h with
  | nil => rfl
  | cons hmoved _ _ _ ih => rw [List.map_cons, List.map_cons, hmoved, ih]

section

variable (number : Nat → Nat)

/-! ### Tokens -/

theorem Reading.tokens_files (file : Nat) (place : Position) (r : Reading) :
    r.tokens (number file) place =
      ((r.tokens file place).map (List.map (Token.relocate (.files number)))).mapError
        (LexicalError.relocate (.files number)) := by
  induction r generalizing place with
  | finished => rfl
  | broken piece => rfl
  | piece first next ih =>
    cases first with
    | blank text | comment text => exact ih _
    | lexeme kind value text =>
      simp only [Reading.tokens, ih]
      cases next.tokens file (place.advance text) <;> rfl

/-- A source with another number has the same tokens, in the file of that number. -/
theorem tokenize_files (file : Nat) (hash : Bool) (source : String) :
    tokenize (number file) hash source =
      ((tokenize file hash source).map (List.map (Token.relocate (.files number)))).mapError
        (LexicalError.relocate (.files number)) :=
  Reading.tokens_files number file Position.start _

/-! ### Members -/

theorem opening_files (ts : List Token) :
    opening (ts.map (Token.relocate (.files number))) = opening ts := by
  match ts with
  | [] => rfl
  | [_] => rfl
  | [_, _] => rfl
  | _ :: _ :: _ :: _ => rfl

theorem atMain_files (ts : List Token) :
    atMain (ts.map (Token.relocate (.files number))) = atMain ts := by
  match ts with
  | [] => rfl
  | [_] => rfl
  | _ :: _ :: _ => rfl

/-- Tokens are congruent to the same tokens in files of other numbers. -/
theorem congruent_files (ts : List Token) :
    Congruent (.files number) .stay ts (ts.map (Token.relocate (.files number))) := by
  induction ts with
  | nil => exact .nil
  | cons t others ih =>
    exact .cons rfl (opening_files number (t :: others)).symm
      (atMain_files number (t :: others)).symm ih

theorem parseMembers_files (tokens : List Token) :
    parseMembers (tokens.map (Token.relocate (.files number))) =
      ((parseMembers tokens).map (List.map (Member.relocate (.files number)))).mapError
        (Mismatch.relocate (.files number)) := by
  have hmembers := parseMembers_congruent (congruent_files number tokens)
  match parseMembers tokens, parseMembers (tokens.map (Token.relocate (.files number))),
    hmembers with
  | .ok members, .ok members', hmembers =>
    rw [MembersAgree, Member.relocate_stay, List.map_id] at hmembers
    rw [← hmembers]
    rfl
  | .error a, .error b, ⟨hwanted, hrest⟩ =>
    have hmoved : a.rest.map (Token.relocate (.files number)) = b.rest :=
      hrest.map_relocate.trans (List.map_id b.rest)
    show Except.error b = .error (a.relocate (.files number))
    rw [Mismatch.relocate, hwanted, hmoved]

theorem beforeEnding_files (tokens : List Token) :
    beforeEnding (tokens.map (Token.relocate (.files number))) =
      (beforeEnding tokens).map (Token.relocate (.files number)) := by
  rw [beforeEnding, List.takeWhile_map]
  rfl

theorem endingSpan_files {tokens : List Token} (h : tokens ≠ []) :
    endingSpan (tokens.map (Token.relocate (.files number))) =
      (Relocation.files number).span (endingSpan tokens) := by
  have hending : Token.isEnding ∘ Token.relocate (.files number) = Token.isEnding := rfl
  rw [endingSpan, endingSpan, List.find?_map, hending]
  cases tokens.find? Token.isEnding with
  | some ending => rfl
  | none =>
    rw [Option.map_none, List.getLast?_map, List.getLast?_eq_some_getLast h]
    rfl

/-- A program whose tokens are in files of other numbers has the same members there, or does not
fit the grammar at the same token. -/
theorem parseProgram_files (tokens : List Token) :
    parseProgram (tokens.map (Token.relocate (.files number))) =
      ((parseProgram tokens).map (List.map (Member.relocate (.files number)))).mapError
        (SyntaxError.relocate (.files number)) := by
  by_cases hempty : tokens = []
  · subst hempty
    have hnone : parseProgram [] = .ok [] := by
      rw [parseProgram, beforeEnding, List.takeWhile_nil, parseMembers]
      rfl
    rw [List.map_nil, hnone]
    rfl
  · rw [parseProgram, parseProgram, beforeEnding_files, parseMembers_files,
      endingSpan_files number hempty]
    cases parseMembers (beforeEnding tokens) with
    | ok members => rfl
    | error mismatch =>
      have hfound : (mismatch.rest.map (Token.relocate (.files number))).head?.getD
          (Token.ending ((Relocation.files number).span (endingSpan tokens))) =
          (mismatch.rest.head?.getD (Token.ending (endingSpan tokens))).relocate
            (.files number) := by
        cases mismatch.rest <;> rfl
      show Except.error (SyntaxError.mk _ _) = Except.error (SyntaxError.mk _ _)
      rw [Mismatch.relocate, hfound]

end

/-- All members of a program that is read from a file are in that file: they stay as they are where
every file gets its number. -/
theorem span_file_of_parseProgram {file : Nat} {hash : Bool} {source : String}
    {tokens : List Token} {members : List Member} (htokens : tokenize file hash source = .ok tokens)
    (hparse : parseProgram tokens = .ok members) {member : Member} (hmember : member ∈ members) :
    member.span.file = file := by
  let number : Nat → Nat := fun _ => file
  have hsame := tokenize_files number file hash source
  rw [htokens] at hsame
  have hmoved : tokens = tokens.map (Token.relocate (.files number)) :=
    Except.ok.inj hsame
  have hparsed := parseProgram_files number tokens
  rw [← hmoved, hparse] at hparsed
  have hmembers : members = members.map (Member.relocate (.files number)) := Except.ok.inj hparsed
  rw [hmembers] at hmember
  obtain ⟨m, -, rfl⟩ := List.mem_map.1 hmember
  rw [Member.relocate_span]
  rfl

end TodLang
