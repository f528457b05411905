import TodLang.Proofs.Cursor.Outcome
import TodLang.Proofs.Grammar.Chain
/-!
Chains of operands read with a cursor. Wherever the cursor is, reading by precedence comes to what
reading a chain comes to and leaves the cursor at the same place; its value is the tree of that
chain. The main result is `operation_comesTo_chain`.
-/

namespace TodLang

namespace Steps

/-- Operators in front of an operand, as many as there are, and the operand with the brackets behind
it. -/
def operand : Nat → Steps Operand
  | 0 => beyondLimit
  | limit + 1 => do
    match leadingOperator? 0 [← current] with
    | some s =>
      let sign ← operator s
      let ⟨leading, base⟩ ← operand limit
      return ⟨sign :: leading, base⟩
    | none =>
      let base ← postfixed limit
      return ⟨[], base⟩

/-- Operators with an operand behind each, for as long as an operator comes next that can stand
between operands. -/
def links : Nat → Steps (List Link)
  | 0 => beyondLimit
  | limit + 1 => do
    match joiningOperator? 0 [← current] with
    | none => return []
    | some s =>
      let sign ← operator s
      let second ← operand limit
      let others ← links limit
      return ⟨sign, second⟩ :: others

/-- Operands with operators between them, one after another. -/
def chain (limit : Nat) : Steps Chain := do
  let first ← operand limit
  let others ← links limit
  return ⟨first, others⟩

/-- The tree of a chain, after all of the chain was read. -/
def chainTree (limit : Nat) : Steps Expression := do
  let c ← chain limit
  return c.tree

end Steps

theorem operand_follows {tokens ts : List Token} {p limit : Nat} (h : ahead tokens p = ts)
    (hlimit : 8 * ts.length + 4 < limit) :
    Follows tokens p (Steps.operand limit) (parseOperand ts) := by
  obtain ⟨limit, rfl⟩ := Nat.exists_eq_add_one_of_ne_zero (Nat.ne_zero_of_lt hlimit)
  rw [Steps.operand, parseOperand]
  refine looks_current.follows ?_
  rw [leadingOperator?_current h]
  cases hsign : leadingOperator? 0 ts with
  | some s =>
    refine (operator_follows h (nextKind_of_leadingOperator? hsign)).bind fun q₁ a₁ h₁ => ?_
    have := a₁.shorter
    refine (operand_follows h₁ (by omega)).after.bind fun q₂ a₂ h₂ => ?_
    exact .pure rfl h₂
  | none =>
    refine (postfixed_follows h (by omega)).bind fun q₁ a₁ h₁ => ?_
    exact .pure rfl h₁
termination_by limit

theorem links_follows {tokens ts : List Token} {p limit : Nat} (h : ahead tokens p = ts)
    (hlimit : 8 * ts.length < limit) :
    Follows tokens p (Steps.links limit) (parseLinks 0 ts) := by
  obtain ⟨limit, rfl⟩ := Nat.exists_eq_add_one_of_ne_zero (Nat.ne_zero_of_lt hlimit)
  rw [Steps.links, parseLinks]
  refine looks_current.follows ?_
  rw [joiningOperator?_current h]
  cases hsign : joiningOperator? 0 ts with
  | none => exact .pure rfl h
  | some s =>
    refine (operator_follows h (joiningOperator?_eq_some hsign).1).bind fun q₁ a₁ h₁ => ?_
    have := a₁.shorter
    refine (operand_follows h₁ (by omega)).after.bind fun q₂ a₂ h₂ => ?_
    have := a₂.shorter
    refine (links_follows h₂ (by omega)).afterOptional.bind fun q₃ a₃ h₃ => ?_
    exact .pure rfl h₃
termination_by limit

theorem chain_follows {tokens ts : List Token} {p limit : Nat} (h : ahead tokens p = ts)
    (hlimit : 8 * ts.length + 4 < limit) :
    Follows tokens p (Steps.chain limit) (parseChain ts) := by
  unfold Steps.chain parseChain
  refine (operand_follows h hlimit).bind fun q₁ a₁ h₁ => ?_
  have := a₁.shorter
  refine (links_follows h₁ (by omega)).afterOptional.bind fun q₂ a₂ h₂ => ?_
  exact .pure rfl h₂

theorem chainTree_follows {tokens ts : List Token} {p limit : Nat} (h : ahead tokens p = ts)
    (hlimit : 8 * ts.length + 4 < limit) :
    Follows tokens p (Steps.chainTree limit) (parseOperation 0 ts) := by
  rw [parseOperation_eq_parseChain]
  exact (chain_follows h hlimit).bind fun q₁ a₁ h₁ => .pure rfl h₁

/-- Wherever the cursor is among some tokens, reading operands with operators by precedence comes to
the same value or error as reading them one after another and making the tree of the chain, and both
leave the cursor at the same place. It is what the reader of lists comes to as well. -/
theorem operation_comesTo_chain (tokens : List Token) (position : Nat) :
    ∃ outcome stop,
      ComesTo tokens position (Steps.operation 0) outcome stop ∧
      ComesTo tokens position Steps.chainTree outcome stop ∧
      Meets tokens stop outcome (parseOperation 0 (ahead tokens position)) := by
  exact exists_comesTo_both
    (fun _ h => operation_follows 0 rfl (lt_of_readingLimit h position (by omega)))
    fun _ h => chainTree_follows rfl (lt_of_readingLimit h position (by omega))

end TodLang
