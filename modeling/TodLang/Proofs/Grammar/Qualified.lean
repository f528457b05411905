import TodLang.Proofs.Binding.References
import TodLang.Proofs.Grammar.Everywhere
import TodLang.Proofs.Grammar.Expression
/-!
What stands behind `main`. In every program that was read it is a name, a call or an assignment, so
that `main` speaks of one name, and of the arguments or the value that are written with it
(`parseProgram_qualified`).
-/

namespace TodLang

namespace Expression

/-- How the name is used that `main` speaks of, if it may stand in front of an expression. The parts
of the expression, the arguments of a call or an assigned value, are written beside the name. -/
def ownUse? : Expression → Option Reference
  | name n => some (.value n)
  | call callee arguments _ => some (.call callee arguments.length)
  | assignment target _ => some (.target target)
  | _ => none

/-- If `main` stands in front of the expression, it may stand there. -/
def Qualifies (e : Expression) : Prop :=
  ∀ keyword inner, e = main keyword inner → inner.ownUse?.isSome = true

end Expression

open Node

/-- All expressions in an expression are such that `main` stands where it may. -/
abbrev QualifiesThroughout (e : Expression) : Prop :=
  EveryExpression Expression.Qualifies (.expression e)

/-- The same of a piece of an expression. -/
def ExpressionPart.QualifiesThroughout : ExpressionPart → Prop
  | expression e | operation _ e | operand e | accessed e | primary e =>
    TodLang.QualifiesThroughout e
  | own e => e.ownUse?.isSome = true ∧ TodLang.QualifiesThroughout e
  | arguments es => ∀ e ∈ es, TodLang.QualifiesThroughout e

/-- An expression without `main` in front of it is as its parts are. -/
theorem qualifies_of_parts {e : Expression} (he : ∀ keyword inner, e ≠ .main keyword inner)
    (hparts : ∀ part ∈ e.parts, QualifiesThroughout part) : QualifiesThroughout e :=
  everyExpression_iff_parts.2 ⟨fun keyword inner heq => absurd heq (he keyword inner), hparts⟩

theorem qualifies_name (n : Ident) : QualifiesThroughout (.name n) :=
  qualifies_of_parts nofun (List.forall_mem_nil _)

/-- The grammar allows nothing but a name, a call or an assignment behind `main`. -/
theorem SpellsExpression.qualifies {part : ExpressionPart} {tokens : List Token}
    (h : SpellsExpression part tokens) : part.QualifiesThroughout := by
  induction h with
  | assignment _ _ _ ih | edit _ _ _ _ ih | unary _ _ _ _ ih | dereference _ _ ih
  | parenthesized _ _ _ ih | fieldAssignment _ _ _ _ _ ih =>
    exact qualifies_of_parts nofun (List.forall_mem_singleton.2 ih)
  | step _ _ _ _ _ | literal _ | this _ | reference _ _ | name _ | fieldAccess _ _ _ =>
    exact qualifies_of_parts nofun (List.forall_mem_nil _)
  | operation _ ih | operand _ ih | accessed _ ih | primary _ ih => exact ih
  | binary _ _ _ _ ihleft ihright =>
    exact qualifies_of_parts nofun
      (List.forall_mem_cons.2 ⟨ihleft, List.forall_mem_singleton.2 ihright⟩)
  | arrayAssignment _ _ _ _ _ _ iharray ihindex ihvalue =>
    exact qualifies_of_parts nofun (List.forall_mem_cons.2
      ⟨iharray, List.forall_mem_cons.2 ⟨ihindex, List.forall_mem_singleton.2 ihvalue⟩⟩)
  | arrayAccess _ _ _ _ iharray ihindex =>
    exact qualifies_of_parts nofun
      (List.forall_mem_cons.2 ⟨iharray, List.forall_mem_singleton.2 ihindex⟩)
  | element _ _ _ _ ihindex =>
    exact qualifies_of_parts nofun
      (List.forall_mem_cons.2 ⟨qualifies_name _, List.forall_mem_singleton.2 ihindex⟩)
  | elementAssignment _ _ _ _ _ _ ihindex ihvalue =>
    exact qualifies_of_parts nofun (List.forall_mem_cons.2
      ⟨qualifies_name _, List.forall_mem_cons.2 ⟨ihindex, List.forall_mem_singleton.2 ihvalue⟩⟩)
  | call _ _ _ _ ih | packageCall _ _ _ _ _ _ ih | typeCall _ _ _ _ _ _ ih =>
    exact qualifies_of_parts nofun ih
  | cast _ _ _ _ _ ih | make _ _ _ _ _ _ ih | makeArray _ _ _ _ _ _ ih
  | makeStruct _ _ _ _ _ _ ih => exact qualifies_of_parts nofun ih
  | makeSized _ _ _ _ _ _ ih =>
    exact qualifies_of_parts nofun (List.forall_mem_singleton.2 ih)
  | main _ _ _ _ _ ih =>
    refine everyExpression_iff_parts.2 ⟨?_, List.forall_mem_singleton.2 ih.2⟩
    rintro keyword inner ⟨⟩
    exact ih.1
  | ownName _ => exact ⟨rfl, qualifies_name _⟩
  | ownCall _ ih | ownAssignment _ ih => exact ⟨rfl, ih⟩
  | none => exact List.forall_mem_nil _
  | last _ ih => exact List.forall_mem_singleton.2 ih
  | more _ _ _ ih ihothers => exact List.forall_mem_cons.2 ⟨ih, ihothers⟩

/-- Wherever `main` stands in a program that was read, it speaks of a name, a call or an
assignment. -/
theorem parseProgram_qualified {tokens : List Token} {members : List Member}
    (h : parseProgram tokens = .ok members) :
    ∀ m ∈ members, EveryExpression Expression.Qualifies (.member m) := by
  have hread : HoldsOfRead Expression.Qualifies := by
    intro tokens p hp
    obtain ⟨front, -, hspells⟩ := parseExpression_spells ⟨p.shorter, hp⟩
    exact SpellsExpression.qualifies hspells
  exact parseProgram_everyExpression hread h

end TodLang
