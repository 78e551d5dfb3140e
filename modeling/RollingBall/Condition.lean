import RollingBall.Formula.Folding

/-!
# Conditions

A condition says where a curve exists. It compares formulas; a chain `a < b < c` is the conjunction
of its links (`Condition.ofChain`).
-/

namespace RollingBall

variable {α : Type}

/-- A condition on the variables. -/
inductive Condition (α : Type) where
  | constant (value : Bool)
  | compare (relation : Relation) (lhs rhs : Formula α)
  | both (first second : Condition α)

namespace Condition

section Meaning

variable [Scalar α]

/-- The condition is met in a context. -/
def eval (ctx : Context α) : Condition α → Bool
  | constant value => value
  | compare relation lhs rhs => relation.holds (lhs.eval ctx) (rhs.eval ctx)
  | both first second => first.eval ctx && second.eval ctx

/-- What the condition says without a context. If the first part of a conjunction is refuted, the
second is not asked. -/
def constant? : Condition α → Option Bool
  | constant value => some value
  | compare relation lhs rhs =>
    match lhs.constant?, rhs.constant? with
    | some a, some b => some (relation.holds a b)
    | _, _ => none
  | both first second =>
    match first.constant? with
    | some true => second.constant?
    | other => other

/-- The condition with its formulas folded. -/
def fold : Condition α → Condition α
  | constant value => constant value
  | compare relation lhs rhs => compare relation lhs.fold rhs.fold
  | both first second => both first.fold second.fold

end Meaning

end Condition

/-- Operands joined by relations: at least one relation, and one operand after each. -/
structure Comparisons (ρ : Type) where
  first : ρ
  link : Relation × ρ
  links : List (Relation × ρ)

namespace Condition

/-- Adds one comparison after another, each from the last operand so far. -/
def extend (condition : Condition α) (last : Formula α) :
    List (Relation × Formula α) → Condition α
  | [] => condition
  | (relation, next) :: links => extend (both condition (compare relation last next)) next links

/-- The conjunction of the comparisons of neighbours, nested to the left. -/
def ofChain (chain : Comparisons (Formula α)) : Condition α :=
  extend (compare chain.link.1 chain.first chain.link.2) chain.link.2 chain.links

end Condition

end RollingBall
