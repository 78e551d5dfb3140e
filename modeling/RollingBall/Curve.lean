import RollingBall.Condition

/-!
# Curves

A curve is a formula together with the condition under which it exists. Reading a curve at a
coordinate puts the coordinate into the context, where the condition sees it afterwards.
-/

namespace RollingBall

variable {α : Type}

/-- A formula that exists where a condition is met. -/
structure Curve (α : Type) where
  formula : Formula α
  condition : Condition α

namespace Curve

/-- The curve that exists everywhere. -/
def unconditional (formula : Formula α) : Curve α := ⟨formula, .constant true⟩

variable [Scalar α]

/-- The condition admits the context. -/
def admits (f : Curve α) (ctx : Context α) : Bool := f.condition.eval ctx

/-- The height in a context. -/
def eval (f : Curve α) (ctx : Context α) : α := f.formula.eval ctx

/-- The height at a coordinate, and the context that now holds the coordinate. -/
def evalAt (f : Curve α) (x : α) (ctx : Context α) : α × Context α :=
  let ctx := { ctx with x := x }
  (f.eval ctx, ctx)

end Curve

end RollingBall
