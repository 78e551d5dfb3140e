import RollingBall.Graph
import RollingBall.Point
import RollingBall.Rules

/-!
# The ball

The position of the ball is that of its middle; a start point is where its lowest point lies.
-/

namespace RollingBall

/-- The ball. -/
structure Ball (α : Type) where
  /-- The middle of the ball. -/
  pos : Point α
  /-- The graph it rolled on in the last tick. -/
  support : Option GraphId
  lastContact : α

namespace Ball

variable {α : Type} [Scalar α]

/-- A ball that lies on a start point. -/
def atStart (start : Point α) : Ball α :=
  { pos := ⟨start.x, start.y + Rules.ballRadius⟩, support := none, lastContact := 0.0 }

/-- Puts the ball back on the start point. -/
def reset (_ball : Ball α) (start : Point α) : Ball α := atStart start

end Ball

end RollingBall
