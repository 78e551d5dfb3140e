import RollingBall.Scalar

/-!
# Points

Points of the plane and the vectors between them.
-/

namespace RollingBall

/-- A point of the plane, or a displacement. -/
structure Point (α : Type) where
  x : α
  y : α
deriving DecidableEq, Repr

namespace Point

variable {α : Type} [Scalar α]

instance : Add (Point α) := ⟨fun p q => ⟨p.x + q.x, p.y + q.y⟩⟩

instance : Sub (Point α) := ⟨fun p q => ⟨p.x - q.x, p.y - q.y⟩⟩

/-- The displacement stretched by a factor. -/
def scale (p : Point α) (factor : α) : Point α := ⟨p.x * factor, p.y * factor⟩

/-- The direction at an angle. -/
def direction (angle : α) : Point α := ⟨Scalar.cos angle, Scalar.sin angle⟩

/-- The square of the distance between two points. -/
def distanceSquared (p q : Point α) : α :=
  let d := p - q
  d.x * d.x + d.y * d.y

end Point

end RollingBall
