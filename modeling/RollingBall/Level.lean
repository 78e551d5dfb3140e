import RollingBall.Obstacle

/-!
# Levels

A level has a start, a goal and obstacles. In a static level wheels turn about their hubs; in a
bobbing one all obstacles swing up and down together and no wheel turns.
-/

namespace RollingBall

variable {α : Type}

/-- How the obstacles of a level move. -/
inductive Motion (α : Type) where
  | still
  /-- All obstacles bob about their places in the list. -/
  | bobbing (amplitude frequency : α) (base : List (Point α))

/-- A level while it is played. -/
structure Level (α : Type) where
  /-- Where the lowest point of the ball begins. -/
  start : Point α
  /-- The lower left corner of the flag. -/
  goal : Point α
  /-- The obstacles at their present places. -/
  obstacles : List (Obstacle α)
  motion : Motion α

namespace Level

/-- A level whose obstacles keep their places. -/
def still (start goal : Point α) (obstacles : List (Obstacle α)) : Level α :=
  ⟨start, goal, obstacles, .still⟩

variable [Scalar α]

/-- A level whose obstacles bob about their first places. -/
def bobbing (start goal : Point α) (obstacles : List (Obstacle α)) (amplitude frequency : α) :
    Level α :=
  ⟨start, goal, obstacles, .bobbing amplitude frequency (obstacles.map Obstacle.anchor)⟩

/-- The displacement of bobbing obstacles at a time. -/
def bobOffset (amplitude frequency time : α) : Point α :=
  ⟨0.0, Scalar.sin (time * frequency) * amplitude⟩

/-- Moves each obstacle to its place in the list, moved by an offset; obstacles without a place
stay. -/
def placeAt (offset : Point α) : List (Obstacle α) → List (Point α) → List (Obstacle α)
  | obstacle :: obstacles, place :: places =>
    obstacle.moveTo (place + offset) :: placeAt offset obstacles places
  | obstacles, _ => obstacles

/-- The level at a time. -/
def advance (level : Level α) (time : α) : Level α :=
  match level.motion with
  | .still => { level with obstacles := level.obstacles.map (Obstacle.turnTo time) }
  | .bobbing amplitude frequency base =>
    { level with
      obstacles := placeAt (bobOffset amplitude frequency time) level.obstacles base }

/-- Some obstacle overlaps the ball. -/
def kills (level : Level α) (ball : Ball α) : Bool :=
  level.obstacles.any fun obstacle => obstacle.kills ball

end Level

end RollingBall
