import RollingBall.Level

/-!
# Blueprints

A blueprint describes a level without playing it; every play gets a fresh level from it
(`Blueprint.instantiate`). A won round is scored against the model solution (`Blueprint.score`).
-/

namespace RollingBall

variable {α : Type}

/-- An obstacle as described. -/
inductive ObstacleLayout (α : Type) where
  | spike (x y : α)
  | wheel (x y : α) (arms armLength : UInt32) (speed : α)
deriving DecidableEq, Repr

/-- The motion of obstacles as described. -/
inductive MotionLayout (α : Type) where
  | still
  | bobbing (amplitude frequency : α)
deriving DecidableEq, Repr

/-- The description of a level. -/
structure Blueprint (α : Type) where
  id : UInt32
  name : String
  start : Point α
  /-- The lower left corner of the flag. -/
  goal : Point α
  obstacles : List (ObstacleLayout α)
  motion : MotionLayout α
  targetEquations : UInt32
  /-- The time of the model solution in seconds. -/
  targetTime : α
deriving DecidableEq, Repr

variable [Scalar α]

/-- The obstacle described. -/
def ObstacleLayout.build : ObstacleLayout α → Obstacle α
  | spike x y => .spike ⟨⟨x, y⟩⟩
  | wheel x y arms armLength speed => .wheel (.ofShape ⟨x, y⟩ arms armLength speed)

namespace Blueprint

/-- A fresh level. -/
def instantiate (b : Blueprint α) : Level α :=
  let obstacles := b.obstacles.map ObstacleLayout.build
  match b.motion with
  | .still => .still b.start b.goal obstacles
  | .bobbing amplitude frequency => .bobbing b.start b.goal obstacles amplitude frequency

/-- The score of a win, from zero to one. Each equation more than the target and each second over
the target time costs a third. -/
def score (b : Blueprint α) (equations : Nat) (elapsed : α) : α :=
  let extra := Scalar.ofNat equations - Scalar.ofNat b.targetEquations.toNat
  let overtime := Scalar.larger (elapsed - b.targetTime) 0.0
  Scalar.clamp 0.0 1.0 (1.0 - extra / 3.0 - overtime / 3.0)

end Blueprint

end RollingBall
