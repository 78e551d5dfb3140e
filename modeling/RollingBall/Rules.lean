import RollingBall.Scalar

/-!
# The rules of the game

The constants of time, size and motion. Lengths are in level units and times in seconds.
-/

namespace RollingBall.Rules

variable {α : Type} [Scalar α]

/-- The number of ticks in a second. -/
def ticksPerSecond : Nat := 60

/-- The time between two ticks. -/
def tickTime : α := 1.0 / Scalar.ofNat ticksPerSecond

/-- The level reaches this far to the left and right of its middle. -/
def levelWidth : α := 8.0

/-- The level reaches this far above and below its middle. -/
def levelHeight : α := 8.0

/-- The radius of the ball. -/
def ballRadius : α := 0.4

/-- The speed of the ball on flat ground. -/
def ballSpeed : α := 1.5

/-- How far the ball falls in a tick for each second since it last touched a curve. -/
def gravity : α := 0.67

/-- The least time since the last contact that counts for a fall. -/
def minFallTime : α := 0.1

/-- The greatest time since the last contact that counts for a fall. -/
def maxFallTime : α := 0.5

/-- A curve this far above the middle of the ball still counts as below it. -/
def contactSlack : α := 0.005

/-- The width over which a slope is measured. -/
def slopeWidth : α := 0.01

/-- The side of the box around the flag. -/
def flagSize : α := 1.0

/-- The radius of a spike. -/
def spikeRadius : α := 0.35

end RollingBall.Rules
