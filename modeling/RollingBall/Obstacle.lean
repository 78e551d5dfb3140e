import RollingBall.Ball

/-!
# Obstacles

Every obstacle is made of spikes, and a spike that overlaps the ball ends the round. A wheel has one
spike at its hub and more on spokes that turn with time. To turn a wheel, its spikes are put to
their new places one after another (`Wheel.Assembly`).

## Main definitions

* `Spike`, `Wheel`, `Obstacle`: the obstacles.
* `Wheel.turnTo`: the spokes at a time. `Wheel.moveTo`: the wheel elsewhere, not turned.
* `Obstacle.kills`: some spike overlaps the ball.
-/

namespace RollingBall

variable {α : Type}

/-- A point that must not be touched. -/
structure Spike (α : Type) where
  position : Point α

/-- Spikes on spokes around a hub. -/
structure Wheel (α : Type) where
  center : Point α
  arms : UInt32
  /-- The number of spikes from the hub to the end of a spoke, both counted. -/
  armLength : UInt32
  /-- The speed of rotation in radians per second. -/
  speed : α
  /-- The spike at the hub and then those of one spoke after another, from the inside out. -/
  spikes : List (Spike α)

/-- The spikes on the spokes of a wheel while one after another is put to its place. -/
structure Wheel.Assembly (α : Type) where
  /-- The spikes that have been put to their places, the last one first. -/
  placed : List (Spike α)
  waiting : List (Spike α)

namespace Wheel.Assembly

/-- The next spike goes to a place, if one is waiting. -/
def put (assembly : Assembly α) (place : Point α) : Assembly α :=
  match assembly.waiting with
  | [] => assembly
  | _ :: waiting => ⟨⟨place⟩ :: assembly.placed, waiting⟩

/-- The spikes in their order; those that are waiting are where they were. -/
def spikes (assembly : Assembly α) : List (Spike α) :=
  assembly.placed.reverse ++ assembly.waiting

end Wheel.Assembly

variable [Scalar α]

/-- The spike overlaps the ball. -/
def Spike.kills (spike : Spike α) (ball : Ball α) : Bool :=
  let reach : α := Rules.spikeRadius + Rules.ballRadius
  decide (spike.position.distanceSquared ball.pos < reach * reach)

namespace Wheel

/-- The number of spikes on one spoke, the hub not counted. -/
def perArm (wheel : Wheel α) : Nat := wheel.armLength.toNat - 1

/-- The angle between neighbouring spokes. -/
def armAngle (wheel : Wheel α) : α := Scalar.turn / Scalar.ofNat (max wheel.arms.toNat 1)

/-- Puts spikes on the spoke at an angle, from the inside out. -/
def layArm (wheel : Wheel α) (angle : α) (assembly : Assembly α) : Assembly α :=
  let direction := Point.direction angle
  (List.range wheel.perArm).foldl
    (fun assembly r => assembly.put (wheel.center + direction.scale (Scalar.ofNat (r + 1))))
    assembly

/-- Puts spikes on a number of spokes, of which the first is at an angle, while any are waiting. -/
def layArms (wheel : Wheel α) : Nat → α → Assembly α → Assembly α
  | 0, _, assembly => assembly
  | n + 1, angle, assembly =>
    if assembly.waiting.isEmpty then assembly
    else wheel.layArms n (angle + wheel.armAngle) (wheel.layArm angle assembly)

/-- The wheel at a time, about its present hub. -/
def turnTo (wheel : Wheel α) (time : α) : Wheel α :=
  match wheel.spikes with
  | [] => wheel
  | _ :: spokes =>
    let assembly := wheel.layArms wheel.arms.toNat (time * wheel.speed) ⟨[], spokes⟩
    { wheel with spikes := ⟨wheel.center⟩ :: assembly.spikes }

/-- The wheel at time zero, made of as many spikes as its shape has places. -/
def ofShape (center : Point α) (arms armLength : UInt32) (speed : α) : Wheel α :=
  let count := arms.toNat * (armLength.toNat - 1) + 1
  turnTo ⟨center, arms, armLength, speed, List.replicate count ⟨center⟩⟩ 0.0

/-- The wheel with its hub elsewhere; every spike moves along. -/
def moveTo (wheel : Wheel α) (center : Point α) : Wheel α :=
  let shift := center - wheel.center
  { wheel with
    center := center
    spikes := wheel.spikes.map fun spike => ⟨spike.position + shift⟩ }

end Wheel

/-- An obstacle of a level. -/
inductive Obstacle (α : Type) where
  | spike (spike : Spike α)
  | wheel (wheel : Wheel α)

namespace Obstacle

/-- The spikes the obstacle is made of. -/
def spikes : Obstacle α → List (Spike α)
  | spike s => [s]
  | wheel w => w.spikes

/-- Some spike overlaps the ball. -/
def kills (obstacle : Obstacle α) (ball : Ball α) : Bool :=
  obstacle.spikes.any fun spike => spike.kills ball

/-- The obstacle at a time. Only wheels turn. -/
def turnTo (time : α) : Obstacle α → Obstacle α
  | spike s => spike s
  | wheel w => wheel (w.turnTo time)

/-- The point the obstacle is moved by. -/
def anchor : Obstacle α → Point α
  | spike s => s.position
  | wheel w => w.center

/-- The obstacle moved to another place. -/
def moveTo (place : Point α) : Obstacle α → Obstacle α
  | spike _ => spike ⟨place⟩
  | wheel w => wheel (w.moveTo place)

end Obstacle

end RollingBall
