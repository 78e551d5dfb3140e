import RollingBall.Contact
import RollingBall.Level

/-!
# The simulation

A round is played in ticks of fixed length. In each tick the obstacles are placed, the ball falls or
rolls on the highest curve under it, and the round ends if the ball is lost or reaches the flag. At
the end of a round the ball returns to the start, and whoever listens is told.

## Main definitions

* `Simulator`: a level with its graphs and ball.
* `Simulator.toggle`: starts or stops a round.
* `Simulator.tick`: one tick, with the end of the round if it ends in it.
-/

namespace RollingBall

variable {α : Type}

/-- Whether a round is being played. -/
inductive Phase where
  | stopped
  | running
deriving DecidableEq, Repr

/-- The end of a round. -/
structure RoundEnd (α : Type) where
  won : Bool
  /-- The seconds from the start of the round. -/
  elapsed : α
deriving DecidableEq, Repr

/-- A level being played. -/
structure Simulator (α : Type) where
  /-- The level, its obstacles where they were placed last. -/
  level : Level α
  graphs : GraphStore α
  ball : Ball α
  phase : Phase
  /-- The seconds since the round began. -/
  time : α
  solver : ContactSolver α
  /-- The ends that listeners were told of, in order. -/
  announced : List (RoundEnd α)

namespace Simulator

variable [Scalar α]

/-- A level without graphs, no round being played. -/
def ofLevel (level : Level α) : Simulator α where
  level := level
  graphs := .empty
  ball := .atStart level.start
  phase := .stopped
  time := 0.0
  solver := .ofRadius Rules.ballRadius
  announced := []

/-! ## Graphs -/

/-- Adds a curve as a graph. -/
def addGraph (sim : Simulator α) (curve : Curve α) : GraphId × Simulator α :=
  let (id, graphs) := sim.graphs.add curve
  (id, { sim with graphs := graphs })

/-- Removes a graph; says whether there was one. -/
def removeGraph (sim : Simulator α) (id : GraphId) : Bool × Simulator α :=
  let (found, graphs) := sim.graphs.remove id
  (found, { sim with graphs := graphs })

/-- Puts a curve in place of that of a graph; says whether there was one. -/
def replaceGraph (sim : Simulator α) (id : GraphId) (curve : Curve α) : Bool × Simulator α :=
  let (found, graphs) := sim.graphs.replace id curve
  (found, { sim with graphs := graphs })

/-! ## Rounds -/

/-- The seconds since the round began, zero while none is played. -/
def elapsed (sim : Simulator α) : α :=
  match sim.phase with
  | .running => sim.time
  | .stopped => 0.0

/-- Starts a round or stops it. The ball returns to the start either way. -/
def toggle (sim : Simulator α) : Simulator α :=
  let ball := sim.ball.reset sim.level.start
  match sim.phase with
  | .stopped => { sim with phase := .running, time := 0.0, ball := ball }
  | .running => { sim with phase := .stopped, ball := ball }

/-! ## Motion of the ball -/

/-- The slope of a curve at `x`, measured to both sides. -/
def slope (f : Curve α) (x : α) (ctx : Context α) : α × Context α :=
  let (y₁, ctx) := f.evalAt (x - Rules.slopeWidth / 2.0) ctx
  let (y₂, ctx) := f.evalAt (x + Rules.slopeWidth / 2.0) ctx
  ((y₂ - y₁) / Rules.slopeWidth, ctx)

/-- How far the ball falls in this tick. The longer ago the last contact, the faster, within
limits. -/
def drop (ball : Ball α) (time : α) : α :=
  Scalar.clamp Rules.minFallTime Rules.maxFallTime (time - ball.lastContact) * Rules.gravity

/-- How far the ball rolls in this tick. It is slowed down uphill and not sped up downhill. -/
def stride (graphs : GraphStore α) (ball : Ball α) (ctx : Context α) : α × Context α :=
  match ball.support.bind graphs.get? with
  | none => (Rules.ballSpeed * Rules.tickTime, ctx)
  | some graph =>
    let (m, ctx) := slope graph.curve ball.pos.x ctx
    ((Rules.ballSpeed - 0.5 * Scalar.larger m 0.0) * Rules.tickTime, ctx)

/-- The height of the lowest point of the ball, the graph that holds it there, and the time of the
last contact. -/
structure Footing (α : Type) where
  height : α
  support : Option GraphId
  lastContact : α

/-- The footing after one more graph is considered. A graph holds the ball if it exists at the ball,
is not above its middle, and its contact is higher than the footing so far. -/
def stepOn (solver : ContactSolver α) (ball : Ball α) (time : α)
    (s : Footing α × Context α) (graph : Graph α) : Footing α × Context α :=
  let (footing, ctx) := s
  let (y, ctx) := graph.curve.evalAt ball.pos.x ctx
  if Scalar.isNaN y || decide (ball.pos.y < y - Rules.contactSlack) ||
      !graph.curve.admits ctx then (footing, ctx)
  else
    let (contact, ctx) := solver.contactHeight graph.curve ctx ball.pos.x
    let contact := contact - Rules.ballRadius
    if footing.height < contact then (⟨contact, some graph.id, time⟩, ctx) else (footing, ctx)

/-- The ball after one tick from a time. -/
def moveBall (solver : ContactSolver α) (graphs : GraphStore α) (ball : Ball α) (time : α) :
    Ball α :=
  let fallen := ball.pos.y - drop ball time - Rules.ballRadius
  let (dx, ctx) := stride graphs ball (.atTime time)
  let (footing, _) :=
    graphs.graphs.foldl (stepOn solver ball time) (⟨fallen, none, ball.lastContact⟩, ctx)
  { pos := ⟨ball.pos.x + dx, footing.height + Rules.ballRadius⟩
    support := footing.support
    lastContact := footing.lastContact }

/-! ## The end of a round -/

/-- The ball left the level above or below, or a spike overlaps it. -/
def lost (level : Level α) (ball : Ball α) : Bool :=
  let low : α := -Rules.levelHeight - 1.0
  let high : α := Rules.levelHeight + 1.0
  !(decide (low ≤ ball.pos.y) && decide (ball.pos.y ≤ high)) || level.kills ball

/-- The box around the ball overlaps that around the flag. -/
def atFlag (level : Level α) (ball : Ball α) : Bool :=
  let r : α := Rules.ballRadius
  decide (level.goal.x ≤ ball.pos.x + r) &&
    decide (ball.pos.x - r ≤ level.goal.x + Rules.flagSize) &&
    decide (level.goal.y ≤ ball.pos.y + r) &&
    decide (ball.pos.y - r ≤ level.goal.y + Rules.flagSize)

/-- How the round stands for a ball. A lost ball loses even at the flag. -/
def verdict (level : Level α) (ball : Ball α) : Option Bool :=
  if lost level ball then some false
  else if atFlag level ball then some true
  else none

/-- One tick. If the round ends in it, the simulator stops and the end is announced. The time moves
on in any case. -/
def tick (sim : Simulator α) : Option (RoundEnd α) × Simulator α :=
  match sim.phase with
  | .stopped => (none, sim)
  | .running =>
    let time := sim.time
    let level := sim.level.advance time
    let ball := moveBall sim.solver sim.graphs sim.ball time
    let moved := { sim with level := level, ball := ball }
    match verdict level ball with
    | none => (none, { moved with time := time + Rules.tickTime })
    | some won =>
      let roundEnd : RoundEnd α := ⟨won, time⟩
      let stopped := moved.toggle
      (some roundEnd, { stopped with
        time := stopped.time + Rules.tickTime
        announced := sim.announced ++ [roundEnd] })

end Simulator

end RollingBall
