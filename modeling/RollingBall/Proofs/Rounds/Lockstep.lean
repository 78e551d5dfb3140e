import RollingBall.Proofs.Graphs.Places
import RollingBall.Proofs.Rounds.Tick

/-!
# Rounds in lockstep

Two simulators on levels that move alike show the same rounds if their balls stay alike: at the same
place, with the same last contact, and on supports that are seen as the same. What has to be known
of the graphs is that one move keeps alike balls alike (`Lockstep`); all else a simulator does to a
ball depends on the level and the place of the ball only. `Lockstep.watch_eq` lifts a single move to
runs of any length.

## Main definitions

* `Control`: the calls that edit no graphs.
* `Observation`, `Simulator.watch`: what is seen of a call, and of each call of a run.
* `Lockstep`, `Simulator.Alike`: the relation of balls and the relation of simulators.
-/

namespace RollingBall

variable {α σ : Type}

/-! ## Observations -/

/-- A call that edits no graphs. -/
inductive Control where
  | toggle
  | tick
deriving DecidableEq

/-- What is seen of a call: what it returned and announced, and the simulator after it. The
obstacles are seen when a round is played. -/
structure Observation (α σ : Type) where
  returned : Option (RoundEnd α)
  announced : List (RoundEnd α)
  phase : Phase
  elapsed : α
  position : Point α
  lastContact : α
  /-- What is seen of the graph that supports the ball. -/
  support : σ
  /-- The obstacles after a tick of a round. -/
  obstacles : Option (List (Obstacle α))

namespace Simulator

/-- The place of the graph that supports the ball, if one does. -/
def supportPlace (sim : Simulator α) : Option (Option Nat) := sim.ball.support.map sim.graphs.place

variable [Scalar α]

/-- Makes the call. -/
def perform (sim : Simulator α) : Control → Option (RoundEnd α) × Simulator α
  | .toggle => (none, sim.toggle)
  | .tick => sim.tick

/-- What is seen of the call, `name` being how the support of the ball is seen. -/
def observe (name : Simulator α → σ) (sim : Simulator α) (call : Control) : Observation α σ :=
  let next := (sim.perform call).2
  { returned := (sim.perform call).1
    announced := next.announced.drop sim.announced.length
    phase := next.phase
    elapsed := next.elapsed
    position := next.ball.pos
    lastContact := next.ball.lastContact
    support := name next
    obstacles :=
      if call = .tick ∧ sim.phase = .running then some next.level.obstacles else none }

theorem announced_perform (sim : Simulator α) (call : Control) :
    (sim.perform call).2.announced = sim.announced ++ (sim.perform call).1.toList := by
  cases call with
  | toggle => exact announced_toggle.trans (List.append_nil _).symm
  | tick => exact announced_tick

/-- What is seen of each call of a run. -/
def watch (name : Simulator α → σ) : Simulator α → List Control → List (Observation α σ)
  | _, [] => []
  | sim, call :: calls => sim.observe name call :: (sim.perform call).2.watch name calls

end Simulator

/-! ## Alike simulators -/

variable [Scalar α]

/-- A relation of balls over two lists of graphs that every move keeps, whatever the time. Related
balls are at the same place, and their supports are seen as the same. -/
structure Lockstep (solver : ContactSolver α) (graphs graphs' : GraphStore α)
    (name name' : Simulator α → σ) (start : Point α) (Related : Ball α → Ball α → Prop) :
    Prop where
  start : Related (.atStart start) (.atStart start)
  move {ball ball' : Ball α} (time : α) : Related ball ball' →
    Related (Simulator.moveBall solver graphs ball time)
      (Simulator.moveBall solver graphs' ball' time)
  pos {ball ball' : Ball α} : Related ball ball' → ball.pos = ball'.pos
  lastContact {ball ball' : Ball α} : Related ball ball' → ball.lastContact = ball'.lastContact
  support {sim sim' : Simulator α} : sim.graphs = graphs → sim'.graphs = graphs' →
    Related sim.ball sim'.ball → name sim = name' sim'

/-- Two simulators at the same moment of a round, or both between rounds. Their levels look the same
from the next tick on. -/
structure Simulator.Alike (solver : ContactSolver α) (graphs graphs' : GraphStore α)
    (start : Point α) (Related : Ball α → Ball α → Prop) (sim sim' : Simulator α) : Prop where
  solver_left : sim.solver = solver
  solver_right : sim'.solver = solver
  graphs_left : sim.graphs = graphs
  graphs_right : sim'.graphs = graphs'
  phase : sim.phase = sim'.phase
  time : sim.phase = .running → sim.time = sim'.time
  level : ∀ time, sim.level.advance time = sim'.level.advance time
  start : sim.level.start = start
  ball : Related sim.ball sim'.ball

theorem Simulator.Alike.elapsed {solver : ContactSolver α} {graphs graphs' : GraphStore α}
    {start : Point α} {Related : Ball α → Ball α → Prop} {sim sim' : Simulator α}
    (ha : sim.Alike solver graphs graphs' start Related sim') : sim.elapsed = sim'.elapsed := by
  unfold Simulator.elapsed
  rw [← ha.phase]
  cases hp : sim.phase with
  | stopped => rfl
  | running => exact ha.time hp

namespace Lockstep

variable {solver : ContactSolver α} {graphs graphs' : GraphStore α} {name name' : Simulator α → σ}
  {start : Point α} {Related : Ball α → Ball α → Prop} {sim sim' : Simulator α}

section Step

variable (h : Lockstep solver graphs graphs' name name' start Related)
  (ha : sim.Alike solver graphs graphs' start Related sim')

include ha

theorem start_right : sim'.level.start = start := by
  have hlevel := congrArg Level.start (ha.level sim.time)
  rw [Level.start_advance, Level.start_advance, ha.start] at hlevel
  exact hlevel.symm

theorem phase_right {phase : Phase} (hp : sim.phase = phase) : sim'.phase = phase :=
  ha.phase ▸ hp

theorem nextLevel_eq (hp : sim.phase = .running) : sim.nextLevel = sim'.nextLevel := by
  unfold Simulator.nextLevel
  rw [ha.level, ha.time hp]

include h

theorem nextBall_related (hp : sim.phase = .running) : Related sim.nextBall sim'.nextBall := by
  unfold Simulator.nextBall
  rw [ha.solver_left, ha.solver_right, ha.graphs_left, ha.graphs_right, ha.time hp]
  exact h.move _ ha.ball

theorem toggle_alike : sim.toggle.Alike solver graphs graphs' start Related sim'.toggle := by
  have hstart : Related (.atStart sim.level.start) (.atStart sim'.level.start) := by
    rw [ha.start, start_right ha]
    exact h.start
  cases hp : sim.phase with
  | stopped =>
    rw [Simulator.toggle_stopped hp, Simulator.toggle_stopped (phase_right ha hp)]
    exact { ha with phase := rfl, time := fun _ => rfl, ball := hstart }
  | running =>
    rw [Simulator.toggle_running hp, Simulator.toggle_running (phase_right ha hp)]
    exact { ha with phase := rfl, time := fun _ => ha.time hp, ball := hstart }

theorem tick_alike : sim.tick.1 = sim'.tick.1 ∧
    sim.tick.2.Alike solver graphs graphs' start Related sim'.tick.2 := by
  cases hp : sim.phase with
  | stopped =>
    rw [Simulator.tick_stopped hp, Simulator.tick_stopped (phase_right ha hp)]
    exact ⟨rfl, ha⟩
  | running =>
    have hp' := phase_right ha hp
    have hlevel := nextLevel_eq ha hp
    have hball := nextBall_related h ha hp
    -- The verdict looks at the level and the place of the ball, so both rounds end or neither does.
    have hverdict : Simulator.verdict sim.nextLevel sim.nextBall =
        Simulator.verdict sim'.nextLevel sim'.nextBall := by
      rw [hlevel]
      exact Simulator.verdict_eq_of_pos _ (h.pos hball)
    have hstart : sim.nextLevel.start = start := (Level.start_advance ..).trans ha.start
    have hadvance : ∀ time, sim.nextLevel.advance time = sim'.nextLevel.advance time :=
      fun time => by rw [hlevel]
    have htime : sim.time + Rules.tickTime = sim'.time + Rules.tickTime := by rw [ha.time hp]
    cases hv : Simulator.verdict sim.nextLevel sim.nextBall with
    | none =>
      rw [Simulator.tick_continues hp hv, Simulator.tick_continues hp' (hverdict ▸ hv)]
      exact ⟨rfl, { ha with
        level := hadvance, start := hstart, ball := hball, time := fun _ => htime }⟩
    | some won =>
      rw [Simulator.tick_ends hp hv, Simulator.tick_ends hp' (hverdict ▸ hv)]
      refine ⟨by rw [ha.time hp], { ha with
        level := hadvance, start := hstart, ball := ?_, phase := rfl, time := fun _ => htime }⟩
      show Related (.atStart sim.level.start) (.atStart sim'.level.start)
      rw [ha.start, start_right ha]
      exact h.start

theorem perform_alike (call : Control) : (sim.perform call).1 = (sim'.perform call).1 ∧
    (sim.perform call).2.Alike solver graphs graphs' start Related (sim'.perform call).2 := by
  cases call with
  | toggle => exact ⟨rfl, toggle_alike h ha⟩
  | tick => exact tick_alike h ha

theorem observe_eq (call : Control) : sim.observe name call = sim'.observe name' call := by
  obtain ⟨hreturned, hnext⟩ := perform_alike h ha call
  have hobstacles : call = .tick → sim.phase = .running →
      (sim.perform call).2.level.obstacles = (sim'.perform call).2.level.obstacles := by
    rintro rfl hp
    show sim.tick.2.level.obstacles = sim'.tick.2.level.obstacles
    rw [Simulator.level_tick hp, Simulator.level_tick (phase_right ha hp), nextLevel_eq ha hp]
  unfold Simulator.observe
  rw [Observation.mk.injEq]
  refine ⟨hreturned, ?_, hnext.phase, hnext.elapsed, h.pos hnext.ball, h.lastContact hnext.ball,
    h.support hnext.graphs_left hnext.graphs_right hnext.ball, ?_⟩
  · rw [Simulator.announced_perform, Simulator.announced_perform, List.drop_left, List.drop_left,
      hreturned]
  · rw [← ha.phase]
    by_cases hround : call = .tick ∧ sim.phase = .running
    · rw [if_pos hround, if_pos hround, hobstacles hround.1 hround.2]
    · rw [if_neg hround, if_neg hround]

end Step

/-- **Lockstep.** Alike simulators show the same in every run. -/
theorem watch_eq (h : Lockstep solver graphs graphs' name name' start Related)
    (ha : sim.Alike solver graphs graphs' start Related sim') (calls : List Control) :
    sim.watch name calls = sim'.watch name' calls := by
  induction calls generalizing sim sim' with
  | nil => rfl
  | cons call calls ih =>
    unfold Simulator.watch
    rw [observe_eq h ha call, ih (perform_alike h ha call).2]

end Lockstep

end RollingBall
