import RollingBall.Proofs.Motion.Move

/-!
# What a tick does

Between rounds a tick does nothing (`tick_stopped`). In a round it places the obstacles and moves
the ball, and either the round goes on (`tick_continues`) or it ends, is announced, and the ball is
back on the start (`tick_ends`). How the round stands depends on where the ball is and on the level.
-/

namespace RollingBall

variable {α : Type} [Scalar α]

namespace Level

theorem start_advance (level : Level α) (time : α) : (level.advance time).start = level.start := by
  unfold advance
  split <;> rfl

end Level

namespace Simulator

/-- The level with its obstacles placed for the next tick. -/
def nextLevel (sim : Simulator α) : Level α := sim.level.advance sim.time

/-- The ball as the next tick moves it, before any reset. -/
def nextBall (sim : Simulator α) : Ball α :=
  moveBall sim.solver sim.graphs sim.ball sim.time

variable {sim : Simulator α}

theorem nextBall_x :
    sim.nextBall.pos.x = sim.ball.pos.x +
      Curve.stride sim.time sim.ball.pos.x (sim.ball.support.bind sim.graphs.curve?) := by
  unfold nextBall
  rw [moveBall_eq]

theorem tick_stopped (h : sim.phase = .stopped) : sim.tick = (none, sim) := by
  unfold tick
  rw [h]

theorem tick_continues (h : sim.phase = .running)
    (hv : verdict sim.nextLevel sim.nextBall = none) :
    sim.tick = (none, { sim with
      level := sim.nextLevel
      ball := sim.nextBall
      time := sim.time + Rules.tickTime }) := by
  unfold nextLevel nextBall at hv
  unfold tick
  simp only [h, hv]
  rfl

theorem tick_ends {won : Bool} (h : sim.phase = .running)
    (hv : verdict sim.nextLevel sim.nextBall = some won) :
    sim.tick = (some ⟨won, sim.time⟩, { sim with
      level := sim.nextLevel
      ball := .atStart sim.level.start
      phase := .stopped
      time := sim.time + Rules.tickTime
      announced := sim.announced ++ [⟨won, sim.time⟩] }) := by
  have hstart : sim.nextLevel.start = sim.level.start := Level.start_advance ..
  rw [← hstart]
  unfold nextLevel nextBall at *
  unfold tick toggle
  simp only [h, hv]
  rfl

theorem level_tick (h : sim.phase = .running) : sim.tick.2.level = sim.nextLevel := by
  cases hv : verdict sim.nextLevel sim.nextBall with
  | none => rw [tick_continues h hv]
  | some won => rw [tick_ends h hv]

/-- A tick announces the end it returns and nothing else. -/
theorem announced_tick : sim.tick.2.announced = sim.announced ++ sim.tick.1.toList := by
  cases h : sim.phase with
  | stopped => rw [tick_stopped h, Option.toList_none, List.append_nil]
  | running =>
    cases hv : verdict sim.nextLevel sim.nextBall with
    | none => rw [tick_continues h hv, Option.toList_none, List.append_nil]
    | some won => rw [tick_ends h hv, Option.toList_some]

/-- A tick edits no graph and keeps the solver. -/
theorem tick_keeps : sim.tick.2.graphs = sim.graphs ∧ sim.tick.2.solver = sim.solver := by
  cases h : sim.phase with
  | stopped => rw [tick_stopped h]; exact ⟨rfl, rfl⟩
  | running =>
    cases hv : verdict sim.nextLevel sim.nextBall with
    | none => rw [tick_continues h hv]; exact ⟨rfl, rfl⟩
    | some won => rw [tick_ends h hv]; exact ⟨rfl, rfl⟩

theorem announced_toggle : sim.toggle.announced = sim.announced := by
  unfold toggle
  split <;> rfl

theorem toggle_stopped (h : sim.phase = .stopped) :
    sim.toggle = { sim with
      phase := .running, time := 0.0, ball := .atStart sim.level.start } := by
  unfold toggle
  simp only [h]
  rfl

theorem toggle_running (h : sim.phase = .running) :
    sim.toggle = { sim with phase := .stopped, ball := .atStart sim.level.start } := by
  unfold toggle
  simp only [h]
  rfl

/-- Where the ball is decides how the round stands. -/
theorem verdict_eq_of_pos (level : Level α) {ball ball' : Ball α} (h : ball.pos = ball'.pos) :
    verdict level ball = verdict level ball' := by
  have hkills : level.kills ball = level.kills ball' := by
    unfold Level.kills Obstacle.kills Spike.kills
    rw [h]
  unfold verdict lost atFlag
  rw [hkills, h]

end Simulator

end RollingBall
