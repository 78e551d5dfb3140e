import RollingBall.Binary64
import RollingBall.Proofs.Rounds.Calls

/-!
# No end is missed or misjudged

A round goes on after a tick only if the ball is inside the level, clear of all spikes and not at
the flag, and nothing but a tick changes the ball or the obstacles while the round goes on. So this
holds of every simulator in a round that has seen a tick (`Simulator.verdict_after`), whatever is
edited in between. A tick ends a round with a loss if and only if the ball leaves the level or meets
a spike, and with a win if and only if it does neither and is at the flag.

## Main definitions

* `Box`, `Box.Overlaps`: the boxes around the ball and the flag.
* `Ball.Inside`, `Level.Clear`: what a ball must keep to.
* `Simulator.ends_as_judged`
-/

namespace RollingBall

variable {α : Type} [Scalar α]

/-! ## Where a ball may be -/

/-- An upright rectangle, between its lower left and its upper right corner. -/
structure Box (α : Type) where
  low : Point α
  high : Point α

/-- Neither box is wholly beside, above or below the other. -/
def Box.Overlaps (a b : Box α) : Prop :=
  (a.low.x ≤ b.high.x ∧ b.low.x ≤ a.high.x) ∧ (a.low.y ≤ b.high.y ∧ b.low.y ≤ a.high.y)

/-- The box around the ball. -/
def Ball.box (ball : Ball α) : Box α :=
  ⟨⟨ball.pos.x - Rules.ballRadius, ball.pos.y - Rules.ballRadius⟩,
    ⟨ball.pos.x + Rules.ballRadius, ball.pos.y + Rules.ballRadius⟩⟩

/-- The middle of the ball is at most one above or below the level. -/
def Ball.Inside (ball : Ball α) : Prop :=
  -Rules.levelHeight - 1.0 ≤ ball.pos.y ∧ ball.pos.y ≤ Rules.levelHeight + 1.0

namespace Level

/-- The box around the flag. -/
def flag (level : Level α) : Box α :=
  ⟨level.goal, ⟨level.goal.x + Rules.flagSize, level.goal.y + Rules.flagSize⟩⟩

/-- No spike of any obstacle, where it is now, is closer to the middle of the ball than their radii
together. -/
def Clear (level : Level α) (ball : Ball α) : Prop :=
  let reach : α := Rules.spikeRadius + Rules.ballRadius
  ∀ obstacle ∈ level.obstacles, ∀ spike ∈ obstacle.spikes,
    ¬ spike.position.distanceSquared ball.pos < reach * reach

end Level

namespace Simulator

variable {level : Level α} {ball : Ball α}

/-! ## The verdict -/

theorem kills_eq_false_iff : level.kills ball = false ↔ level.Clear ball := by
  unfold Level.kills Obstacle.kills Spike.kills Level.Clear
  simp only [List.any_eq_false, Bool.not_eq_true, decide_eq_false_iff_not]

theorem lost_eq_false_iff : lost level ball = false ↔ ball.Inside ∧ level.Clear ball := by
  unfold lost Ball.Inside
  rw [← kills_eq_false_iff]
  simp

theorem atFlag_iff : atFlag level ball = true ↔ ball.box.Overlaps level.flag := by
  unfold atFlag Box.Overlaps Ball.box Level.flag
  simp only [Bool.and_eq_true, decide_eq_true_eq]
  tauto

/-- A lost ball loses, even at the flag. -/
theorem verdict_eq_false_iff :
    verdict level ball = some false ↔ ¬ (ball.Inside ∧ level.Clear ball) := by
  rw [← lost_eq_false_iff]
  unfold verdict
  cases lost level ball with
  | true => simp
  | false => cases atFlag level ball <;> simp

theorem verdict_eq_true_iff : verdict level ball = some true ↔
    ball.Inside ∧ level.Clear ball ∧ ball.box.Overlaps level.flag := by
  rw [← and_assoc, ← lost_eq_false_iff, ← atFlag_iff]
  unfold verdict
  cases lost level ball with
  | true => simp
  | false => cases atFlag level ball <;> simp

theorem verdict_eq_none_iff : verdict level ball = none ↔
    ball.Inside ∧ level.Clear ball ∧ ¬ ball.box.Overlaps level.flag := by
  rw [← and_assoc, ← lost_eq_false_iff, ← atFlag_iff]
  unfold verdict
  cases lost level ball with
  | true => simp
  | false => cases atFlag level ball <;> simp

/-! ## Ends of rounds -/

/-- A tick returns an end if a round is played and its verdict says so. -/
theorem fst_tick_eq_some_iff {sim : Simulator α} {won : Bool} {time : α} :
    sim.tick.1 = some ⟨won, time⟩ ↔ sim.phase = .running ∧ time = sim.time ∧
      verdict sim.nextLevel sim.nextBall = some won := by
  constructor
  · intro h
    have hp := phase_of_fst_tick h
    rw [fst_tick_running hp, Option.map_eq_some_iff] at h
    obtain ⟨won', hv, heq⟩ := h
    obtain ⟨rfl, rfl⟩ := RoundEnd.mk.inj heq
    exact ⟨hp, rfl, hv⟩
  · rintro ⟨hp, rfl, hv⟩
    rw [fst_tick_running hp, hv, Option.map_some]

/-- **No end is missed or misjudged.** Whatever was called, in a round that has seen a tick the ball
is inside the level, clear of every spike where it is now, and not at the flag. A tick returns a win
if and only if in a round its move leaves the ball inside, clear of the spikes it placed, and at the
flag; and a loss if and only if the ball is not inside or not clear of them, at the flag or not. -/
theorem ends_as_judged (level : Level α) (calls : List (Call α)) :
    let sim := (ofLevel level).after calls
    let placed := sim.level.advance sim.time
    let moved := moveBall sim.solver sim.graphs sim.ball sim.time
    (sim.phase = .running → 0 < Call.ticksOfRound calls →
      sim.ball.Inside ∧ sim.level.Clear sim.ball ∧ ¬ sim.ball.box.Overlaps sim.level.flag) ∧
    (∀ time, sim.tick.1 = some ⟨true, time⟩ ↔ sim.phase = .running ∧ time = sim.time ∧
      moved.Inside ∧ placed.Clear moved ∧ moved.box.Overlaps placed.flag) ∧
    (∀ time, sim.tick.1 = some ⟨false, time⟩ ↔ sim.phase = .running ∧ time = sim.time ∧
      ¬ (moved.Inside ∧ placed.Clear moved)) := by
  intro sim placed moved
  refine ⟨fun hp hticks => ?_, fun time => ?_, fun time => ?_⟩
  · exact verdict_eq_none_iff.mp (verdict_after hp hticks)
  · rw [fst_tick_eq_some_iff, verdict_eq_true_iff]
    rfl
  · rw [fst_tick_eq_some_iff, verdict_eq_false_iff]
    rfl

/-- A level with a spike in the flag. -/
def ambush : Level Float := .still ⟨0.0, 0.0⟩ ⟨0.0, 0.0⟩ [.spike ⟨⟨0.5, 0.0⟩⟩]

theorem ends_as_judged_ambush :
    let sim := (ofLevel ambush).after [.control .toggle]
    sim.tick.1 = some ⟨false, 0.0⟩ ∧ sim.nextBall.box.Overlaps sim.nextLevel.flag ∧
      ¬ (sim.nextBall.Inside ∧ sim.nextLevel.Clear sim.nextBall) := by
  intro sim
  obtain ⟨-, -, hlosses⟩ := ends_as_judged ambush [.control .toggle]
  have hlost : sim.tick.1 = some ⟨false, 0.0⟩ := by decide +kernel
  have hflag : atFlag sim.nextLevel sim.nextBall = true := by decide +kernel
  obtain ⟨-, -, hmet⟩ := (hlosses 0.0).mp hlost
  exact ⟨hlost, atFlag_iff.mp hflag, hmet⟩

end Simulator

end RollingBall
