import RollingBall.Proofs.Motion.Falling
import RollingBall.Proofs.Numbers.Range
import RollingBall.Proofs.Rounds.Calls

/-!
# Undefined formulas do not harm the ball

Whatever a graph is at the ball and at the probes around it, undefined or infinite, the ball stays
at a defined place: a move keeps it there, and every other call leaves it or puts it on the start.
While a round goes on, the ball is also within the height of the level, since it would be lost
otherwise.

## Main results

* `Simulator.defined_after`: the invariant of all calls.
* `Simulator.ball_stays_defined`
-/

namespace RollingBall

open Scalar Scalar.Ieee

variable {α : Type} [Scalar α]

namespace Simulator

/-- A call leaves the ball, or puts it on the start, or moves it for one tick of a round. -/
theorem ball_make (sim : Simulator α) (call : Call α) :
    (sim.make call).2.ball = sim.ball ∨
      (sim.make call).2.ball = .atStart sim.level.start ∨
      (sim.phase = .running ∧ (sim.make call).2.ball = sim.nextBall) := by
  cases call with
  | edit e =>
    refine .inl ?_
    show (sim.edit e).ball = sim.ball
    rw [edit_eq]
  | control c =>
    cases c with
    | toggle =>
      refine .inr (.inl ?_)
      show sim.toggle.ball = _
      cases hp : sim.phase with
      | stopped => rw [toggle_stopped hp]
      | running => rw [toggle_running hp]
    | tick =>
      show sim.tick.2.ball = _ ∨ sim.tick.2.ball = _ ∨ sim.phase = _ ∧ sim.tick.2.ball = _
      cases hp : sim.phase with
      | stopped =>
        rw [tick_stopped hp]
        exact .inl rfl
      | running =>
        cases hv : verdict sim.nextLevel sim.nextBall with
        | none =>
          rw [tick_continues hp hv]
          exact .inr (.inr ⟨rfl, rfl⟩)
        | some won =>
          rw [tick_ends hp hv]
          exact .inr (.inl rfl)

variable [Ieee α] [Roomy α]

/-! ## Time -/

theorem isReal_clock (k : Nat) : IsReal (clock k : α) := by
  induction k with
  | zero => exact ⟨0, value_zero⟩
  | succ k ih =>
    obtain ⟨t, ht⟩ := ih
    obtain ⟨d, hpositive, hone, hd⟩ := Rules.value_tickTime (α := α)
    obtain ⟨s, hs⟩ := Roomy.round_add_le_one ht hpositive.le hone
    refine ⟨s, ?_⟩
    show value (clock k + Rules.tickTime) = _
    rw [add_of_real_right ht hd, ← EReal.coe_add, hs]

/-! ## The ball -/

/-- **The invariant.** Whatever was called, the ball is at a defined place. -/
theorem defined_after {level : Level α} (hx : isNaN level.start.x = false)
    (hy : isNaN level.start.y = false) (calls : List (Call α)) :
    ((ofLevel level).after calls).ball.Defined := by
  have hstart := Ball.defined_atStart hx hy
  induction calls using List.reverseRecOn with
  | nil => exact hstart
  | append_singleton calls call ih =>
    rw [after_concat]
    obtain hsame | hreset | ⟨hp, hmoved⟩ := ball_make ((ofLevel level).after calls) call
    · rw [hsame]
      exact ih
    · rw [hreset, start_after]
      exact hstart
    · rw [hmoved]
      refine defined_moveBall ih ?_ _ _
      rw [time_after level calls hp]
      exact isReal_clock _

omit [Roomy α] in
theorem value_levelHeight : value (Rules.levelHeight : α) = some ((8 : ℝ) : EReal) := by
  have h := value_literal α (m := 80) (e := 1) (n := 8) (k := 0) (by norm_num) (by norm_num)
    (by norm_num)
  unfold Rules.levelHeight
  simpa using h

/-- A ball that is not lost is at most one above or below the level. -/
theorem value_of_verdict_eq_none {level : Level α} {ball : Ball α} (h : verdict level ball = none) :
    ∃ y : ℝ, -9 ≤ y ∧ y ≤ 9 ∧ value ball.pos.y = some (y : EReal) := by
  have hhigh : value (Rules.levelHeight + 1.0 : α) = some ((9 : ℝ) : EReal) := by
    have hround := round_dyadic (α := α) 9 0 (by norm_num) (by norm_num)
    rw [add_of_real_right value_levelHeight value_one, ← EReal.coe_add]
    norm_num at hround ⊢
    exact hround
  have hlow : value (-Rules.levelHeight - 1.0 : α) = some ((-9 : ℝ) : EReal) := by
    have hround := round_dyadic (α := α) (-9) 0 (by norm_num) (by norm_num)
    have hopposite : value (-Rules.levelHeight : α) = some ((-8 : ℝ) : EReal) := by
      rw [Roomy.value_neg, value_levelHeight, Option.map_some, ← EReal.coe_neg]
    rw [sub_of_real_right hopposite value_one, ← EReal.coe_sub]
    norm_num at hround ⊢
    exact hround
  have hin : (-Rules.levelHeight - 1.0 : α) ≤ ball.pos.y ∧
      ball.pos.y ≤ (Rules.levelHeight + 1.0 : α) := by
    by_contra hout
    have hlost : lost level ball = true := by
      unfold lost
      dsimp only
      rw [← Bool.decide_and, decide_eq_false hout, Bool.not_false, Bool.true_or]
    unfold verdict at h
    rw [if_pos hlost] at h
    exact absurd h (by simp)
  obtain ⟨low, hlow', y, hy, hge⟩ := (le_iff _ _).mp hin.1
  obtain ⟨y', hy', high, hhigh', hle⟩ := (le_iff _ _).mp hin.2
  obtain rfl : y' = y := Option.some.inj (hy'.symm.trans hy)
  obtain rfl : low = ((-9 : ℝ) : EReal) := Option.some.inj (hlow'.symm.trans hlow)
  obtain rfl : high = ((9 : ℝ) : EReal) := Option.some.inj (hhigh'.symm.trans hhigh)
  lift y' to ℝ using ⟨ne_top_of_le_ne_top (EReal.coe_ne_top _) hle,
    ne_bot_of_le_ne_bot (EReal.coe_ne_bot _) hge⟩ with y
  exact ⟨y, EReal.coe_le_coe_iff.mp hge, EReal.coe_le_coe_iff.mp hle, hy⟩

/-- A round that goes on after a tick has a ball that is not lost. -/
theorem value_after {level : Level α} {calls : List (Call α)}
    (h : ((ofLevel level).after calls).phase = .running) (hticks : 0 < Call.ticksOfRound calls) :
    ∃ y : ℝ, -9 ≤ y ∧ y ≤ 9 ∧
      value ((ofLevel level).after calls).ball.pos.y = some (y : EReal) :=
  value_of_verdict_eq_none (verdict_after h hticks)

/-- **Undefined formulas do not harm the ball.** From a defined start the ball stays at a defined
place with a defined last contact, whatever the graphs and the calls were. In a round that goes on
after a tick the height of the ball is finite, and at most one above or below the level. -/
theorem ball_stays_defined (level : Level α) (hx : isNaN level.start.x = false)
    (hy : isNaN level.start.y = false) (calls : List (Call α)) :
    let sim := (ofLevel level).after calls
    isNaN sim.ball.pos.x = false ∧ isNaN sim.ball.pos.y = false ∧
      isNaN sim.ball.lastContact = false ∧
      (sim.phase = .running → 0 < Call.ticksOfRound calls →
        ∃ y : ℝ, -9 ≤ y ∧ y ≤ 9 ∧ value sim.ball.pos.y = some (y : EReal)) := by
  intro sim
  have hdefined : sim.ball.Defined := defined_after hx hy calls
  obtain ⟨c, hc⟩ := hdefined.lastContact
  exact ⟨hdefined.x, hdefined.y, isNaN_of_value hc, value_after⟩

/-- A level with its start on the ground and no obstacles. -/
def plain : Level Float := .still ⟨0.0, 0.0⟩ ⟨5.0, 0.0⟩ []

/-- A round with a graph that is undefined and one that is infinitely far above. -/
def badGraphs : List (Call Float) :=
  [.edit (.add (.unconditional (.constant (0.0 / 0.0)))),
    .edit (.add (.unconditional (.constant (1.0 / 0.0)))),
    .control .toggle, .control .tick]

theorem ball_stays_defined_plain :
    isNaN ((ofLevel plain).after badGraphs).ball.pos.x = false ∧
      isNaN ((ofLevel plain).after badGraphs).ball.pos.y = false ∧
      isNaN ((ofLevel plain).after badGraphs).ball.lastContact = false ∧
      ∃ y : ℝ, -9 ≤ y ∧ y ≤ 9 ∧
        value ((ofLevel plain).after badGraphs).ball.pos.y = some (y : EReal) := by
  have hx : isNaN plain.start.x = false := by decide +kernel
  have hy : isNaN plain.start.y = false := by decide +kernel
  obtain ⟨hplace, hheight, hcontact, hround⟩ := ball_stays_defined plain hx hy badGraphs
  exact ⟨hplace, hheight, hcontact, hround (by decide +kernel) (by decide)⟩

end Simulator

end RollingBall
