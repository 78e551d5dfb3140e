import Mathlib.Data.List.Induction
import RollingBall.Binary64
import RollingBall.Proofs.Graphs.Edits
import RollingBall.Proofs.Rounds.Lockstep

/-!
# Sequences of calls

A simulator is used by edits of its graphs, toggles and ticks in any order. An end of a round is
announced by the call that returns it (`Simulator.announced_after`), and the time of a round is that
of its ticks alone: whatever happened before the last toggle, it is `clock k` after `k` ticks
(`Simulator.time_after`). So every round begins as the first one does and is told of once
(`Simulator.rounds_end_once`).

## Main definitions

* `Call`, `Simulator.edit`, `Simulator.make`: a call, and what it returns and makes of a simulator.
* `Simulator.after`, `Simulator.ends`: the simulator after some calls, and what they returned.
* `Call.ticksOfRound`: the number of ticks since the last toggle.
* `clock`: the time after some ticks.
-/

namespace RollingBall

variable {α : Type}

/-! ## Calls -/

/-- A call of a simulator. -/
inductive Call (α : Type) where
  | edit (e : GraphStore.Edit α)
  | control (c : Control)

namespace Call

/-- The call starts or stops a round. -/
def isToggle : Call α → Bool
  | control .toggle => true
  | control .tick | edit _ => false

/-- The call is a tick. -/
def isTick : Call α → Bool
  | control .tick => true
  | control .toggle | edit _ => false

/-- The number of ticks after the last toggle. -/
def ticksOfRound (calls : List (Call α)) : Nat :=
  (calls.reverse.takeWhile fun call => !call.isToggle).countP isTick

variable (calls : List (Call α))

@[simp] theorem ticksOfRound_nil : ticksOfRound ([] : List (Call α)) = 0 := rfl

@[simp] theorem ticksOfRound_edit (e : GraphStore.Edit α) :
    ticksOfRound (calls ++ [.edit e]) = ticksOfRound calls := by
  simp [ticksOfRound, isToggle, isTick]

@[simp] theorem ticksOfRound_toggle : ticksOfRound (calls ++ [.control .toggle]) = 0 := by
  simp [ticksOfRound, isToggle]

@[simp] theorem ticksOfRound_tick :
    ticksOfRound (calls ++ [.control .tick]) = ticksOfRound calls + 1 := by
  have htick : isTick (.control .tick : Call α) = true := rfl
  simp [ticksOfRound, isToggle, htick]

end Call

variable [Scalar α]

/-- The time after some ticks, from zero. -/
def clock : Nat → α
  | 0 => 0.0
  | k + 1 => clock k + Rules.tickTime

namespace Simulator

/-- The simulator after an edit of its graphs. -/
def edit (sim : Simulator α) : GraphStore.Edit α → Simulator α
  | .add curve => (sim.addGraph curve).2
  | .remove id => (sim.removeGraph id).2
  | .replace id curve => (sim.replaceGraph id curve).2

/-- Makes the call. -/
def make (sim : Simulator α) : Call α → Option (RoundEnd α) × Simulator α
  | .edit e => (none, sim.edit e)
  | .control c => sim.perform c

/-- The simulator after some calls, one after another. -/
def after (sim : Simulator α) (calls : List (Call α)) : Simulator α :=
  calls.foldl (fun sim call => (sim.make call).2) sim

/-- The ends of rounds that some calls returned, in order. -/
def ends (sim : Simulator α) : List (Call α) → List (RoundEnd α)
  | [] => []
  | call :: calls => (sim.make call).1.toList ++ (sim.make call).2.ends calls

variable {sim : Simulator α}

theorem edit_eq (e : GraphStore.Edit α) :
    sim.edit e = { sim with graphs := sim.graphs.edit e } := by
  cases e <;> rfl

@[simp] theorem after_nil : sim.after [] = sim := rfl

theorem after_cons (call : Call α) (calls : List (Call α)) :
    sim.after (call :: calls) = (sim.make call).2.after calls := rfl

@[simp] theorem after_concat (calls : List (Call α)) (call : Call α) :
    sim.after (calls ++ [call]) = ((sim.after calls).make call).2 :=
  List.foldl_append

/-! ## What is told -/

/-- A call announces the end it returns and nothing else. -/
theorem announced_make (call : Call α) :
    (sim.make call).2.announced = sim.announced ++ (sim.make call).1.toList := by
  cases call with
  | edit e =>
    show (sim.edit e).announced = sim.announced ++ []
    rw [edit_eq, List.append_nil]
  | control c => exact sim.announced_perform c

theorem announced_after (sim : Simulator α) (calls : List (Call α)) :
    (sim.after calls).announced = sim.announced ++ sim.ends calls := by
  induction calls generalizing sim with
  | nil => exact (List.append_nil _).symm
  | cons call calls ih => rw [after_cons, ih, ends, announced_make, List.append_assoc]

/-- A tick of a round returns how the round stands after its move. -/
theorem fst_tick_running (h : sim.phase = .running) :
    sim.tick.1 = (verdict sim.nextLevel sim.nextBall).map fun won => ⟨won, sim.time⟩ := by
  cases hv : verdict sim.nextLevel sim.nextBall with
  | none => rw [tick_continues h hv, Option.map_none]
  | some won => rw [tick_ends h hv, Option.map_some]

theorem phase_of_fst_tick {roundEnd : RoundEnd α} (h : sim.tick.1 = some roundEnd) :
    sim.phase = .running := by
  cases hp : sim.phase with
  | stopped =>
    rw [tick_stopped hp] at h
    exact absurd h (by simp)
  | running => rfl

/-- The tick that ends a round leaves the ball on the start and no round being played. -/
theorem snd_tick_of_fst {roundEnd : RoundEnd α} (h : sim.tick.1 = some roundEnd) :
    sim.tick.2.phase = .stopped ∧ sim.tick.2.ball = .atStart sim.level.start := by
  have hp := phase_of_fst_tick h
  cases hv : verdict sim.nextLevel sim.nextBall with
  | none =>
    rw [tick_continues hp hv] at h
    exact absurd h (by simp)
  | some won =>
    rw [tick_ends hp hv]
    exact ⟨rfl, rfl⟩

/-! ## What is kept -/

theorem start_make (call : Call α) : (sim.make call).2.level.start = sim.level.start := by
  cases call with
  | edit e =>
    show (sim.edit e).level.start = sim.level.start
    rw [edit_eq]
  | control c =>
    cases c with
    | toggle =>
      show sim.toggle.level.start = sim.level.start
      unfold toggle
      split <;> rfl
    | tick =>
      show sim.tick.2.level.start = sim.level.start
      cases hp : sim.phase with
      | stopped => rw [tick_stopped hp]
      | running => rw [level_tick hp, nextLevel, Level.start_advance]

theorem start_after (sim : Simulator α) (calls : List (Call α)) :
    (sim.after calls).level.start = sim.level.start := by
  induction calls using List.reverseRecOn with
  | nil => rfl
  | append_singleton calls call ih => rw [after_concat, start_make, ih]

/-! ## The time of a round -/

/-- Where a round is played after a call, it was an edit or a tick of the round, or the toggle that
began it. -/
theorem make_running {call : Call α} (h : (sim.make call).2.phase = .running) :
    (∃ e, call = .edit e ∧ sim.phase = .running ∧
        (sim.make call).2 = { sim with graphs := sim.graphs.edit e }) ∨
      (call = .control .toggle ∧ (sim.make call).2 =
        { sim with phase := .running, time := 0.0, ball := .atStart sim.level.start }) ∨
      (call = .control .tick ∧ sim.phase = .running ∧
        verdict sim.nextLevel sim.nextBall = none ∧ (sim.make call).2 = { sim with
          level := sim.nextLevel, ball := sim.nextBall, time := sim.time + Rules.tickTime }) := by
  cases call with
  | edit e =>
    have hnext : (sim.make (.edit e)).2 = { sim with graphs := sim.graphs.edit e } := edit_eq e
    rw [hnext] at h
    exact .inl ⟨e, rfl, h, hnext⟩
  | control c =>
    cases c with
    | toggle =>
      have hnext : (sim.make (.control .toggle)).2 = sim.toggle := rfl
      rw [hnext] at h ⊢
      cases hp : sim.phase with
      | stopped => exact .inr (.inl ⟨rfl, toggle_stopped hp⟩)
      | running =>
        rw [toggle_running hp] at h
        exact absurd h (by simp)
    | tick =>
      have hnext : (sim.make (.control .tick)).2 = sim.tick.2 := rfl
      rw [hnext] at h ⊢
      cases hp : sim.phase with
      | stopped =>
        rw [tick_stopped hp, hp] at h
        exact absurd h (by simp)
      | running =>
        cases hv : verdict sim.nextLevel sim.nextBall with
        | none => exact .inr (.inr ⟨rfl, rfl, rfl, by rw [tick_continues hp hv, hp]⟩)
        | some won =>
          rw [tick_ends hp hv] at h
          exact absurd h (by simp)

/-- **The clock.** In a round the time is that of its ticks, whatever was before. -/
theorem time_after (level : Level α) (calls : List (Call α))
    (h : ((ofLevel level).after calls).phase = .running) :
    ((ofLevel level).after calls).time = clock (Call.ticksOfRound calls) := by
  induction calls using List.reverseRecOn with
  | nil => exact absurd h (by simp [ofLevel])
  | append_singleton calls call ih =>
    rw [after_concat] at h ⊢
    obtain ⟨e, rfl, hp, hnext⟩ | ⟨rfl, hnext⟩ | ⟨rfl, hp, -, hnext⟩ := make_running h
    · rw [hnext, Call.ticksOfRound_edit]
      exact ih hp
    · rw [hnext, Call.ticksOfRound_toggle]
      rfl
    · rw [hnext, Call.ticksOfRound_tick]
      exact congrArg (· + Rules.tickTime) (ih hp)

/-- In a round that has seen a tick the ball is still in play. -/
theorem verdict_after {level : Level α} {calls : List (Call α)}
    (h : ((ofLevel level).after calls).phase = .running) (hticks : 0 < Call.ticksOfRound calls) :
    verdict ((ofLevel level).after calls).level ((ofLevel level).after calls).ball = none := by
  induction calls using List.reverseRecOn with
  | nil => exact absurd h (by simp [ofLevel])
  | append_singleton calls call ih =>
    rw [after_concat] at h ⊢
    obtain ⟨e, rfl, hp, hnext⟩ | ⟨rfl, -⟩ | ⟨rfl, -, hv, hnext⟩ := make_running h
    · rw [Call.ticksOfRound_edit] at hticks
      rw [hnext]
      exact ih hp hticks
    · rw [Call.ticksOfRound_toggle] at hticks
      exact absurd hticks (Nat.lt_irrefl 0)
    · rw [hnext]
      exact hv

/-- **Rounds end once and begin anew.** Whatever was called, the ends announced are those returned,
call by call. A tick between rounds does nothing. A tick that returns an end was one of a round, and
leaves the ball on the start, held by nothing. In a round the time counts its own ticks, and the
next tick places the obstacles, moves the ball and tells the end by it. -/
theorem rounds_end_once (level : Level α) (calls : List (Call α)) :
    let sim := (ofLevel level).after calls
    let now : α := clock (Call.ticksOfRound calls)
    sim.announced = (ofLevel level).ends calls ∧
    (∀ call, (sim.make call).2.announced = sim.announced ++ (sim.make call).1.toList) ∧
    (sim.phase = .stopped → sim.tick = (none, sim)) ∧
    (∀ roundEnd, sim.tick.1 = some roundEnd →
      sim.phase = .running ∧ sim.tick.2.phase = .stopped ∧ sim.tick.2.elapsed = 0.0 ∧
      sim.tick.2.ball.pos = ⟨level.start.x, level.start.y + Rules.ballRadius⟩ ∧
      sim.tick.2.ball.support = none ∧ sim.tick.2.ball.lastContact = 0.0) ∧
    (sim.phase = .running →
      let placed := sim.level.advance now
      let moved := moveBall sim.solver sim.graphs sim.ball now
      sim.time = now ∧ sim.tick.2.level = placed ∧
      sim.tick.1 = (verdict placed moved).map (fun won => ⟨won, now⟩) ∧
      (sim.tick.1 = none → sim.tick.2.ball = moved)) := by
  intro sim now
  refine ⟨announced_after (ofLevel level) calls, announced_make, tick_stopped, ?_, ?_⟩
  · intro roundEnd hend
    obtain ⟨hstopped, hball⟩ := snd_tick_of_fst hend
    have hstart : sim.level.start = level.start := start_after (ofLevel level) calls
    have helapsed : sim.tick.2.elapsed = 0.0 := by
      unfold elapsed
      rw [hstopped]
    rw [hball, hstart]
    exact ⟨phase_of_fst_tick hend, hstopped, helapsed, rfl, rfl, rfl⟩
  · intro hp placed moved
    have htime : sim.time = now := time_after level calls hp
    have hplaced : sim.nextLevel = placed := congrArg sim.level.advance htime
    have hmoved : sim.nextBall = moved :=
      congrArg (moveBall sim.solver sim.graphs sim.ball) htime
    have hfirst := fst_tick_running hp
    rw [hplaced, hmoved, htime] at hfirst
    refine ⟨htime, (level_tick hp).trans hplaced, hfirst, fun hnone => ?_⟩
    have hv : verdict sim.nextLevel sim.nextBall = none := by
      rwa [hplaced, hmoved, ← Option.map_eq_none_iff, ← hfirst]
    rw [tick_continues hp hv]
    exact hmoved

/-- A level whose start is above its upper end. -/
def skyhigh : Level Float := .still ⟨0.0, 20.0⟩ ⟨3.0, 0.0⟩ []

/-- A round that is lost at once, a tick in vain, and a new round. -/
def playAgain : List (Call Float) :=
  [.control .toggle, .control .tick, .control .tick, .control .toggle]

theorem rounds_end_once_skyhigh :
    ((ofLevel skyhigh).after playAgain).announced = [⟨false, 0.0⟩] ∧
      ((ofLevel skyhigh).after playAgain).tick.1 = some ⟨false, 0.0⟩ ∧
      ((ofLevel skyhigh).after playAgain).phase = .running ∧
      ((ofLevel skyhigh).after playAgain).time = clock 0 ∧
      ((ofLevel skyhigh).after playAgain).tick.2.phase = .stopped ∧
      ((ofLevel skyhigh).after playAgain).tick.2.ball.support = none := by
  obtain ⟨hannounced, -, -, hends, hround⟩ := rounds_end_once skyhigh playAgain
  have hfirst : (ofLevel skyhigh).ends playAgain = [⟨false, 0.0⟩] := by decide +kernel
  have hlost : ((ofLevel skyhigh).after playAgain).tick.1 = some ⟨false, 0.0⟩ := by decide +kernel
  obtain ⟨hp, hstopped, -, -, hsupport, -⟩ := hends _ hlost
  exact ⟨hannounced.trans hfirst, hlost, hp, (hround hp).1, hstopped, hsupport⟩

end Simulator

end RollingBall
