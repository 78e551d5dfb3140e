import RollingBall.Proofs.Graphs.Ids
import RollingBall.Proofs.Rounds.Lockstep

/-!
# Reached simulators

What a level is played with: the simulators that any calls lead to (`Simulator.Reached`). Whatever
the calls, the ids of the graphs stay accounted for, and between rounds the ball is at the start
(`Simulator.Reached.kept`). So is a simulator with any curves that has played no round
(`Simulator.fresh`).
-/

namespace RollingBall

variable {α : Type} [Scalar α]

namespace Simulator

/-- The simulators that a level is played with: calls may come in any order. A graph is added only
while an id is left for it, since ids have 32 bits. -/
inductive Reached (level : Level α) : Simulator α → Prop where
  | ofLevel : Reached level (.ofLevel level)
  | addGraph {sim : Simulator α} (curve : Curve α) : Reached level sim →
      sim.graphs.size < UInt32.size → Reached level (sim.addGraph curve).2
  | removeGraph {sim : Simulator α} (id : GraphId) : Reached level sim →
      Reached level (sim.removeGraph id).2
  | replaceGraph {sim : Simulator α} (id : GraphId) (curve : Curve α) : Reached level sim →
      Reached level (sim.replaceGraph id curve).2
  | toggle {sim : Simulator α} : Reached level sim → Reached level sim.toggle
  | tick {sim : Simulator α} : Reached level sim → Reached level sim.tick.2

/-- What no call changes, and what holds between rounds. -/
structure Kept (level : Level α) (sim : Simulator α) : Prop where
  solver : sim.solver = .ofRadius Rules.ballRadius
  start : sim.level.start = level.start
  graphs : sim.graphs.Accounted
  ball : sim.phase = .stopped → sim.ball = .atStart level.start

theorem Reached.kept {level : Level α} {sim : Simulator α} (h : sim.Reached level) :
    sim.Kept level := by
  induction h with
  | ofLevel => exact ⟨rfl, rfl, GraphStore.accounted_empty, fun _ => rfl⟩
  | addGraph curve _ hsize ih => exact { ih with graphs := ih.graphs.add hsize curve }
  | removeGraph id _ ih => exact { ih with graphs := ih.graphs.remove id }
  | replaceGraph id curve _ ih => exact { ih with graphs := ih.graphs.replace id curve }
  | @toggle sim _ ih =>
    cases hp : sim.phase with
    | stopped =>
      rw [toggle_stopped hp]
      exact { ih with ball := fun h => nomatch h }
    | running =>
      rw [toggle_running hp]
      exact { ih with ball := fun _ => congrArg Ball.atStart ih.start }
  | @tick sim _ ih =>
    -- Only the tick that ends a round leads to the time between rounds.
    cases hp : sim.phase with
    | stopped =>
      rw [tick_stopped hp]
      exact ih
    | running =>
      have hstart : sim.nextLevel.start = level.start := (Level.start_advance ..).trans ih.start
      cases hv : verdict sim.nextLevel sim.nextBall with
      | none =>
        rw [tick_continues hp hv]
        exact { ih with start := hstart, ball := fun h => absurd (hp.symm.trans h) (by decide) }
      | some won =>
        rw [tick_ends hp hv]
        exact { ih with start := hstart, ball := fun _ => congrArg Ball.atStart ih.start }

/-- Between rounds, simulators are alike if their levels are from the next tick on. -/
theorem Reached.alike {level : Level α} {sim sim' : Simulator α} (h : sim.Reached level)
    (h' : sim'.Reached level) (hstopped : sim.phase = .stopped) (hstopped' : sim'.phase = .stopped)
    (hlevel : ∀ time, sim.level.advance time = sim'.level.advance time)
    {Related : Ball α → Ball α → Prop}
    (hstart : Related (.atStart level.start) (.atStart level.start)) :
    sim.Alike sim.solver sim.graphs sim'.graphs level.start Related sim' where
  solver_left := rfl
  solver_right := h'.kept.solver.trans h.kept.solver.symm
  graphs_left := rfl
  graphs_right := rfl
  phase := hstopped.trans hstopped'.symm
  time hrunning := absurd (hstopped.symm.trans hrunning) (by decide)
  level := hlevel
  start := h.kept.start
  ball := by
    rw [h.kept.ball hstopped, h'.kept.ball hstopped']
    exact hstart

/-! ## Fresh simulators -/

/-- A simulator that has played no round yet, with some curves as graphs. -/
def fresh (level : Level α) (curves : List (Curve α)) : Simulator α :=
  curves.foldl (fun sim curve => (sim.addGraph curve).2) (.ofLevel level)

theorem foldl_addGraph (sim : Simulator α) (curves : List (Curve α)) :
    curves.foldl (fun sim curve => (sim.addGraph curve).2) sim =
      { sim with graphs := curves.foldl (fun s curve => (s.add curve).2) sim.graphs } := by
  induction curves generalizing sim with
  | nil => rfl
  | cons curve curves ih =>
    rw [List.foldl_cons, ih]
    rfl

theorem fresh_eq (level : Level α) (curves : List (Curve α)) :
    fresh level curves = { ofLevel level with graphs := .ofCurves curves } :=
  foldl_addGraph _ _

theorem curves_fresh (level : Level α) (curves : List (Curve α)) :
    (fresh level curves).graphs.curves = curves := by
  rw [fresh_eq]
  exact GraphStore.curves_ofCurves curves

theorem Reached.foldl_addGraph {level : Level α} {sim : Simulator α} (h : sim.Reached level)
    {curves : List (Curve α)} (hsize : sim.graphs.size + curves.length ≤ UInt32.size) :
    (curves.foldl (fun sim curve => (sim.addGraph curve).2) sim).Reached level := by
  induction curves generalizing sim with
  | nil => exact h
  | cons curve curves ih =>
    rw [List.length_cons] at hsize
    refine ih (.addGraph curve h (by omega)) ?_
    show (sim.graphs.add curve).2.size + curves.length ≤ UInt32.size
    rw [GraphStore.size_add]
    omega

theorem reached_fresh (level : Level α) {curves : List (Curve α)}
    (h : curves.length ≤ UInt32.size) : (fresh level curves).Reached level :=
  Reached.ofLevel.foldl_addGraph (by
    rw [show (ofLevel level).graphs.size = 0 from rfl]
    omega)

end Simulator

end RollingBall
