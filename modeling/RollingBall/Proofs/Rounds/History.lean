import RollingBall.Binary64
import RollingBall.Proofs.Graphs.Places
import RollingBall.Proofs.Motion.Matching
import RollingBall.Proofs.Obstacles.Forgetting
import RollingBall.Proofs.Rounds.Lockstep
import RollingBall.Proofs.Rounds.Reached

/-!
# Rounds do not depend on the past

What a simulator keeps from earlier rounds and edits is the time, the places of the obstacles, and
which ids its graphs have. A round sets the time, and its ticks place the obstacles anew if the
level forgets their places (`Level.Forgetful`), as levels of turning wheels and of bobbing spikes
do. The ids matter only through the places of the graphs (`lockstep_of_curves`). So a round goes as
in a fresh simulator with the same curves.
-/

namespace RollingBall

variable {α : Type} [Scalar α]

/-! ## Levels between rounds -/

/-- A level that forgets is as it was at first when it is placed for a tick. -/
theorem Simulator.Reached.level_advance {level : Level α} (hforgetful : level.Forgetful)
    {sim : Simulator α} (h : sim.Reached level) (time : α) :
    sim.level.advance time = level.advance time := by
  induction h generalizing time with
  | ofLevel => rfl
  | addGraph _ _ _ ih => exact ih time
  | removeGraph _ _ ih => exact ih time
  | replaceGraph _ _ _ ih => exact ih time
  | @toggle sim _ ih =>
    cases hp : sim.phase with
    | stopped =>
      rw [Simulator.toggle_stopped hp]
      exact ih time
    | running =>
      rw [Simulator.toggle_running hp]
      exact ih time
  | @tick sim _ ih =>
    cases hp : sim.phase with
    | stopped =>
      rw [Simulator.tick_stopped hp]
      exact ih time
    | running =>
      rw [Simulator.level_tick hp, Simulator.nextLevel, ih sim.time]
      exact hforgetful sim.time time

/-! ## Rounds of a fresh simulator -/

/-- Over the same curves, balls supported at the same places stay at the same places. -/
theorem lockstep_of_curves {s s' : GraphStore α} (h : s.Accounted) (h' : s'.Accounted)
    (hcurves : s.curves = s'.curves) (solver : ContactSolver α) (start : Point α) :
    Lockstep solver s s' Simulator.supportPlace Simulator.supportPlace start
      (Ball.Matches (s.Renumbered id s')) where
  start := ⟨rfl, rfl, .none⟩
  move _ hball := by
    have hformulas : ∀ i : Nat, s.formulas[id i]? = s'.formulas[i]? := fun i => by
      show s.formulas[i]? = s'.formulas[i]?
      rw [GraphStore.formulas, GraphStore.formulas, hcurves]
    have hall : ∀ s : GraphStore α, s.graphs = [] ++ (s.graphs ++ []) :=
      fun s => (List.append_nil s.graphs).symm
    have hgraphs := GraphStore.forall₂_renumbered id h h' (hall s) (hall s') hcurves
      (fun _ _ => rfl)
    exact Simulator.moveBall_matches hball .none (hball.support.formula? hformulas)
      (Simulator.landing_matches hgraphs)
  pos hball := hball.pos
  lastContact hball := hball.lastContact
  support hgraphs hgraphs' hball := by
    have hplace := hball.support.map_place
    rw [Option.map_id, Option.map_id] at hplace
    unfold Simulator.supportPlace
    rw [hgraphs, hgraphs']
    exact hplace

/-- **Rounds do not depend on the past.** A simulator that any calls led to and that is stopped
shows in every run what a fresh one with the same curves shows, supports being seen as the places
of their graphs. -/
theorem rounds_forget_the_past {b : Blueprint α}
    (hb : b.motion = .still ∨ ∀ layout ∈ b.obstacles, layout.IsSpike) {sim : Simulator α}
    (hsim : sim.Reached b.instantiate) (hstopped : sim.phase = .stopped) (calls : List Control) :
    sim.watch Simulator.supportPlace calls =
      (Simulator.fresh b.instantiate sim.graphs.curves).watch Simulator.supportPlace calls := by
  have hfresh := Simulator.reached_fresh b.instantiate hsim.kept.graphs.length_curves_le
  have hcurves := Simulator.curves_fresh b.instantiate sim.graphs.curves
  have hlockstep := lockstep_of_curves hsim.kept.graphs hfresh.kept.graphs hcurves.symm sim.solver
    b.instantiate.start
  refine hlockstep.watch_eq (hsim.alike hfresh hstopped ?_ ?_ hlockstep.start) calls
  · rw [Simulator.fresh_eq]
    rfl
  · rw [Simulator.fresh_eq]
    exact hsim.level_advance (b.forgetful_instantiate hb)

/-- A level with a turning wheel. -/
def windmill : Blueprint Float where
  id := 1
  name := "Windmill"
  start := ⟨-6.0, 0.0⟩
  goal := ⟨5.0, 0.0⟩
  obstacles := [.wheel 0.0 2.0 3 2 1.5]
  motion := .still
  targetEquations := 1
  targetTime := 8.0

/-- A round was stopped in it, and the first graph was removed and its id used again. -/
def usedWindmill : Simulator Float :=
  let sim := Simulator.ofLevel windmill.instantiate
  let sim := (sim.addGraph (.unconditional (.constant 1.0))).2
  let sim := (sim.addGraph (.unconditional (.var .x))).2
  let sim := sim.toggle.toggle
  let sim := (sim.removeGraph ⟨0⟩).2
  (sim.addGraph (.unconditional (.var .t))).2

theorem reached_usedWindmill : usedWindmill.Reached windmill.instantiate :=
  .addGraph _ (.removeGraph _ (.toggle (.toggle
    (.addGraph _ (.addGraph _ .ofLevel (by decide)) (by decide))))) (by decide)

theorem rounds_forget_used_ids :
    usedWindmill.phase = .stopped ∧ usedWindmill.graphs.ids = [1, 0] ∧
      usedWindmill.watch Simulator.supportPlace [.toggle, .tick, .tick] =
        (Simulator.fresh windmill.instantiate usedWindmill.graphs.curves).watch
          Simulator.supportPlace [.toggle, .tick, .tick] :=
  ⟨rfl, by decide, rounds_forget_the_past (.inl rfl) reached_usedWindmill rfl _⟩

end RollingBall
