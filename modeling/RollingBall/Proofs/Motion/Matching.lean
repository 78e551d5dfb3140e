import Mathlib.Data.List.Forall2
import RollingBall.Proofs.Motion.Move

/-!
# Balls over matching graphs

Two balls move alike over two lists of graphs if the graphs that may support them match: matching
supports have the same formula, and the landings of balls at the same place match again
(`Simulator.moveBall_matches`). Graphs that match one by one give matching landings
(`Simulator.landing_matches`).
-/

namespace RollingBall

variable {α : Type} (Match : Option GraphId → Option GraphId → Prop)

/-- Balls at the same place with the same last contact, on matching supports. -/
structure Ball.Matches (ball ball' : Ball α) : Prop where
  pos : ball.pos = ball'.pos
  lastContact : ball.lastContact = ball'.lastContact
  support : Match ball.support ball'.support

/-- Footings of the same height with the same last contact, on matching supports. -/
structure Simulator.Footing.Matches (footing footing' : Simulator.Footing α) : Prop where
  height : footing.height = footing'.height
  lastContact : footing.lastContact = footing'.lastContact
  support : Match footing.support footing'.support

variable {Match} [Scalar α] {solver : ContactSolver α} {time : α} {pos : Point α}

namespace Simulator

/-- The same offer by matching graphs keeps footings matching. -/
theorem Footing.Matches.consider {footing footing' : Footing α} (h : footing.Matches Match footing')
    {id id' : GraphId} (hid : Match (some id) (some id')) (offer : Option α) :
    (footing.consider time id offer).Matches Match (footing'.consider time id' offer) := by
  cases offer with
  | none => exact h
  | some contact =>
    unfold Footing.consider
    dsimp only
    rw [← h.height]
    split
    · exact ⟨rfl, rfl, hid⟩
    · exact h

theorem landing_matches {graphs graphs' : List (Graph α)}
    (h : List.Forall₂ (fun graph graph' => graph.curve = graph'.curve ∧
      Match (some graph.id) (some graph'.id)) graphs graphs')
    {footing footing' : Footing α} (hf : footing.Matches Match footing') :
    (landing solver time pos graphs footing).Matches Match
      (landing solver time pos graphs' footing') := by
  induction h generalizing footing footing' with
  | nil => exact hf
  | @cons graph graph' _ _ hgraph _ ih =>
    rw [landing_cons, landing_cons, ← hgraph.1]
    exact ih (hf.consider hgraph.2 _)

/-- A move keeps balls matching if their supports have the same formula and matching footings the
same landing. -/
theorem moveBall_matches {graphs graphs' : GraphStore α} {ball ball' : Ball α}
    (h : ball.Matches Match ball') (hnone : Match none none)
    (hformula : (ball.support.bind graphs.curve?).map Curve.formula =
      (ball'.support.bind graphs'.curve?).map Curve.formula)
    (hlanding : ∀ {footing footing' : Footing α}, footing.Matches Match footing' →
      (landing solver time ball.pos graphs.graphs footing).Matches Match
        (landing solver time ball.pos graphs'.graphs footing')) :
    (moveBall solver graphs ball time).Matches Match (moveBall solver graphs' ball' time) := by
  have hfalling : (falling ball time).Matches Match (falling ball' time) := by
    refine ⟨?_, h.lastContact, hnone⟩
    unfold falling drop
    rw [h.pos, h.lastContact]
  have hland := hlanding hfalling
  rw [moveBall_eq, moveBall_eq, ← h.pos]
  refine ⟨?_, hland.lastContact, hland.support⟩
  show Point.mk _ _ = Point.mk _ _
  rw [Curve.stride_congr hformula, hland.height]

end Simulator

end RollingBall
