import RollingBall.Blueprint
import RollingBall.Proofs.Obstacles.Wheels

/-!
# Obstacles that forget

A turning wheel is laid out anew from its hub and its shape (`Wheel.turnTo_turnTo`), and a single
spike goes where it is put, so neither keeps anything of where it was before. A level of such
obstacles is placed by the time alone (`Blueprint.forgetful_instantiate`). What is left are the
wheels of a bobbing level.

## Main definitions

* `Level.Forgetful`: the obstacles of a tick do not depend on where they were before.
-/

namespace RollingBall

variable {α : Type} [Scalar α]

/-- Where the obstacles are placed does not depend on where they were placed before. -/
def Level.Forgetful (level : Level α) : Prop :=
  ∀ time time', (level.advance time).advance time' = level.advance time'

theorem Obstacle.turnTo_turnTo (obstacle : Obstacle α) (time time' : α) :
    (obstacle.turnTo time).turnTo time' = obstacle.turnTo time' := by
  cases obstacle with
  | spike s => rfl
  | wheel w => exact congrArg wheel (w.turnTo_turnTo time time')

/-- The obstacle is a single spike. -/
def Obstacle.IsSpike (obstacle : Obstacle α) : Prop := ∃ s, obstacle = .spike s

theorem Obstacle.IsSpike.moveTo_moveTo {obstacle : Obstacle α} (h : obstacle.IsSpike)
    (place place' : Point α) : (obstacle.moveTo place).moveTo place' = obstacle.moveTo place' := by
  obtain ⟨s, rfl⟩ := h
  rfl

namespace Level

theorem placeAt_placeAt (offset offset' : Point α) {obstacles : List (Obstacle α)}
    (h : ∀ obstacle ∈ obstacles, obstacle.IsSpike) (places : List (Point α)) :
    placeAt offset' (placeAt offset obstacles places) places =
      placeAt offset' obstacles places := by
  induction obstacles generalizing places with
  | nil => rfl
  | cons obstacle obstacles ih =>
    cases places with
    | nil => rfl
    | cons place places =>
      have hspike := h obstacle List.mem_cons_self
      have hrest := ih (fun o ho => h o (List.mem_cons_of_mem _ ho)) places
      show (obstacle.moveTo _).moveTo _ :: placeAt _ (placeAt _ obstacles places) places =
        obstacle.moveTo _ :: placeAt _ obstacles places
      rw [hspike.moveTo_moveTo, hrest]

theorem forgetful_of_still {level : Level α} (h : level.motion = .still) : level.Forgetful := by
  intro time time'
  unfold advance
  simp only [h, List.map_map]
  congr 2
  funext obstacle
  exact obstacle.turnTo_turnTo time time'

theorem forgetful_of_spikes {level : Level α}
    (h : ∀ obstacle ∈ level.obstacles, obstacle.IsSpike) : level.Forgetful := by
  intro time time'
  cases hmotion : level.motion with
  | still => exact forgetful_of_still hmotion time time'
  | bobbing amplitude frequency base =>
    unfold advance
    simp only [hmotion]
    rw [placeAt_placeAt _ _ h]

end Level

/-- The obstacle described is a single spike. -/
def ObstacleLayout.IsSpike (layout : ObstacleLayout α) : Prop := ∃ x y, layout = .spike x y

/-- A level of turning wheels and spikes forgets, and so does a bobbing one without wheels. -/
theorem Blueprint.forgetful_instantiate {b : Blueprint α}
    (h : b.motion = .still ∨ ∀ layout ∈ b.obstacles, layout.IsSpike) :
    b.instantiate.Forgetful := by
  rcases h with hstill | hspikes
  · refine Level.forgetful_of_still ?_
    unfold instantiate
    rw [hstill]
    rfl
  · refine Level.forgetful_of_spikes ?_
    have hobstacles : b.instantiate.obstacles = b.obstacles.map ObstacleLayout.build := by
      unfold instantiate
      cases b.motion with
      | still => rfl
      | bobbing amplitude frequency => rfl
    rw [hobstacles]
    intro obstacle hmem
    obtain ⟨layout, hlayout, rfl⟩ := List.mem_map.mp hmem
    obtain ⟨x, y, rfl⟩ := hspikes layout hlayout
    exact ⟨_, rfl⟩

end RollingBall
