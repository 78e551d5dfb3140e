import RollingBall.Proofs.Numbers.Unrounded
import RollingBall.Proofs.Obstacles.Carrying

/-!
# Bobbing moves obstacles as a whole

Bobbing carries a spike of a wheel along all the places its hub has been. In exact arithmetic the
steps between these places add up to the last place less the first one (`Point.carried_exact`), so
every obstacle is the one it was, moved up by what bobbing gives at the time
(`Level.obstacles_advanceAll_bobbing`). A ball meets it there as it would meet the first one if the
ball were lower by as much (`bobbing_is_rigid`). The sine may be any function.

## Main definitions

* `Obstacle.shift`: an obstacle moved as a whole.
* `Wheel.Hubbed`: the first spike of a wheel is at its hub.
-/

namespace RollingBall

open Scalar.Unrounded

variable {α : Type} [Scalar α]

/-- The obstacle with all its spikes moved in the same way. -/
def Obstacle.shift (offset : Point α) : Obstacle α → Obstacle α
  | spike s => spike ⟨s.position + offset⟩
  | wheel w => wheel { w with
      center := w.center + offset
      spikes := w.spikes.map fun s => ⟨s.position + offset⟩ }

theorem Obstacle.spikes_shift (offset : Point α) (obstacle : Obstacle α) :
    (obstacle.shift offset).spikes = obstacle.spikes.map fun s => ⟨s.position + offset⟩ := by
  cases obstacle <;> rfl

/-- The first spike is at the hub. -/
def Wheel.Hubbed (wheel : Wheel α) : Prop := wheel.spikes.head? = some ⟨wheel.center⟩

theorem Wheel.Hubbed.turnTo {wheel : Wheel α} (h : wheel.Hubbed) (time : α) :
    (wheel.turnTo time).Hubbed := by
  unfold Hubbed
  cases hspikes : wheel.spikes with
  | nil => rwa [turnTo_nil wheel hspikes]
  | cons hub spikes => rw [turnTo_cons wheel hspikes]; rfl

theorem Wheel.hubbed_ofShape (center : Point α) (arms armLength : UInt32) (speed : α) :
    (Wheel.ofShape center arms armLength speed).Hubbed :=
  have hnew (count : ℕ) :
      Wheel.Hubbed ⟨center, arms, armLength, speed, List.replicate (count + 1) ⟨center⟩⟩ := rfl
  (hnew _).turnTo 0.0

variable [Scalar.Unrounded α]

/-! ## Points -/

namespace Point

/-- The real coordinates of a point. -/
def value (p : Point α) : ℝ × ℝ := (Scalar.Unrounded.value p.x, Scalar.Unrounded.value p.y)

theorem value_injective : Function.Injective (value : Point α → ℝ × ℝ) := by
  intro p q h
  obtain ⟨hx, hy⟩ := Prod.mk.inj h
  exact congrArg₂ mk (Scalar.Unrounded.value_injective hx) (Scalar.Unrounded.value_injective hy)

@[simp] theorem value_add (p q : Point α) : (p + q).value = p.value + q.value :=
  Prod.ext (Scalar.Unrounded.value_add p.x q.x) (Scalar.Unrounded.value_add p.y q.y)

@[simp] theorem value_sub (p q : Point α) : (p - q).value = p.value - q.value :=
  Prod.ext (Scalar.Unrounded.value_sub p.x q.x) (Scalar.Unrounded.value_sub p.y q.y)

theorem add_sub_of (p q : Point α) : p + (q - p) = q := value_injective (by simp)

theorem add_sub_anchor (p hub offset : Point α) : p + (hub + offset - hub) = p + offset :=
  value_injective (by simp)

theorem add_sub_shifted (p q offset : Point α) : p + offset - (q + offset) = p - q :=
  value_injective (by simp)

/-- Only the first and the last place of the hub count. -/
theorem carried_exact (p hub : Point α) (places : List (Point α)) (place : Point α) :
    p.carried hub (places ++ [place]) = p + (place - hub) := by
  induction places generalizing p hub with
  | nil => rfl
  | cons next places ih =>
    rw [List.cons_append, carried, ih]
    -- The next place is where this step ends and where the others begin.
    refine value_injective ?_
    simp only [value_add, value_sub]
    abel

theorem distanceSquared_rise (p q : Point α) (rise : α) :
    (p + ⟨0.0, rise⟩).distanceSquared q = p.distanceSquared ⟨q.x, q.y - rise⟩ := by
  have hdifference : p + ⟨0.0, rise⟩ - q = p - ⟨q.x, q.y - rise⟩ :=
    congrArg₂ mk (congrArg (· - q.x) (add_zero_eq p.x)) (add_sub_move p.y rise q.y)
  unfold distanceSquared
  rw [hdifference]

end Point

/-! ## Obstacles -/

namespace Obstacle

/-- An obstacle that comes to its first place moved by an offset, on whatever way, is moved as a
whole. -/
theorem carried_eq_shift (obstacle : Obstacle α) (places : List (Point α)) (offset : Point α) :
    obstacle.carried (places ++ [obstacle.anchor + offset]) = obstacle.shift offset := by
  cases obstacle with
  | spike s => simp [carried, shift, anchor]
  | wheel w => simp [carried, shift, anchor, Point.carried_exact, Point.add_sub_anchor]

theorem kills_shift (obstacle : Obstacle α) (ball : Ball α) (rise : α) :
    (obstacle.shift ⟨0.0, rise⟩).kills ball =
      obstacle.kills { ball with pos := ⟨ball.pos.x, ball.pos.y - rise⟩ } := by
  unfold kills
  rw [spikes_shift, List.any_map]
  congr 1
  funext s
  unfold Spike.kills
  simp only [Function.comp_apply, Point.distanceSquared_rise]

end Obstacle

namespace Wheel

theorem Hubbed.moveTo {wheel : Wheel α} (h : wheel.Hubbed) (center : Point α) :
    (wheel.moveTo center).Hubbed := by
  have hhub : wheel.center + (center - wheel.center) = center := Point.add_sub_of _ _
  unfold Hubbed Wheel.moveTo at *
  rw [List.head?_map, h, Option.map_some, hhub]

theorem Hubbed.after {wheel : Wheel α} (h : wheel.Hubbed) (calls : List (Call α)) :
    (wheel.after calls).Hubbed := by
  induction calls generalizing wheel with
  | nil => exact h
  | cons call calls ih =>
    cases call with
    | turn time => exact ih (h.turnTo time)
    | move center => exact ih (h.moveTo center)

theorem Made.hubbed {wheel : Wheel α} (h : wheel.Made) : wheel.Hubbed := by
  obtain ⟨center, arms, armLength, speed, calls, rfl⟩ := h
  exact (hubbed_ofShape center arms armLength speed).after calls

end Wheel

/-! ## Levels -/

/-- After any placements, the obstacles of a bobbing level are the first ones moved as a whole. -/
theorem Level.obstacles_advanceAll_bobbing (start goal : Point α) (obstacles : List (Obstacle α))
    (amplitude frequency : α) (history : List α) (time : α) :
    ((bobbing start goal obstacles amplitude frequency).advanceAll (history ++ [time])).obstacles =
      obstacles.map (Obstacle.shift (bobOffset amplitude frequency time)) := by
  rw [advanceAll_bobbing]
  refine List.map_congr_left fun obstacle _ => ?_
  rw [bobPlaces_concat, Obstacle.carried_eq_shift]

/-- **Bobbing.** In exact arithmetic, after any placements of which the last is that of a time, a
bobbing level kills a ball if the level as it was made kills one that is lower by what bobbing
lifts the obstacles. Every wheel is lifted by as much, its spikes are where they were about its hub,
and the first spike of a wheel as they are made and used is at the hub. -/
theorem bobbing_is_rigid (start goal : Point α) (obstacles : List (Obstacle α))
    (amplitude frequency : α) (history : List α) (time : α) :
    let fresh := Level.bobbing start goal obstacles amplitude frequency
    let used := fresh.advanceAll (history ++ [time])
    let rise := Scalar.sin (time * frequency) * amplitude
    (∀ ball : Ball α,
      used.kills ball = fresh.kills { ball with pos := ⟨ball.pos.x, ball.pos.y - rise⟩ }) ∧
      ∀ (i : ℕ) (wheel : Wheel α), obstacles[i]? = some (.wheel wheel) →
        ∃ moved, used.obstacles[i]? = some (.wheel moved) ∧
          moved.center = ⟨wheel.center.x, wheel.center.y + rise⟩ ∧
          moved.spikes.map (fun s => s.position - moved.center) =
            wheel.spikes.map (fun s => s.position - wheel.center) ∧
          (wheel.Made → moved.spikes.head? = some ⟨moved.center⟩) := by
  intro fresh used rise
  have hobstacles : used.obstacles = obstacles.map (Obstacle.shift ⟨0.0, rise⟩) :=
    Level.obstacles_advanceAll_bobbing start goal obstacles amplitude frequency history time
  refine ⟨fun ball => ?_, fun i wheel hwheel => ?_⟩
  · show used.obstacles.any _ = obstacles.any _
    rw [hobstacles, List.any_map]
    congr 1
    funext obstacle
    exact obstacle.kills_shift ball rise
  · refine ⟨_, by rw [hobstacles, List.getElem?_map, hwheel]; rfl, ?_, ?_, fun hmade => ?_⟩
    · exact congrArg (Point.mk · _) (add_zero_eq wheel.center.x)
    · rw [List.map_map]
      refine List.map_congr_left fun s _ => ?_
      exact Point.add_sub_shifted _ _ _
    · rw [List.head?_map, hmade.hubbed]
      rfl

section Mill

open scoped Reals

/-- A windmill beside a spike, which bobbed for a while. -/
theorem bobbing_is_rigid_mill :
    let mill : Wheel ℝ := .ofShape ⟨1, 2⟩ 3 3 1
    let level := Level.bobbing ⟨-6, 0⟩ ⟨6, 0⟩ [.spike ⟨⟨0, 1⟩⟩, .wheel mill] 1.5 0.5
    mill.Made ∧ ∃ moved,
      (level.advanceAll ([1, 5] ++ [2])).obstacles[1]? = some (.wheel moved) ∧
        moved.spikes.head? = some ⟨⟨1, 2 + Real.sin (2 * 0.5) * 1.5⟩⟩ := by
  intro mill level
  have hmade : mill.Made := ⟨⟨1, 2⟩, 3, 3, 1, [], rfl⟩
  obtain ⟨-, hwheels⟩ := bobbing_is_rigid ⟨-6, 0⟩ ⟨6, 0⟩ [.spike ⟨⟨0, 1⟩⟩, .wheel mill] 1.5 0.5
    [1, 5] 2
  obtain ⟨moved, hmoved, hcenter, -, hhub⟩ := hwheels 1 mill rfl
  have hplace : mill.center = ⟨1, 2⟩ := Wheel.center_ofShape ⟨1, 2⟩ 3 3 1
  rw [hplace] at hcenter
  refine ⟨hmade, moved, hmoved, ?_⟩
  rw [hhub hmade, hcenter]
  rfl

end Mill

end RollingBall
