import Mathlib.Data.List.Induction
import RollingBall.Binary64
import RollingBall.Proofs.Obstacles.Forgetting

/-!
# Obstacles that are carried along

A bobbing level puts every obstacle at its first place moved by an offset. The hub of a wheel goes
there at once, but its spikes are moved by the difference to where the hub was before. Each of these
moves is rounded, so a spike ends at a sum over all the places that the hub has been
(`Point.carried`), and a hub that is back does not bring its spikes back (`carried_back_ne`).

So a level after any history is a fresh one placed once, but for the spikes of bobbing wheels, which
keep the whole history (`obstacles_keep_history`).
-/

namespace RollingBall

variable {α : Type} [Scalar α]

/-! ## Carrying -/

/-- Where a point ends that goes along with a hub from place to place. -/
def Point.carried (p hub : Point α) : List (Point α) → Point α
  | [] => p
  | place :: places => (p + (place - hub)).carried place places

theorem Point.carried_concat (p hub place : Point α) (places : List (Point α)) :
    p.carried hub (places ++ [place]) =
      p.carried hub places + (place - places.getLastD hub) := by
  induction places generalizing p hub with
  | nil => rfl
  | cons next places ih =>
    rw [List.cons_append, carried, carried, ih, List.getLastD_cons]

/-- The tip of a short spoke does not come back with its hub. -/
theorem carried_back_ne :
    (⟨-1.0, 1.2246467991473532e-16⟩ : Point Float).carried ⟨0.0, 0.0⟩
        [⟨0.0, 0.719138307906304⟩, ⟨0.0, 0.0⟩] ≠
      ⟨-1.0, 1.2246467991473532e-16⟩ := by
  decide +kernel

namespace Obstacle

/-- The obstacle at the last of some places, the spikes of a wheel carried along with its hub. -/
def carried (places : List (Point α)) : Obstacle α → Obstacle α
  | spike s => spike ⟨places.getLastD s.position⟩
  | wheel w => wheel { w with
      center := places.getLastD w.center
      spikes := w.spikes.map fun s => ⟨s.position.carried w.center places⟩ }

@[simp] theorem carried_nil (obstacle : Obstacle α) : obstacle.carried [] = obstacle := by
  cases obstacle with
  | spike s => rfl
  | wheel w => simp [carried, Point.carried]

theorem carried_concat (obstacle : Obstacle α) (places : List (Point α)) (place : Point α) :
    obstacle.carried (places ++ [place]) = (obstacle.carried places).moveTo place := by
  cases obstacle with
  | spike s => simp [carried, moveTo]
  | wheel w => simp [carried, moveTo, Wheel.moveTo, Point.carried_concat]

theorem anchor_carried_concat (obstacle : Obstacle α) (places : List (Point α))
    (place : Point α) : (obstacle.carried (places ++ [place])).anchor = place := by
  rw [carried_concat]
  cases obstacle.carried places <;> rfl

end Obstacle

/-! ## Levels with a history -/

namespace Level

/-- The level after it was placed for some times, one after another. -/
def advanceAll (level : Level α) (times : List α) : Level α := times.foldl advance level

theorem advanceAll_concat (level : Level α) (times : List α) (time : α) :
    level.advanceAll (times ++ [time]) = (level.advanceAll times).advance time :=
  List.foldl_append

/-- A level that forgets is placed by the last time alone. -/
theorem Forgetful.advanceAll_concat {level : Level α} (h : level.Forgetful) (times : List α)
    (time : α) : level.advanceAll (times ++ [time]) = level.advance time := by
  induction times using List.reverseRecOn generalizing time with
  | nil => rfl
  | append_singleton times last ih => rw [Level.advanceAll_concat, ih, h]

/-- The places to which bobbing takes an obstacle from its first place. -/
def bobPlaces (amplitude frequency : α) (base : Point α) (times : List α) : List (Point α) :=
  times.map fun time => base + bobOffset amplitude frequency time

@[simp] theorem bobPlaces_concat (amplitude frequency : α) (base : Point α) (times : List α)
    (time : α) :
    bobPlaces amplitude frequency base (times ++ [time]) =
      bobPlaces amplitude frequency base times ++ [base + bobOffset amplitude frequency time] :=
  List.map_append

theorem placeAt_map {β : Type} (offset : Point α) (obstacle : β → Obstacle α)
    (place : β → Point α) (items : List β) :
    placeAt offset (items.map obstacle) (items.map place) =
      items.map fun item => (obstacle item).moveTo (place item + offset) := by
  induction items with
  | nil => rfl
  | cons item items ih =>
    rw [List.map_cons, List.map_cons, List.map_cons, placeAt, ih]

/-- Bobbing carries every obstacle along the places of all the times so far. -/
theorem advanceAll_bobbing (start goal : Point α) (obstacles : List (Obstacle α))
    (amplitude frequency : α) (times : List α) :
    (bobbing start goal obstacles amplitude frequency).advanceAll times =
      { bobbing start goal obstacles amplitude frequency with
        obstacles := obstacles.map fun obstacle =>
          obstacle.carried (bobPlaces amplitude frequency obstacle.anchor times) } := by
  induction times using List.reverseRecOn with
  | nil => simp [advanceAll, bobPlaces, bobbing]
  | append_singleton times time ih =>
    rw [advanceAll_concat, ih]
    unfold bobbing advance
    dsimp only
    rw [placeAt_map]
    simp [Obstacle.carried_concat]

end Level

namespace Blueprint

variable {b : Blueprint α}

theorem advanceAll_bobbing {amplitude frequency : α} (h : b.motion = .bobbing amplitude frequency)
    (times : List α) :
    b.instantiate.advanceAll times = { b.instantiate with
      obstacles := b.obstacles.map fun layout =>
        layout.build.carried (Level.bobPlaces amplitude frequency layout.build.anchor times) } := by
  have hfresh : b.instantiate = .bobbing b.start b.goal (b.obstacles.map ObstacleLayout.build)
      amplitude frequency := by
    unfold instantiate
    rw [h]
  rw [hfresh, Level.advanceAll_bobbing, List.map_map]
  rfl

/-- **Obstacles keep their history.** After any placements a level is as a fresh one placed once,
if its obstacles move each for itself. If they bob, every anchor and every single spike is where it
is in a fresh level, but the spikes of a wheel were carried along all the places of its hub. -/
theorem obstacles_keep_history (b : Blueprint α) (history : List α) (time : α) :
    let used := (b.instantiate.advanceAll (history ++ [time])).obstacles
    let fresh := (b.instantiate.advance time).obstacles
    (b.motion = .still → used = fresh) ∧
    ∀ amplitude frequency, b.motion = .bobbing amplitude frequency →
      used.map Obstacle.anchor = fresh.map Obstacle.anchor ∧
      (∀ (i : Nat) (layout : ObstacleLayout α), b.obstacles[i]? = some layout → layout.IsSpike →
        used[i]? = fresh[i]?) ∧
      used = (b.obstacles.map fun layout => layout.build.carried
        (Level.bobPlaces amplitude frequency layout.build.anchor (history ++ [time]))) ∧
      fresh = b.obstacles.map fun layout => layout.build.carried
        (Level.bobPlaces amplitude frequency layout.build.anchor [time]) := by
  intro used fresh
  refine ⟨fun hstill => ?_, fun amplitude frequency hbobbing => ?_⟩
  · have hforgetful := b.forgetful_instantiate (.inl hstill)
    exact congrArg Level.obstacles (hforgetful.advanceAll_concat history time)
  · have hplaces : ∀ times, (b.instantiate.advanceAll times).obstacles =
        b.obstacles.map fun layout => layout.build.carried
          (Level.bobPlaces amplitude frequency layout.build.anchor times) :=
      fun times => congrArg Level.obstacles (advanceAll_bobbing hbobbing times)
    have hused : used = _ := hplaces (history ++ [time])
    have hfresh : fresh = _ := hplaces [time]
    refine ⟨?_, fun i layout hlayout hspike => ?_, hused, hfresh⟩
    · have hanchor : ∀ (times : List α) (layout : ObstacleLayout α),
          (layout.build.carried (Level.bobPlaces amplitude frequency layout.build.anchor
            (times ++ [time]))).anchor =
            layout.build.anchor + Level.bobOffset amplitude frequency time := fun times layout => by
        rw [Level.bobPlaces_concat, Obstacle.anchor_carried_concat]
      rw [hused, hfresh, List.map_map, List.map_map]
      refine List.map_congr_left fun layout _ => ?_
      exact (hanchor history layout).trans (hanchor [] layout).symm
    · obtain ⟨x, y, rfl⟩ := hspike
      rw [hused, hfresh, List.getElem?_map, List.getElem?_map, hlayout]
      simp [Level.bobPlaces, ObstacleLayout.build, Obstacle.carried]

end Blueprint

end RollingBall
