import Mathlib.Logic.Function.Iterate
import RollingBall.Binary64
import RollingBall.Obstacle

/-!
# The layout of wheels

A wheel is turned by putting its spikes, one after another, to the places on its spokes. A wheel of
a certain shape has as many spikes as there are places (`Wheel.Shaped`), however it was turned and
moved before, so every spike gets its place and the layout has nothing of an earlier one. Of what
was done to the wheel only the last move is left: it says where the hub is (`Wheel.laid_out_anew`).

## Main definitions

* `Wheel.places`: the places on the spokes.
* `Wheel.overwrite`: the first spikes of a list at other places.
* `Wheel.Call`, `Wheel.after`, `Wheel.Made`: a wheel that was turned and moved.
* `Wheel.Call.hub?`: where a move puts the hub.
* `Wheel.Shaped`: a wheel has the spikes of its shape.
-/

namespace RollingBall

variable {α : Type}

namespace Wheel

/-! ## Assemblies -/

/-- The first spikes moved to places, as far as both reach. -/
def overwrite : List (Point α) → List (Spike α) → List (Spike α)
  | place :: places, _ :: spikes => ⟨place⟩ :: overwrite places spikes
  | _, spikes => spikes

@[simp] theorem overwrite_of_nil (places : List (Point α)) : overwrite places [] = [] := by
  cases places <;> rfl

@[simp] theorem length_overwrite (places : List (Point α)) (spikes : List (Spike α)) :
    (overwrite places spikes).length = spikes.length := by
  induction places generalizing spikes with
  | nil => rfl
  | cons place places ih =>
    cases spikes with
    | nil => rfl
    | cons spike spikes => exact congrArg (· + 1) (ih spikes)

/-- As many places as before hide where the spikes were put before. -/
theorem overwrite_overwrite {places places' : List (Point α)}
    (h : places'.length = places.length) (spikes : List (Spike α)) :
    overwrite places' (overwrite places spikes) = overwrite places' spikes := by
  induction places' generalizing places spikes with
  | nil =>
    rw [List.eq_nil_of_length_eq_zero h.symm]
    rfl
  | cons place' places' ih =>
    obtain ⟨place, places, rfl⟩ := List.exists_cons_of_length_eq_add_one h.symm
    cases spikes with
    | nil => rfl
    | cons spike spikes => exact congrArg (_ :: ·) (ih (Nat.succ_inj.mp h) spikes)

/-- If there is a place for each of them, all spikes are moved. -/
theorem overwrite_of_length_eq {places : List (Point α)} {spikes : List (Spike α)}
    (h : spikes.length = places.length) : overwrite places spikes = places.map Spike.mk := by
  induction places generalizing spikes with
  | nil => exact List.eq_nil_of_length_eq_zero h
  | cons place places ih =>
    obtain ⟨spike, spikes, rfl⟩ := List.exists_cons_of_length_eq_add_one h
    exact congrArg (_ :: ·) (ih (Nat.succ_inj.mp h))

namespace Assembly

theorem foldl_put_of_nil {assembly : Assembly α} (h : assembly.waiting = [])
    (places : List (Point α)) : places.foldl put assembly = assembly := by
  induction places with
  | nil => rfl
  | cons place places ih =>
    have hput : assembly.put place = assembly := by
      unfold put
      rw [h]
    rw [List.foldl_cons, hput, ih]

theorem spikes_foldl_put (places : List (Point α)) (assembly : Assembly α) :
    (places.foldl put assembly).spikes =
      assembly.placed.reverse ++ overwrite places assembly.waiting := by
  induction places generalizing assembly with
  | nil => rfl
  | cons place places ih =>
    obtain ⟨placed, waiting⟩ := assembly
    cases waiting with
    | nil => rw [foldl_put_of_nil rfl, overwrite_of_nil]; rfl
    | cons spike waiting =>
      show (places.foldl put ⟨⟨place⟩ :: placed, waiting⟩).spikes =
        placed.reverse ++ ⟨place⟩ :: overwrite places waiting
      rw [ih, List.reverse_cons, List.append_assoc]
      rfl

end Assembly

/-! ## Spokes -/

variable [Scalar α] (wheel : Wheel α)

/-- The places on the spoke at an angle, from the inside out. -/
def spoke (angle : α) : List (Point α) :=
  (List.range wheel.perArm).map fun r =>
    wheel.center + (Point.direction angle).scale (Scalar.ofNat (r + 1))

/-- The places on a number of spokes, of which the first is at an angle. -/
def spokes : Nat → α → List (Point α)
  | 0, _ => []
  | n + 1, angle => wheel.spoke angle ++ spokes n (angle + wheel.armAngle)

/-- The places on the spokes at a time. -/
def places (time : α) : List (Point α) := wheel.spokes wheel.arms.toNat (time * wheel.speed)

theorem layArm_eq (angle : α) (assembly : Assembly α) :
    wheel.layArm angle assembly = (wheel.spoke angle).foldl Assembly.put assembly := by
  unfold layArm spoke
  rw [List.foldl_map]

/-- **The loops.** Spikes are put to the places on the spokes, one spoke after another. -/
theorem layArms_eq (n : Nat) (angle : α) (assembly : Assembly α) :
    wheel.layArms n angle assembly = (wheel.spokes n angle).foldl Assembly.put assembly := by
  induction n generalizing angle assembly with
  | zero => rfl
  | succ n ih =>
    rw [layArms]
    split
    -- The loop ends when no spike is waiting; on the other spokes none would be put.
    · rename_i hempty
      rw [Assembly.foldl_put_of_nil (List.isEmpty_iff.mp hempty)]
    · rw [ih, layArm_eq, spokes, List.foldl_append]

theorem turnTo_cons {hub : Spike α} {spikes : List (Spike α)} (h : wheel.spikes = hub :: spikes)
    (time : α) : wheel.turnTo time =
      { wheel with spikes := ⟨wheel.center⟩ :: overwrite (wheel.places time) spikes } := by
  unfold turnTo
  rw [h]
  dsimp only
  rw [layArms_eq, Assembly.spikes_foldl_put]
  rfl

theorem turnTo_nil (h : wheel.spikes = []) (time : α) : wheel.turnTo time = wheel := by
  unfold turnTo
  rw [h]

/-- Nothing but the spikes of a wheel is changed by a turn. -/
theorem exists_turnTo_eq (time : α) :
    ∃ spikes, wheel.turnTo time = { wheel with spikes := spikes } := by
  cases h : wheel.spikes with
  | nil => exact ⟨wheel.spikes, turnTo_nil wheel h time⟩
  | cons hub spikes => exact ⟨_, turnTo_cons wheel h time⟩

@[simp] theorem center_turnTo (time : α) : (wheel.turnTo time).center = wheel.center := by
  obtain ⟨spikes, hturn⟩ := wheel.exists_turnTo_eq time
  rw [hturn]

@[simp] theorem length_turnTo (time : α) :
    (wheel.turnTo time).spikes.length = wheel.spikes.length := by
  cases h : wheel.spikes with
  | nil => rw [turnTo_nil wheel h, h]
  | cons hub spikes => rw [turnTo_cons wheel h]; simp

@[simp] theorem length_spoke (angle : α) : (wheel.spoke angle).length = wheel.perArm := by
  unfold spoke
  rw [List.length_map, List.length_range]

theorem length_spokes (n : Nat) (angle : α) :
    (wheel.spokes n angle).length = n * wheel.perArm := by
  induction n generalizing angle with
  | zero => rw [Nat.zero_mul]; rfl
  | succ n ih => rw [spokes, List.length_append, length_spoke, ih, Nat.succ_mul, Nat.add_comm]

@[simp] theorem length_places (time : α) :
    (wheel.places time).length = wheel.arms.toNat * wheel.perArm :=
  wheel.length_spokes _ _

/-- The `r`-th place of the `k`-th spoke, both counted from zero, is behind `k` whole spokes. -/
theorem getElem?_spokes {n k r : Nat} (hk : k < n) (hr : r < wheel.perArm) (angle : α) :
    (wheel.spokes n angle)[k * wheel.perArm + r]? =
      some (wheel.center + (Point.direction ((· + wheel.armAngle)^[k] angle)).scale
        (Scalar.ofNat (r + 1))) := by
  induction k generalizing n angle with
  | zero =>
    obtain ⟨n, rfl⟩ := Nat.exists_eq_add_one.mpr hk
    have hlength : r < (wheel.spoke angle).length := by rwa [length_spoke]
    rw [spokes, Nat.zero_mul, Nat.zero_add, List.getElem?_append_left hlength, spoke,
      List.getElem?_map, List.getElem?_range hr]
    rfl
  | succ k ih =>
    obtain ⟨n, rfl⟩ := Nat.exists_eq_add_one.mpr (Nat.zero_lt_of_lt hk)
    have hbehind : (k + 1) * wheel.perArm + r = wheel.perArm + (k * wheel.perArm + r) := by
      rw [Nat.succ_mul]
      omega
    rw [spokes, hbehind, List.getElem?_append_right (by simp), length_spoke,
      Nat.add_sub_cancel_left, ih (Nat.lt_of_succ_lt_succ hk), Function.iterate_succ_apply]

/-- The places do not depend on where the spikes are. -/
theorem places_with (spikes : List (Spike α)) (time : α) :
    ({ wheel with spikes := spikes } : Wheel α).places time = wheel.places time := by
  have hspokes : ∀ n angle,
      ({ wheel with spikes := spikes } : Wheel α).spokes n angle = wheel.spokes n angle := by
    intro n
    induction n with
    | zero => intro angle; rfl
    | succ n ih => intro angle; rw [spokes, spokes, ih]; rfl
  exact hspokes _ _

/-- Turning a wheel hides how it was turned before. -/
theorem turnTo_turnTo (time time' : α) :
    (wheel.turnTo time).turnTo time' = wheel.turnTo time' := by
  cases h : wheel.spikes with
  | nil => rw [turnTo_nil wheel h, turnTo_nil wheel h]
  | cons hub spikes =>
    have hlength : (wheel.places time').length = (wheel.places time).length := by simp
    have hplaces :=
      wheel.places_with (⟨wheel.center⟩ :: overwrite (wheel.places time) spikes) time'
    rw [turnTo_cons wheel h, turnTo_cons wheel h, turnTo_cons _ rfl, hplaces,
      overwrite_overwrite hlength]

/-! ## Wheels in use -/

/-- A wheel is turned to a time, or its hub is moved. -/
inductive Call (α : Type) where
  | turn (time : α)
  | move (center : Point α)

/-- Where a call puts the hub, if it is a move. -/
def Call.hub? : Call α → Option (Point α)
  | .turn _ => none
  | .move center => some center

/-- The wheel after a call. -/
def perform (wheel : Wheel α) : Call α → Wheel α
  | .turn time => wheel.turnTo time
  | .move center => wheel.moveTo center

/-- The wheel after some calls, one after another. -/
def after (wheel : Wheel α) (calls : List (Call α)) : Wheel α := calls.foldl perform wheel

/-- The wheel is one that was made, turned and moved. -/
def Made (wheel : Wheel α) : Prop :=
  ∃ center arms armLength speed calls, wheel = (ofShape center arms armLength speed).after calls

/-- The hub is where the last move put it. -/
theorem center_after (calls : List (Call α)) :
    (wheel.after calls).center = (calls.filterMap Call.hub?).getLast?.getD wheel.center := by
  induction calls generalizing wheel with
  | nil => rfl
  | cons call calls ih =>
    show ((wheel.perform call).after calls).center = _
    rw [ih, List.filterMap_cons]
    cases call with
    | turn time =>
      have hstays : (wheel.perform (.turn time)).center = wheel.center := wheel.center_turnTo time
      rw [hstays]
      rfl
    | move center =>
      show _ = (center :: calls.filterMap Call.hub?).getLast?.getD wheel.center
      rw [List.getLast?_cons]
      rfl

/-- A wheel of this shape, with as many spikes as the shape has places. -/
structure Shaped (arms armLength : UInt32) (speed : α) (wheel : Wheel α) : Prop where
  arms_eq : wheel.arms = arms
  armLength_eq : wheel.armLength = armLength
  speed_eq : wheel.speed = speed
  length_eq : wheel.spikes.length = arms.toNat * (armLength.toNat - 1) + 1

namespace Shaped

variable {arms armLength : UInt32} {speed : α} {wheel wheel' : Wheel α}
  (h : Shaped arms armLength speed wheel)

include h

theorem turnTo (time : α) : Shaped arms armLength speed (wheel.turnTo time) := by
  obtain ⟨spikes, hturn⟩ := wheel.exists_turnTo_eq time
  have hlength := (wheel.length_turnTo time).trans h.length_eq
  rw [hturn] at hlength ⊢
  exact ⟨h.arms_eq, h.armLength_eq, h.speed_eq, hlength⟩

theorem perform (call : Call α) : Shaped arms armLength speed (wheel.perform call) := by
  cases call with
  | turn time => exact h.turnTo time
  | move center =>
    exact ⟨h.arms_eq, h.armLength_eq, h.speed_eq, (List.length_map _).trans h.length_eq⟩

/-- A wheel keeps its shape and its spikes. -/
theorem after (calls : List (Call α)) : Shaped arms armLength speed (wheel.after calls) := by
  induction calls generalizing wheel with
  | nil => exact h
  | cons call calls ih => exact ih (h.perform call)

/-- **A turn.** One spike goes to the hub, and each of the others to its place on a spoke. -/
theorem turnTo_eq (time : α) :
    wheel.turnTo time = { wheel with
      spikes := ⟨wheel.center⟩ :: (wheel.places time).map Spike.mk } := by
  obtain ⟨hub, spikes, hspikes⟩ := List.exists_cons_of_length_eq_add_one h.length_eq
  have hlength : spikes.length = (wheel.places time).length := by
    have hall := h.length_eq
    rw [hspikes, List.length_cons] at hall
    rw [length_places, h.arms_eq, perArm, h.armLength_eq]
    exact Nat.succ_inj.mp hall
  rw [turnTo_cons wheel hspikes, overwrite_of_length_eq hlength]

/-- Wheels of the same shape that are turned about the same hub are the same. -/
theorem turnTo_congr (h' : Shaped arms armLength speed wheel')
    (hcenter : wheel'.center = wheel.center) (time : α) :
    wheel.turnTo time = wheel'.turnTo time := by
  have hsame : { wheel with spikes := wheel'.spikes } = wheel' := by
    rw [← hcenter, h.arms_eq, ← h'.arms_eq, h.armLength_eq, ← h'.armLength_eq, h.speed_eq,
      ← h'.speed_eq]
  have hplaces := wheel.places_with wheel'.spikes time
  rw [hsame] at hplaces
  rw [h.turnTo_eq, h'.turnTo_eq, hplaces, hcenter, h.arms_eq, h'.arms_eq, h.armLength_eq,
    h'.armLength_eq, h.speed_eq, h'.speed_eq]

end Shaped

@[simp] theorem center_ofShape (center : Point α) (arms armLength : UInt32) (speed : α) :
    (ofShape center arms armLength speed).center = center :=
  center_turnTo _ _

theorem shaped_ofShape (center : Point α) (arms armLength : UInt32) (speed : α) :
    Shaped arms armLength speed (ofShape center arms armLength speed) :=
  have hnew : Shaped arms armLength speed ⟨center, arms, armLength, speed, _⟩ :=
    ⟨rfl, rfl, rfl, List.length_replicate⟩
  hnew.turnTo 0.0

/-- **The layout.** However a wheel was turned and moved, its hub is where the last move put it, or
where the wheel was made if there was none, and it has one spike for its hub and one for each place
on its spokes. Turned to a time, it has the first of them at its hub, and on the spoke `k` the
spikes at the distances from one on, at an angle that grows by the same from spoke to spoke. It is
the same wheel as a new one with this hub that is turned to that time. -/
theorem laid_out_anew (center : Point α) (arms armLength : UInt32) (speed : α)
    (calls : List (Call α)) :
    let wheel := (ofShape center arms armLength speed).after calls
    wheel.center = (calls.filterMap Call.hub?).getLast?.getD center ∧
      wheel.spikes.length = arms.toNat * (max armLength.toNat 1 - 1) + 1 ∧
      ∀ time,
        (wheel.turnTo time).spikes[0]? = some ⟨wheel.center⟩ ∧
        (∀ k < arms.toNat, ∀ r, 1 ≤ r → r < armLength.toNat →
          (wheel.turnTo time).spikes[1 + k * (armLength.toNat - 1) + (r - 1)]? =
            some ⟨wheel.center +
              (Point.direction ((· + Scalar.turn / Scalar.ofNat (max arms.toNat 1))^[k]
                (time * speed))).scale (Scalar.ofNat r)⟩) ∧
        wheel.turnTo time = (ofShape wheel.center arms armLength speed).turnTo time := by
  intro wheel
  have hshaped : Shaped arms armLength speed wheel :=
    (shaped_ofShape center arms armLength speed).after calls
  have hcenter : wheel.center = (calls.filterMap Call.hub?).getLast?.getD center := by
    show ((ofShape center arms armLength speed).after calls).center = _
    rw [center_after, center_ofShape]
  have hlength : max armLength.toNat 1 - 1 = armLength.toNat - 1 := by omega
  refine ⟨hcenter, hlength ▸ hshaped.length_eq, fun time => ⟨?_, fun k hk r hr hlength => ?_, ?_⟩⟩
  · rw [hshaped.turnTo_eq]
    rfl
  · have harms := hshaped.arms_eq
    have hperArm : wheel.perArm = armLength.toNat - 1 := by
      rw [perArm, hshaped.armLength_eq]
    have hplace := wheel.getElem?_spokes (harms ▸ hk) (r := r - 1) (by omega) (time * wheel.speed)
    have hbehind : 1 + k * (armLength.toNat - 1) + (r - 1) =
        k * wheel.perArm + (r - 1) + 1 := by
      rw [hperArm]
      omega
    rw [hshaped.turnTo_eq, hbehind, List.getElem?_cons_succ, List.getElem?_map, places, hplace,
      Nat.sub_add_cancel hr, hshaped.speed_eq, armAngle, harms]
    rfl
  · have hfresh := shaped_ofShape wheel.center arms armLength speed
    exact hshaped.turnTo_congr hfresh (center_ofShape _ _ _ _) time

/-- The tip of the last spoke of a windmill with three sails, which was turned and moved. -/
theorem laid_out_anew_windmill :
    let windmill := (ofShape (⟨0.0, 0.0⟩ : Point Float) 3 3 1.0).after
      [.turn 2.0, .move ⟨1.0, -1.0⟩, .turn 0.5]
    windmill.center = ⟨1.0, -1.0⟩ ∧ windmill.spikes.length = 7 ∧
      (windmill.turnTo 4.0).spikes[0]? = some ⟨⟨1.0, -1.0⟩⟩ ∧
      (windmill.turnTo 4.0).spikes[6]? =
        some ⟨⟨1.0, -1.0⟩ +
          (Point.direction ((· + Scalar.turn / Scalar.ofNat 3)^[2] (4.0 * 1.0))).scale
            (Scalar.ofNat 2)⟩ := by
  intro windmill
  obtain ⟨hcenter, hlength, hturned⟩ := laid_out_anew (⟨0.0, 0.0⟩ : Point Float) 3 3 1.0
    [.turn 2.0, .move ⟨1.0, -1.0⟩, .turn 0.5]
  have hmoved : windmill.center = ⟨1.0, -1.0⟩ := hcenter
  obtain ⟨hhub, htip, -⟩ := hturned 4.0
  refine ⟨hmoved, hlength, ?_, ?_⟩
  · rw [← hmoved]
    exact hhub
  · rw [← hmoved]
    exact htip 2 (by decide) 2 (by decide) (by decide)

end Wheel

end RollingBall
