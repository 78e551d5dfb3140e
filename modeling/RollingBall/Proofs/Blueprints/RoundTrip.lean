import RollingBall.Proofs.Blueprints.Decimals
import RollingBall.Proofs.Blueprints.Records
import RollingBall.Proofs.Json.RoundTrip
import RollingBall.Proofs.Numbers.Range

/-!
# Blueprints are read back

Every blueprint is written as a text that stands for its value. Numbers are written as shortest
decimals, and if those are read back as the same doubles, so is the blueprint. A number that is not
finite is written as `null`, which is no number, so the blueprint is refused.

A decimal is read by scaling its significand, and both are rounded, so not every double is read back
from its shortest decimal. That one is so is what `Blueprint.ReadsBack` says.

## Main results

* `Blueprint.parse?_toText`
* `Blueprint.json_round_trip`
-/

namespace RollingBall

open Json Scalar.Ieee

/-! ## Numbers -/

namespace Json.Number

theorem le_ofDigitChars (ds : List Char) (n : Nat) : n ≤ Nat.ofDigitChars 10 ds n := by
  induction ds generalizing n with
  | nil => exact Nat.le_refl n
  | cons c ds ih =>
    rw [Nat.ofDigitChars_cons]
    exact Nat.le_trans (by omega) (ih _)

/-- Digits that write a number within the bound are all kept. -/
theorem absorb_of_lt {ds : List Char} {n : Nat} (h : Nat.ofDigitChars 10 ds n < significandBound) :
    absorb n ds = (Nat.ofDigitChars 10 ds n, []) := by
  induction ds generalizing n with
  | nil => rfl
  | cons c ds ih =>
    rw [Nat.ofDigitChars_cons] at h ⊢
    rw [absorb, if_pos (Nat.lt_of_le_of_lt (le_ofDigitChars ds _) h), ih h]

/-- A significand times a power of ten that is applied at once. -/
def scaleOnce {α : Type} [Scalar α] (a : α) (exponent : Int) : Option α :=
  if 0 ≤ exponent then
    let b := a * power exponent.natAbs
    if Scalar.isFinite b then some b else none
  else some (a / power exponent.natAbs)

theorem toScalar?_of_le {α : Type} [Scalar α] {n : Number}
    (h : n.significand.2.natAbs ≤ greatestPower) :
    (n.toScalar? : Option α) =
      (scaleOnce (Scalar.ofNat n.significand.1 : α) n.significand.2).map fun a =>
        if n.negative then -a else a := by
  unfold toScalar?
  dsimp only
  rw [applyPower, if_pos h]
  rfl

theorem significand_digits {n : Nat} (h : n < significandBound) :
    significand ⟨false, Decimal.digits n, [], []⟩ = (n, 0) := by
  have hdigits : Nat.ofDigitChars 10 (Decimal.digits n) 0 = n := Decimal.ofDigits_digits n
  unfold significand
  rw [absorb_of_lt (by rwa [hdigits]), hdigits]
  rfl

end Json.Number

namespace Blueprint

/-- The shortest decimal of the double is read back as the double. -/
def ReadsBack (x : Float) : Prop := (shortest x).toScalar? = some x

/-- The double is finite and read back. -/
def Restored (x : Float) : Prop := x.isFinite = true ∧ ReadsBack x

/-- A word is in the range of scalars. -/
theorem sound_ofWord (n : UInt32) (depth : Nat) : (ofWord n).sound Float depth := by
  have hword : n.toNat < 2 ^ 32 := n.toNat_lt
  have hvalue : value (Scalar.ofNat n.toNat : Float) = some ((n.toNat : ℝ) : EReal) :=
    value_ofNat Float (by omega)
  have hpower : value (Number.power 0 : Float) = some ((1 : ℕ) : ℝ) :=
    value_ofNat Float (by norm_num)
  have hproduct : value (Scalar.ofNat n.toNat * Number.power 0 : Float) =
      some ((n.toNat : ℝ) : EReal) := by
    have hbits : |(n.toNat : ℤ)| ≤ 2 ^ 53 := by
      rw [Nat.abs_cast]
      omega
    have hexact := round_dyadic (α := Float) n.toNat 0 hbits (Nat.zero_le _)
    rw [mul_of_reals hvalue hpower]
    simpa using hexact
  have hfinite : Scalar.isFinite (Scalar.ofNat n.toNat * Number.power 0 : Float) = true :=
    (Double.isFinite_iff _).mpr ⟨_, hproduct⟩
  show (Number.toScalar? ⟨false, Decimal.digits n.toNat, [], []⟩ : Option Float).isSome = true
  have hdigits := Number.significand_digits (Nat.lt_trans hword (by decide))
  rw [Number.toScalar?_of_le (by rw [hdigits]; exact Nat.zero_le _), hdigits]
  unfold Number.scaleOnce
  rw [if_pos (Int.le_refl 0)]
  dsimp only [Int.natAbs_zero]
  rw [if_pos hfinite]
  rfl

theorem toWord?_ofWord (n : UInt32) : (ofWord n).toWord? = some n := by
  have hword : n.toNat < UInt32.size := n.toNat_lt
  have hnatural : Number.toNat? ⟨false, Decimal.digits n.toNat, [], []⟩ = some n.toNat :=
    congrArg some (Decimal.ofDigits_digits n.toNat)
  unfold ofWord toWord?
  dsimp only
  rw [hnatural]
  dsimp only
  rw [if_pos hword, UInt32.ofNat_toNat]

section Floats

variable {x : Float}

theorem toScalar?_of_not_finite (h : x.isFinite = false) :
    (ofFloat x).toScalar? = (none : Option Float) := by
  unfold ofFloat
  rw [if_neg (by simp [h])]
  rfl

theorem Restored.toScalar? (h : Restored x) : (ofFloat x).toScalar? = some x := by
  unfold ofFloat
  rw [if_pos h.1]
  exact h.2

theorem Restored.sound (h : Restored x) (depth : Nat) : (ofFloat x).sound Float depth := by
  unfold ofFloat
  rw [if_pos h.1]
  show ((shortest x).toScalar? : Option Float).isSome = true
  rw [h.2, Option.isSome_some]

theorem grammatical_ofFloat (x : Float) : (ofFloat x).Grammatical := by
  unfold ofFloat
  split
  · exact .number (grammatical_shortest x)
  · exact .null

end Floats

end Blueprint

/-! ## The numbers of a blueprint -/

section NumbersOf

variable {α : Type}

/-- The numbers of an obstacle. -/
def ObstacleLayout.numbers : ObstacleLayout α → List α
  | spike x y => [x, y]
  | wheel x y _ _ speed => [x, y, speed]

/-- The numbers of a motion. -/
def MotionLayout.numbers : MotionLayout α → List α
  | still => []
  | bobbing amplitude frequency => [amplitude, frequency]

/-- The numbers of a blueprint. -/
def Blueprint.numbers (b : Blueprint α) : List α :=
  [b.start.x, b.start.y, b.goal.x, b.goal.y] ++ b.obstacles.flatMap ObstacleLayout.numbers ++
    b.motion.numbers ++ [b.targetTime]

end NumbersOf

namespace Blueprint

/-! ## Obstacles and motion -/

section Parts

variable {depth : Nat}

theorem ofJson?_spike (x y : Float) :
    ObstacleLayout.ofJson? depth (ofObstacle (.spike x y)) =
      if (ofObstacle (.spike x y)).sound Float (maxDepth - depth) then
        (ObstacleLayout.ofSpikeFields? [some (ofFloat x), some (ofFloat y)] :
          Option (ObstacleLayout Float))
      else none := by
  have htagged : (ofObstacle (.spike x y)).tagged? = some (ObstacleLayout.spikeTag,
      ofRecord ObstacleLayout.spikeFields [ofFloat x, ofFloat y]) :=
    tagged?_ofTagged _ (by decide)
  have hrecord : (ofRecord ObstacleLayout.spikeFields [ofFloat x, ofFloat y]).record?
      ObstacleLayout.spikeFields = some [some (ofFloat x), some (ofFloat y)] :=
    record?_ofRecord (by decide) rfl
  unfold ObstacleLayout.ofJson?
  rw [htagged]
  simp [hrecord]

theorem ofJson?_wheel (x y : Float) (arms armLength : UInt32) (speed : Float) :
    ObstacleLayout.ofJson? depth (ofObstacle (.wheel x y arms armLength speed)) =
      if (ofObstacle (.wheel x y arms armLength speed)).sound Float (maxDepth - depth) then
        (ObstacleLayout.ofWheelFields? [some (ofFloat x), some (ofFloat y), some (ofWord arms),
          some (ofWord armLength), some (ofFloat speed)] : Option (ObstacleLayout Float))
      else none := by
  have htagged : (ofObstacle (.wheel x y arms armLength speed)).tagged? =
      some (ObstacleLayout.wheelTag, ofRecord ObstacleLayout.wheelFields
        [ofFloat x, ofFloat y, ofWord arms, ofWord armLength, ofFloat speed]) :=
    tagged?_ofTagged _ (by decide)
  have hrecord : (ofRecord ObstacleLayout.wheelFields
      [ofFloat x, ofFloat y, ofWord arms, ofWord armLength, ofFloat speed]).record?
      ObstacleLayout.wheelFields = some [some (ofFloat x), some (ofFloat y), some (ofWord arms),
        some (ofWord armLength), some (ofFloat speed)] :=
    record?_ofRecord (by decide) rfl
  have htag : ObstacleLayout.wheelTag ≠ ObstacleLayout.spikeTag := by decide
  unfold ObstacleLayout.ofJson?
  rw [htagged]
  simp [hrecord, htag]

/-- **Obstacles** are read back with their numbers. -/
theorem ofJson?_ofObstacle (hdepth : 0 < maxDepth - depth) {o : ObstacleLayout Float}
    (h : ∀ x ∈ o.numbers, Restored x) : ObstacleLayout.ofJson? depth (ofObstacle o) = some o := by
  cases o with
  | spike x y =>
    obtain ⟨hx, hy⟩ : Restored x ∧ Restored y := by simpa [ObstacleLayout.numbers] using h
    have hsound : (ofObstacle (.spike x y)).sound Float (maxDepth - depth) :=
      sound_ofTagged _ hdepth (by simp [hx.sound, hy.sound])
    rw [ofJson?_spike, if_pos hsound]
    simp [ObstacleLayout.ofSpikeFields?, hx.toScalar?, hy.toScalar?]
  | wheel x y arms armLength speed =>
    obtain ⟨hx, hy, hspeed⟩ : Restored x ∧ Restored y ∧ Restored speed := by
      simpa [ObstacleLayout.numbers] using h
    have hsound : (ofObstacle (.wheel x y arms armLength speed)).sound Float (maxDepth - depth) :=
      sound_ofTagged _ hdepth (by simp [hx.sound, hy.sound, hspeed.sound, sound_ofWord])
    rw [ofJson?_wheel, if_pos hsound]
    simp [ObstacleLayout.ofWheelFields?, hx.toScalar?, hy.toScalar?, hspeed.toScalar?,
      toWord?_ofWord]

theorem ofJson?_ofObstacle_eq_none {o : ObstacleLayout Float} {x : Float} (hx : x ∈ o.numbers)
    (h : x.isFinite = false) :
    ObstacleLayout.ofJson? depth (ofObstacle o) = (none : Option (ObstacleLayout Float)) := by
  have hnone := toScalar?_of_not_finite h
  cases o with
  | spike x' y =>
    have hfields : (ObstacleLayout.ofSpikeFields? [some (ofFloat x'), some (ofFloat y)] :
        Option (ObstacleLayout Float)) = none := by
      obtain rfl | rfl : x = x' ∨ x = y := by simpa [ObstacleLayout.numbers] using hx
      · simp [ObstacleLayout.ofSpikeFields?, hnone]
      · simp [ObstacleLayout.ofSpikeFields?, hnone]
    rw [ofJson?_spike, hfields, ite_self]
  | wheel x' y arms armLength speed =>
    have hfields : (ObstacleLayout.ofWheelFields? [some (ofFloat x'), some (ofFloat y),
        some (ofWord arms), some (ofWord armLength), some (ofFloat speed)] :
        Option (ObstacleLayout Float)) = none := by
      obtain rfl | rfl | rfl : x = x' ∨ x = y ∨ x = speed := by
        simpa [ObstacleLayout.numbers] using hx
      · simp [ObstacleLayout.ofWheelFields?, hnone]
      · simp [ObstacleLayout.ofWheelFields?, hnone]
      · simp [ObstacleLayout.ofWheelFields?, hnone]
    rw [ofJson?_wheel, hfields, ite_self]

theorem ofJson?_bobbing (amplitude frequency : Float) :
    MotionLayout.ofJson? depth (ofMotion (.bobbing amplitude frequency)) =
      if (ofMotion (.bobbing amplitude frequency)).sound Float (maxDepth - depth) then
        (MotionLayout.ofBobbingFields? [some (ofFloat amplitude), some (ofFloat frequency)] :
          Option (MotionLayout Float))
      else none := by
  have htagged : (ofMotion (.bobbing amplitude frequency)).tagged? =
      some (MotionLayout.bobbingTag, ofRecord MotionLayout.bobbingFields
        [ofFloat amplitude, ofFloat frequency]) :=
    tagged?_ofTagged _ (by decide)
  have hrecord : (ofRecord MotionLayout.bobbingFields
      [ofFloat amplitude, ofFloat frequency]).record? MotionLayout.bobbingFields =
      some [some (ofFloat amplitude), some (ofFloat frequency)] :=
    record?_ofRecord (by decide) rfl
  have htag : MotionLayout.bobbingTag ≠ MotionLayout.stillTag := by decide
  unfold MotionLayout.ofJson?
  rw [htagged]
  simp [hrecord, htag]

theorem ofJson?_still (hdepth : 0 < maxDepth - depth) :
    MotionLayout.ofJson? depth (ofMotion .still) = some (.still : MotionLayout Float) := by
  have htagged : (ofMotion .still).tagged? = some (MotionLayout.stillTag, ofRecord [] []) :=
    tagged?_ofTagged _ (by decide)
  have hrecord : (ofRecord [] []).record? [] = some [] := record?_ofRecord .nil rfl
  have hsound : (ofMotion .still).sound Float (maxDepth - depth) :=
    sound_ofTagged _ hdepth (by simp)
  unfold MotionLayout.ofJson?
  rw [if_pos hsound, htagged]
  simp [hrecord]

/-- **Motion** is read back with its numbers. -/
theorem ofJson?_ofMotion (hdepth : 0 < maxDepth - depth) {motion : MotionLayout Float}
    (h : ∀ x ∈ motion.numbers, Restored x) :
    MotionLayout.ofJson? depth (ofMotion motion) = some motion := by
  cases motion with
  | still => exact ofJson?_still hdepth
  | bobbing amplitude frequency =>
    obtain ⟨hamplitude, hfrequency⟩ : Restored amplitude ∧ Restored frequency := by
      simpa [MotionLayout.numbers] using h
    have hsound : (ofMotion (.bobbing amplitude frequency)).sound Float (maxDepth - depth) :=
      sound_ofTagged _ hdepth (by simp [hamplitude.sound, hfrequency.sound])
    rw [ofJson?_bobbing, if_pos hsound]
    simp [MotionLayout.ofBobbingFields?, hamplitude.toScalar?, hfrequency.toScalar?]

theorem ofJson?_ofMotion_eq_none {motion : MotionLayout Float} {x : Float}
    (hx : x ∈ motion.numbers) (h : x.isFinite = false) :
    MotionLayout.ofJson? depth (ofMotion motion) = (none : Option (MotionLayout Float)) := by
  have hnone := toScalar?_of_not_finite h
  cases motion with
  | still => exact absurd hx (by simp [MotionLayout.numbers])
  | bobbing amplitude frequency =>
    have hfields : (MotionLayout.ofBobbingFields? [some (ofFloat amplitude),
        some (ofFloat frequency)] : Option (MotionLayout Float)) = none := by
      obtain rfl | rfl : x = amplitude ∨ x = frequency := by
        simpa [MotionLayout.numbers] using hx
      · simp [MotionLayout.ofBobbingFields?, hnone]
      · simp [MotionLayout.ofBobbingFields?, hnone]
    rw [ofJson?_bobbing, hfields, ite_self]

end Parts

/-! ## Whole blueprints -/

/-- What is read of a blueprint that was written, part by part. -/
theorem ofJson?_toJson (b : Blueprint Float) :
    (ofJson? 0 b.toJson : Option (Blueprint Float)) = (do
      let start ← (ofPoint b.start).toPoint?
      let goal ← (ofPoint b.goal).toPoint?
      let obstacles ← (b.obstacles.map ofObstacle).mapM (ObstacleLayout.ofJson? 2)
      let motion ← MotionLayout.ofJson? 1 (ofMotion b.motion)
      let targetTime ← (ofFloat b.targetTime).toScalar?
      pure { b with start, goal, obstacles, motion, targetTime }) := by
  have hrecord : b.toJson.record? fields = some [some (ofWord b.id), some (ofString b.name),
      some (ofPoint b.start), some (ofPoint b.goal), some (.array (b.obstacles.map ofObstacle)),
      some (ofMotion b.motion), some (ofWord b.targetEquations), some (ofFloat b.targetTime)] :=
    record?_ofRecord (by decide) rfl
  unfold ofJson?
  rw [hrecord]
  simp [toWord?_ofWord, obstaclesOf?, motionOf?, toList?]

theorem toPoint?_ofPoint {p : Point Float} (hx : Restored p.x) (hy : Restored p.y) :
    (ofPoint p).toPoint? = some p := by
  simp [ofPoint, toPoint?, hx.toScalar?, hy.toScalar?]

theorem toPoint?_ofPoint_eq_none {p : Point Float} {x : Float} (hx : x = p.x ∨ x = p.y)
    (h : x.isFinite = false) : (ofPoint p).toPoint? = (none : Option (Point Float)) := by
  have hnone := toScalar?_of_not_finite h
  obtain rfl | rfl := hx
  · simp [ofPoint, toPoint?, hnone]
  · simp [ofPoint, toPoint?, hnone]

theorem ofJson?_toJson_of_restored {b : Blueprint Float} (h : ∀ x ∈ b.numbers, Restored x) :
    ofJson? 0 b.toJson = some b := by
  have hstart : (ofPoint b.start).toPoint? = some b.start :=
    toPoint?_ofPoint (h _ (by simp [numbers])) (h _ (by simp [numbers]))
  have hgoal : (ofPoint b.goal).toPoint? = some b.goal :=
    toPoint?_ofPoint (h _ (by simp [numbers])) (h _ (by simp [numbers]))
  have hobstacles : (b.obstacles.map ofObstacle).mapM (ObstacleLayout.ofJson? 2) =
      some b.obstacles := by
    refine mapM_of_forall₂ ?_
    rw [List.forall₂_map_left_iff, List.forall₂_same]
    intro o ho
    refine ofJson?_ofObstacle (by decide) fun x hx => h x ?_
    have hmem := List.mem_flatMap.mpr ⟨o, ho, hx⟩
    simp [numbers, hmem]
  have hmotion : MotionLayout.ofJson? 1 (ofMotion b.motion) = some b.motion :=
    ofJson?_ofMotion (by decide) fun x hx => h x (by simp [numbers, hx])
  have htime : Restored b.targetTime := h _ (by simp [numbers])
  rw [ofJson?_toJson, hstart, hgoal, hobstacles, hmotion, htime.toScalar?]
  rfl

theorem ofJson?_toJson_eq_none {b : Blueprint Float} {x : Float} (hx : x ∈ b.numbers)
    (h : x.isFinite = false) : ofJson? 0 b.toJson = (none : Option (Blueprint Float)) := by
  rw [ofJson?_toJson]
  unfold numbers at hx
  simp only [List.mem_append, List.mem_cons, List.not_mem_nil, or_false, List.mem_flatMap] at hx
  obtain (((rfl | rfl | rfl | rfl) | ⟨o, ho, hx⟩) | hx) | rfl := hx
  · simp [toPoint?_ofPoint_eq_none (p := b.start) (.inl rfl) h]
  · simp [toPoint?_ofPoint_eq_none (p := b.start) (.inr rfl) h]
  · simp [toPoint?_ofPoint_eq_none (p := b.goal) (.inl rfl) h]
  · simp [toPoint?_ofPoint_eq_none (p := b.goal) (.inr rfl) h]
  · have hnone : (b.obstacles.map ofObstacle).mapM (ObstacleLayout.ofJson? 2) =
        (none : Option (List (ObstacleLayout Float))) :=
      mapM_eq_none_of_mem (List.mem_map_of_mem ho) (ofJson?_ofObstacle_eq_none hx h)
    simp [hnone]
  · simp [ofJson?_ofMotion_eq_none hx h]
  · simp [toScalar?_of_not_finite h]

/-! ### The text -/

theorem grammatical_ofString (s : String) : (Text.ofString s).Grammatical := by
  intro code hcode
  obtain ⟨c, -, hc⟩ := List.mem_map.mp hcode
  exact absurd hc (by simp)

theorem grammatical_ofRecord {names : List String} {values : List Json}
    (h : ∀ v ∈ values, v.Grammatical) : (ofRecord names values).Grammatical := by
  refine .object (fun m hm => ?_) fun m hm => h m.2 (value_of_mem_membersOf hm)
  obtain ⟨name, -, heq⟩ := exists_of_mem_membersOf hm
  rw [heq]
  exact grammatical_ofString name

theorem grammatical_ofWord (n : UInt32) : (ofWord n).Grammatical := .number (grammatical_digits _)

theorem grammatical_ofPoint (p : Point Float) : (ofPoint p).Grammatical :=
  .array (by simp [grammatical_ofFloat])

theorem grammatical_ofObstacle (o : ObstacleLayout Float) : (ofObstacle o).Grammatical := by
  have htag : ∀ tag, (ofString tag).Grammatical := fun tag => .string (grammatical_ofString tag)
  cases o with
  | spike x y => exact grammatical_ofRecord (by simp [htag, grammatical_ofFloat])
  | wheel x y arms armLength speed =>
    exact grammatical_ofRecord (by simp [htag, grammatical_ofFloat, grammatical_ofWord])

theorem grammatical_ofMotion (motion : MotionLayout Float) : (ofMotion motion).Grammatical := by
  have htag : ∀ tag, (ofString tag).Grammatical := fun tag => .string (grammatical_ofString tag)
  cases motion with
  | still => exact grammatical_ofRecord (by simp [htag])
  | bobbing amplitude frequency =>
    exact grammatical_ofRecord (by simp [htag, grammatical_ofFloat])

theorem grammatical_toJson (b : Blueprint Float) : b.toJson.Grammatical := by
  have hname : (ofString b.name).Grammatical := .string (grammatical_ofString b.name)
  have hobstacles : (Json.array (b.obstacles.map ofObstacle)).Grammatical := by
    refine .array fun v hv => ?_
    obtain ⟨o, -, rfl⟩ := List.mem_map.mp hv
    exact grammatical_ofObstacle o
  exact grammatical_ofRecord (by
    simp [hname, hobstacles, grammatical_ofWord, grammatical_ofPoint, grammatical_ofMotion,
      grammatical_ofFloat])

/-- The text of a blueprint stands for its value. -/
theorem parse?_toText (b : Blueprint Float) : Json.parse? b.toText.toList = some b.toJson := by
  unfold toText
  rw [String.toList_ofList, Json.parse?_render b.grammatical_toJson]

theorem fromText?_toText (b : Blueprint Float) :
    (fromText? b.toText : Option (Blueprint Float)) = ofJson? 0 b.toJson := by
  unfold fromText?
  rw [parse?_toText, Option.bind_some]

/-- **Round trip.** Every blueprint is written as a text that stands for its value. If its numbers
are finite and each is read back from its shortest decimal, the blueprint is read back from its
text. If one of them is not finite, the text is refused. -/
theorem json_round_trip (b : Blueprint Float) :
    Json.parse? b.toText.toList = some b.toJson ∧
    ((∀ x ∈ b.numbers, x.isFinite = true) → (∀ x ∈ b.numbers, ReadsBack x) →
      fromText? b.toText = some b) ∧
    ((∃ x ∈ b.numbers, x.isFinite = false) →
      fromText? b.toText = (none : Option (Blueprint Float))) := by
  refine ⟨b.parse?_toText, fun hfinite hback => ?_, fun ⟨x, hx, hinfinite⟩ => ?_⟩
  · rw [fromText?_toText]
    exact ofJson?_toJson_of_restored fun x hx => ⟨hfinite x hx, hback x hx⟩
  · rw [fromText?_toText]
    exact ofJson?_toJson_eq_none hx hinfinite

/-- A blueprint with every kind of part and a name that needs escapes. -/
def swing : Blueprint Float where
  id := 7
  name := "A \"swing\"\n\\o/ \t"
  start := ⟨-6.25, 0.0⟩
  goal := ⟨6.0, 0.1⟩
  obstacles := [.spike 1.5 (-0.0), .wheel 0.0 2.0 3 4 1e-7]
  motion := .bobbing 1.75 1e17
  targetEquations := 2
  targetTime := 8.0

theorem json_round_trip_swing :
    fromText? swing.toText = some swing ∧
      fromText? { swing with targetTime := 1.0 / 0.0 }.toText =
        (none : Option (Blueprint Float)) := by
  have hfinite : ∀ x ∈ swing.numbers, x.isFinite = true := by decide +kernel
  have hsmall : ∀ x ∈ swing.numbers, (shortest x).significand.2.natAbs ≤ Number.greatestPower := by
    decide +kernel
  have hback : ∀ x ∈ swing.numbers, ReadsBack x := by
    intro x hx
    unfold ReadsBack
    rw [Number.toScalar?_of_le (hsmall x hx)]
    revert x
    decide +kernel
  obtain ⟨-, hback', -⟩ := json_round_trip swing
  obtain ⟨-, -, hrefused⟩ := json_round_trip { swing with targetTime := 1.0 / 0.0 }
  exact ⟨hback' hfinite hback, hrefused ⟨1.0 / 0.0, by simp [numbers], by decide +kernel⟩⟩

end Blueprint

end RollingBall
