import RollingBall.Proofs.Motion.Move
import RollingBall.Proofs.Numbers.Ieee

/-!
# Where the ball rolls

A stride is never undefined and at most a tick at full speed, and it is finite if the ball is
infinitely far to the right, where every curve is flat or undefined. So the coordinate of the ball
stays defined (`Curve.isNaN_add_stride`).
-/

namespace RollingBall

open Scalar Scalar.Ieee

variable {α : Type} [Scalar α] [Ieee α]

/-! ## The constants -/

theorem value_zero : value (0.0 : α) = some 0 := by
  have h := value_literal α (m := 0) (e := 1) (n := 0) (k := 0) (by norm_num) (by norm_num)
    (by norm_num)
  simpa using h

theorem value_one : value (1.0 : α) = some ((1 : ℝ) : EReal) := by
  have h := value_literal α (m := 10) (e := 1) (n := 1) (k := 0) (by norm_num) (by norm_num)
    (by norm_num)
  simpa using h

theorem value_half : value (0.5 : α) = some ((1 / 2 : ℝ) : EReal) := by
  have h := value_literal α (m := 5) (e := 1) (n := 1) (k := 1) (by norm_num) (by norm_num)
    (by norm_num)
  simpa using h

namespace Rules

theorem value_ballSpeed : value (ballSpeed : α) = some ((3 / 2 : ℝ) : EReal) := by
  have h := value_literal α (m := 15) (e := 1) (n := 3) (k := 1) (by norm_num) (by norm_num)
    (by norm_num)
  unfold ballSpeed
  simpa using h

theorem value_tickTime : ∃ d : ℝ, 0 < d ∧ d ≤ 1 ∧ value (tickTime : α) = some (d : EReal) := by
  have hsixty : value (Scalar.ofNat ticksPerSecond : α) = some ((60 : ℝ) : EReal) :=
    value_ofNat α (n := 60) (by norm_num)
  obtain ⟨d, hlow, hhigh, hround⟩ := exists_round_eq α (r := 1 / 60) (n := 1) (k := 6) (m := 1)
    (l := 0) (by norm_num) (by norm_num) (by norm_num) (by norm_num) (by norm_num) (by norm_num)
  refine ⟨d, lt_of_lt_of_le (by norm_num) hlow, by simpa using hhigh, ?_⟩
  unfold tickTime
  rw [value_div _ _ hsixty (by norm_num), value_one, Option.map_some, ← EReal.coe_div, hround]

theorem value_slopeWidth :
    ∃ w : ℝ, 0 < w ∧ w ≤ 1 ∧ value (slopeWidth : α) = some (w : EReal) := by
  obtain ⟨w, hlow, hhigh, hround⟩ := exists_round_eq α (r := 1 / 100) (n := 1) (k := 7) (m := 1)
    (l := 0) (by norm_num) (by norm_num) (by norm_num) (by norm_num) (by norm_num) (by norm_num)
  refine ⟨w, lt_of_lt_of_le (by norm_num) hlow, by simpa using hhigh, ?_⟩
  unfold slopeWidth
  rw [value_ofScientific, if_pos rfl, ← hround]
  norm_num

/-- How far the probes of a slope are from the ball. -/
theorem value_slopeReach : ∃ h : ℝ, value (slopeWidth / 2.0 : α) = some (h : EReal) := by
  obtain ⟨w, hpositive, hone, hw⟩ := value_slopeWidth (α := α)
  have htwo : value (2.0 : α) = some ((2 : ℝ) : EReal) := by
    have h := value_literal α (m := 20) (e := 1) (n := 2) (k := 0) (by norm_num) (by norm_num)
      (by norm_num)
    simpa using h
  obtain ⟨h, -, -, hround⟩ := exists_round_unit α (r := w / 2) (by linarith) (by linarith)
  refine ⟨h, ?_⟩
  rw [value_div _ _ htwo (by norm_num), hw, Option.map_some, ← EReal.coe_div, hround]

end Rules

/-! ## Strides -/

/-- What a slope takes off the speed is defined and not negative, whatever the slope. -/
theorem value_larger_zero (m : α) : ∃ v : EReal, 0 ≤ v ∧ value (larger m 0.0) = some v := by
  unfold larger
  by_cases hm : isNaN m = true ∨ m ≤ 0.0
  · refine ⟨0, le_refl 0, ?_⟩
    rw [if_pos (by simpa using hm)]
    exact value_zero
  · rw [if_neg (by simpa using hm)]
    obtain ⟨hdefined, hpositive⟩ := not_or.mp hm
    obtain ⟨v, hv⟩ := not_isNaN_iff.mp (Bool.eq_false_iff.mpr hdefined)
    have hlt : ¬ v ≤ 0 := by
      intro hle
      exact hpositive ((le_iff _ _).mpr ⟨v, hv, 0, value_zero, hle⟩)
    exact ⟨v, (not_le.mp hlt).le, hv⟩

namespace Curve

/-- The speed left by what a slope takes off it, for one tick. -/
theorem value_slowed {s : α} {v : EReal} (hs : value s = some v) :
    ∃ d : ℝ, 0 < d ∧ d ≤ 1 ∧ value ((Rules.ballSpeed - 0.5 * s) * Rules.tickTime) =
      some (round α (round α ((3 / 2 : ℝ) - round α ((1 / 2 : ℝ) * v)) * d)) := by
  obtain ⟨d, hpositive, hone, hd⟩ := Rules.value_tickTime (α := α)
  refine ⟨d, hpositive, hone, ?_⟩
  have hloss := mul_of_real_left (by norm_num) value_half hs
  have hspeed := sub_of_real_left Rules.value_ballSpeed hloss
  exact mul_of_real_right hpositive.ne' hspeed hd

theorem round_ballSpeed : round α ((3 / 2 : ℝ) : EReal) = ((3 / 2 : ℝ) : EReal) := by
  have h := round_dyadic (α := α) 3 1 (by norm_num) (by norm_num)
  simpa using h

theorem round_le_ballSpeed {v : EReal} (h : v ≤ ((3 / 2 : ℝ) : EReal)) :
    round α v ≤ ((3 / 2 : ℝ) : EReal) :=
  (round_mono h).trans round_ballSpeed.le

/-- The way at full speed for at most a second is finite. -/
theorem exists_round_ballSpeed_mul {d : ℝ} (hd : 0 ≤ d) (hone : d ≤ 1) :
    ∃ w : ℝ, round α (((3 / 2 : ℝ) : EReal) * d) = (w : EReal) := by
  have hlow : ((0 : ℤ) / 2 ^ 0 : ℝ) ≤ 3 / 2 * d := by
    norm_num
    exact hd
  have hhigh : 3 / 2 * d ≤ ((3 : ℤ) / 2 ^ 1 : ℝ) := by
    norm_num
    linarith
  obtain ⟨w, -, -, hround⟩ := exists_round_eq α hlow hhigh (by norm_num) (by norm_num)
    (by norm_num) (by norm_num)
  exact ⟨w, by rw [← EReal.coe_mul, hround]⟩

/-- At most the full speed for at most a second. -/
theorem mul_le_ballSpeed {v : EReal} (h : v ≤ ((3 / 2 : ℝ) : EReal)) {d : ℝ} (hd : 0 ≤ d)
    (hone : d ≤ 1) : v * d ≤ ((3 / 2 : ℝ) : EReal) := by
  calc v * d ≤ ((3 / 2 : ℝ) : EReal) * d :=
        mul_le_mul_of_nonneg_right h (EReal.coe_nonneg.mpr hd)
    _ ≤ ((3 / 2 : ℝ) : EReal) := by
        rw [← EReal.coe_mul, EReal.coe_le_coe_iff]
        linarith

theorem value_stride_le (time x : α) (f : Option (Curve α)) :
    ∃ w : EReal, w ≤ ((3 / 2 : ℝ) : EReal) ∧ value (stride time x f) = some w := by
  cases f with
  | none =>
    obtain ⟨d, hpositive, hone, hd⟩ := Rules.value_tickTime (α := α)
    refine ⟨_, ?_, mul_of_real_right hpositive.ne' Rules.value_ballSpeed hd⟩
    exact round_le_ballSpeed (mul_le_ballSpeed le_rfl hpositive.le hone)
  | some f =>
    obtain ⟨v, hv, hs⟩ := value_larger_zero (f.slopeAt time x)
    obtain ⟨d, hpositive, hone, hstride⟩ := value_slowed hs
    refine ⟨_, ?_, hstride⟩
    have hloss : 0 ≤ round α ((1 / 2 : ℝ) * v) := by
      rw [← round_zero α]
      refine round_mono (mul_nonneg ?_ hv)
      exact EReal.coe_nonneg.mpr (by norm_num)
    have hspeed : ((3 / 2 : ℝ) - round α ((1 / 2 : ℝ) * v) : EReal) ≤ ((3 / 2 : ℝ) : EReal) :=
      (EReal.sub_le_sub le_rfl hloss).trans (sub_zero _).le
    exact round_le_ballSpeed (mul_le_ballSpeed (round_le_ballSpeed hspeed) hpositive.le hone)

/-- Infinitely far to the right both probes of a slope are at the ball. -/
theorem slopeAt_of_infinite (f : Curve α) (time : α) {x : α} (hx : value x = some ⊤) :
    value (f.slopeAt time x) = none ∨ value (f.slopeAt time x) = some 0 := by
  obtain ⟨h, hh⟩ := Rules.value_slopeReach (α := α)
  have hright : x + Rules.slopeWidth / 2.0 = x := by
    refine eq_of_infinite (x := ⊤) ?_ hx (.inl rfl)
    rw [add_of_real_right hx hh, EReal.top_add_coe, round_top]
  have hleft : x - Rules.slopeWidth / 2.0 = x := by
    refine eq_of_infinite (x := ⊤) ?_ hx (.inl rfl)
    rw [sub_of_real_right hx hh, EReal.top_sub_coe, round_top]
  obtain ⟨w, hpositive, -, hw⟩ := Rules.value_slopeWidth (α := α)
  unfold slopeAt
  rw [hright, hleft, value_div _ _ hw hpositive.ne']
  -- Both heights are the same number, whose difference with itself is zero or undefined.
  rcases sub_self_eq (a := f.eval ⟨time, x⟩) with hnone | hzero
  · exact .inl (by rw [hnone, Option.map_none])
  · refine .inr ?_
    rw [hzero, Option.map_some, EReal.zero_div, round_zero]

theorem value_stride_of_infinite (time : α) {x : α} (hx : value x = some ⊤)
    (f : Option (Curve α)) : ∃ w : ℝ, value (stride time x f) = some (w : EReal) := by
  cases f with
  | none =>
    obtain ⟨d, hpositive, hone, hd⟩ := Rules.value_tickTime (α := α)
    obtain ⟨w, hw⟩ := exists_round_ballSpeed_mul (α := α) hpositive.le hone
    refine ⟨w, ?_⟩
    rw [← hw]
    exact mul_of_real_right hpositive.ne' Rules.value_ballSpeed hd
  | some f =>
    have hflat : value (larger (f.slopeAt time x) 0.0) = some 0 := by
      unfold larger
      rw [if_pos, value_zero]
      rcases f.slopeAt_of_infinite time hx with hnone | hzero
      · simp [isNaN_iff.mpr hnone]
      · have hle : f.slopeAt time x ≤ 0.0 := (le_iff _ _).mpr ⟨0, hzero, 0, value_zero, le_rfl⟩
        simp [hle]
    obtain ⟨d, hpositive, hone, hstride⟩ := value_slowed hflat
    obtain ⟨w, hw⟩ := exists_round_ballSpeed_mul (α := α) hpositive.le hone
    refine ⟨w, ?_⟩
    rw [mul_zero, round_zero, sub_zero, round_ballSpeed, hw] at hstride
    exact hstride

/-- **Rolling.** The coordinate of a ball stays defined, even at an infinity. -/
theorem isNaN_add_stride (time : α) {x : α} (hx : isNaN x = false) (f : Option (Curve α)) :
    isNaN (x + stride time x f) = false := by
  obtain ⟨v, hv⟩ := not_isNaN_iff.mp hx
  -- Only opposite infinities have no sum. A stride is never infinite to the right, and from there
  -- it is finite.
  by_cases htop : v = ⊤
  · subst htop
    obtain ⟨w, hw⟩ := value_stride_of_infinite time hv f
    exact isNaN_of_value (add_of_real_right hv hw)
  · obtain ⟨w, hle, hw⟩ := value_stride_le time x f
    exact isNaN_of_value (add_of_ne_top hv hw htop (ne_top_of_le_ne_top (EReal.coe_ne_top _) hle))

end Curve

end RollingBall
