import RollingBall.Proofs.Numbers.Exact
import RollingBall.Proofs.Motion.Falling
import RollingBall.Proofs.Motion.Highest

/-!
# How far one move goes

In exact arithmetic with infinities, a move rolls the ball by a tick at full speed at most
(`Simulator.x_moveBall_le`), and it either lets the ball fall by a bounded length or puts it on a
graph, higher than that (`Simulator.height_moveBall_ge`). The length of a fall grows with the time
since the last contact, within limits (`Simulator.fall`).
-/

namespace RollingBall

open Scalar Scalar.Ieee

variable {α : Type} [Scalar α] [Ieee α] [Exact α]

/-! ## The constants -/

namespace Rules

theorem value_ballRadius_exact : value (ballRadius : α) = some ((2 / 5 : ℝ) : EReal) :=
  Exact.value_decimal (m := 4) (e := 1) (by norm_num)

theorem value_gravity : value (gravity : α) = some ((67 / 100 : ℝ) : EReal) :=
  Exact.value_decimal (m := 67) (e := 2) (by norm_num)

theorem value_minFallTime : value (minFallTime : α) = some ((1 / 10 : ℝ) : EReal) :=
  Exact.value_decimal (m := 1) (e := 1) (by norm_num)

theorem value_maxFallTime : value (maxFallTime : α) = some ((1 / 2 : ℝ) : EReal) :=
  Exact.value_decimal (m := 5) (e := 1) (by norm_num)

theorem value_tickTime_exact : value (tickTime : α) = some ((1 / 60 : ℝ) : EReal) := by
  have hsixty : value (Scalar.ofNat ticksPerSecond : α) = some ((60 : ℝ) : EReal) :=
    value_ofNat α (n := 60) (by norm_num)
  exact Exact.value_div value_one hsixty (by norm_num)

end Rules

/-! ## Rolling -/

theorem value_fullStride :
    value (Rules.ballSpeed * Rules.tickTime : α) = some ((1 / 40 : ℝ) : EReal) := by
  rw [Exact.value_mul Rules.value_ballSpeed Rules.value_tickTime_exact]
  norm_num

namespace Curve

/-- A stride is at most a tick at full speed. -/
theorem value_stride_le_exact (time x : α) (f : Option (Curve α)) :
    ∃ w : EReal, w ≤ ((1 / 40 : ℝ) : EReal) ∧ value (stride time x f) = some w := by
  cases f with
  | none => exact ⟨_, le_rfl, value_fullStride⟩
  | some f =>
    obtain ⟨v, hv, hs⟩ := value_larger_zero (f.slopeAt time x)
    have hloss := mul_of_real_left (by norm_num) value_half hs
    have hspeed := sub_of_real_left Rules.value_ballSpeed hloss
    have hstride := mul_of_real_right (by norm_num) hspeed Rules.value_tickTime_exact
    simp only [Exact.round_eq] at hstride
    refine ⟨_, ?_, hstride⟩
    have hnonneg : (0 : EReal) ≤ ((1 / 2 : ℝ) : EReal) * v :=
      mul_nonneg (EReal.coe_nonneg.mpr (by norm_num)) hv
    have hslow : ((3 / 2 : ℝ) : EReal) - ((1 / 2 : ℝ) : EReal) * v ≤ ((3 / 2 : ℝ) : EReal) :=
      (EReal.sub_le_sub le_rfl hnonneg).trans (sub_zero _).le
    calc (((3 / 2 : ℝ) : EReal) - ((1 / 2 : ℝ) : EReal) * v) * ((1 / 60 : ℝ) : EReal)
        ≤ ((3 / 2 : ℝ) : EReal) * ((1 / 60 : ℝ) : EReal) :=
          mul_le_mul_of_nonneg_right hslow (EReal.coe_nonneg.mpr (by norm_num))
      _ = ((1 / 40 : ℝ) : EReal) := by
          rw [← EReal.coe_mul]
          norm_num

end Curve

namespace Simulator

variable {ball : Ball α} {time : α} (solver : ContactSolver α) (graphs : GraphStore α)

/-- **Rolling.** A move takes the ball to the right by a tick at full speed at most. -/
theorem x_moveBall_le (hx : isNaN ball.pos.x = false) :
    (moveBall solver graphs ball time).pos.x ≤
      ball.pos.x + Rules.ballSpeed * Rules.tickTime := by
  obtain ⟨x, hx⟩ := not_isNaN_iff.mp hx
  have hfull := Exact.value_add hx value_fullStride
  rw [moveBall_eq]
  dsimp only
  rw [le_iff]
  -- From an infinity to the right a stride is finite, from elsewhere its end is not one.
  by_cases htop : x = ⊤
  · subst htop
    obtain ⟨w, hw⟩ := Curve.value_stride_of_infinite time hx (ball.support.bind graphs.curve?)
    refine ⟨_, Exact.value_add hx hw, _, hfull, ?_⟩
    rw [EReal.top_add_coe, EReal.top_add_coe]
  · obtain ⟨w, hle, hw⟩ := Curve.value_stride_le_exact time ball.pos.x
      (ball.support.bind graphs.curve?)
    have hsum := add_of_ne_top hx hw htop (ne_top_of_le_ne_top (EReal.coe_ne_top _) hle)
    rw [Exact.round_eq] at hsum
    exact ⟨_, hsum, _, hfull, add_le_add le_rfl hle⟩

/-! ## Falling -/

/-- The length of a fall in one tick, from the times of the tick and of the last contact. -/
noncomputable def fall (t c : ℝ) : ℝ := max 0.1 (min 0.5 (t - c)) * 0.67

theorem fall_eq (t c : ℝ) : fall t c = max (1 / 10) (min (1 / 2) (t - c)) * (67 / 100) := by
  unfold fall
  norm_num

theorem fall_ge (t c : ℝ) : 67 / 1000 ≤ fall t c := by
  have h := le_max_left (1 / 10) (min (1 / 2) (t - c))
  rw [fall_eq]
  linarith

theorem fall_le (t c : ℝ) : fall t c ≤ 67 / 200 := by
  have h : max (1 / 10) (min (1 / 2) (t - c)) ≤ 1 / 2 := max_le (by norm_num) (min_le_left _ _)
  rw [fall_eq]
  linarith

/-- Half a second after the last contact a ball falls as far as it can. -/
theorem fall_eq_of_long {t c : ℝ} (h : 1 / 2 ≤ t - c) : fall t c = 67 / 200 := by
  rw [fall_eq, min_eq_left h]
  norm_num

theorem value_longestFall :
    value (Rules.maxFallTime * Rules.gravity : α) = some ((67 / 200 : ℝ) : EReal) := by
  rw [Exact.value_mul Rules.value_maxFallTime Rules.value_gravity]
  norm_num

theorem value_shortestFall :
    value (Rules.minFallTime * Rules.gravity : α) = some ((67 / 1000 : ℝ) : EReal) := by
  rw [Exact.value_mul Rules.value_minFallTime Rules.value_gravity]
  norm_num

omit [Exact α] in
theorem value_clamp_exact {low high a : α} {l h x : ℝ} (hlow : value low = some (l : EReal))
    (hhigh : value high = some (h : EReal)) (ha : value a = some (x : EReal)) (hle : l ≤ h) :
    value (clamp low high a) = some ((max l (min h x) : ℝ) : EReal) := by
  have hbelow : a < low ↔ x < l := by
    rw [lt_iff, ha, hlow]
    simp
  have habove : high < a ↔ h < x := by
    rw [lt_iff, ha, hhigh]
    simp
  unfold clamp
  by_cases hlt : x < l
  · rw [if_pos (hbelow.mpr hlt), hlow, min_eq_right (hlt.le.trans hle), max_eq_left hlt.le]
  · rw [if_neg (mt hbelow.mp hlt)]
    by_cases hgt : h < x
    · rw [if_pos (habove.mpr hgt), hhigh, min_eq_left hgt.le, max_eq_right hle]
    · rw [if_neg (mt habove.mp hgt), ha, min_eq_right (not_lt.mp hgt), max_eq_right (not_lt.mp hlt)]

theorem value_drop_exact {t c : ℝ} (ht : value time = some (t : EReal))
    (hc : value ball.lastContact = some (c : EReal)) :
    value (drop ball time) = some ((fall t c : ℝ) : EReal) := by
  have hsince := Exact.value_sub ht hc
  rw [← EReal.coe_sub] at hsince
  have hclamp := value_clamp_exact Rules.value_minFallTime Rules.value_maxFallTime hsince
    (by norm_num)
  rw [fall_eq]
  exact Exact.value_mul hclamp Rules.value_gravity

/-- The lowest point of a ball that falls, if the height of the ball is defined. -/
theorem value_falling {y : EReal} {t c : ℝ} (hy : value ball.pos.y = some y)
    (ht : value time = some (t : EReal)) (hc : value ball.lastContact = some (c : EReal)) :
    value (falling ball time).height = some (y - fall t c - (2 / 5 : ℝ)) :=
  Exact.value_sub (Exact.value_sub hy (value_drop_exact ht hc)) Rules.value_ballRadius_exact

/-! ## Landing -/

omit [Exact α] in
/-- The footing stays, or some graph takes the ball to a greater height. -/
theorem landing_cases (time : α) (pos : Point α) (graphs : List (Graph α))
    (footing : Footing α) :
    landing solver time pos graphs footing = footing ∨
      ∃ graph ∈ graphs, footing.height < (landing solver time pos graphs footing).height ∧
        (landing solver time pos graphs footing).support = some graph.id ∧
        (landing solver time pos graphs footing).lastContact = time := by
  have hlands := lands_landing solver time pos graphs footing
  generalize landing solver time pos graphs footing = landed at hlands ⊢
  cases hlands with
  | falls => exact .inl rfl
  | rests before best after hsplit hhigher =>
    have hmem : best ∈ holders solver time pos graphs := hsplit ▸ List.mem_append_cons_self
    exact .inr ⟨best, List.mem_of_mem_filter hmem, hhigher, rfl, rfl⟩

omit [Exact α] in
/-- **Support.** After a move nothing holds the ball and its last contact is the old one, or one of
the graphs holds it and its last contact is now. -/
theorem support_moveBall (ball : Ball α) (time : α) :
    (moveBall solver graphs ball time).support = none ∧
        (moveBall solver graphs ball time).lastContact = ball.lastContact ∨
      (∃ graph ∈ graphs.graphs, (moveBall solver graphs ball time).support = some graph.id) ∧
        (moveBall solver graphs ball time).lastContact = time := by
  rw [moveBall_eq]
  rcases landing_cases solver time ball.pos graphs.graphs (falling ball time) with
    hfalls | ⟨graph, hmem, -, hsupport, hcontact⟩
  · refine .inl ?_
    dsimp only
    rw [hfalls]
    exact ⟨rfl, rfl⟩
  · exact .inr ⟨⟨graph, hmem, hsupport⟩, hcontact⟩

theorem sub_sub_add_cancel_real (x : EReal) (r s : ℝ) : x - r - s + s = x - r := by
  rw [sub_eq_add_neg (x - r), add_assoc, add_comm (-(s : EReal)), ← sub_eq_add_neg, ← EReal.coe_sub,
    sub_self, EReal.coe_zero, add_zero]

variable {y : EReal} {t c : ℝ} (hy : value ball.pos.y = some y)
  (ht : value time = some (t : EReal)) (hc : value ball.lastContact = some (c : EReal))

include hy ht hc

/-- **Falling.** A move takes the ball down by a fall at most. -/
theorem height_moveBall_ge :
    ∃ y' : EReal, y - fall t c ≤ y' ∧ value (moveBall solver graphs ball time).pos.y = some y' := by
  have hfall := value_falling hy ht hc
  have hcases := landing_cases solver time ball.pos graphs.graphs (falling ball time)
  rw [moveBall_eq]
  dsimp only
  rcases hcases with hfalls | ⟨graph, -, hhigher, -⟩
  · rw [hfalls, Exact.value_add hfall Rules.value_ballRadius_exact]
    exact ⟨_, (sub_sub_add_cancel_real y _ _).ge, rfl⟩
  · obtain ⟨x, hx, h, hh, hlt⟩ := (lt_iff _ _).mp hhigher
    obtain rfl : x = _ := Option.some.inj (hx.symm.trans hfall)
    refine ⟨_, ?_, Exact.value_add hh Rules.value_ballRadius_exact⟩
    rw [← sub_sub_add_cancel_real y _ (2 / 5)]
    exact add_le_add hlt.le le_rfl

/-- A ball that nothing holds falls by all of it. -/
theorem height_moveBall_of_none (hnone : (moveBall solver graphs ball time).support = none) :
    value (moveBall solver graphs ball time).pos.y = some (y - fall t c) := by
  have hfall := value_falling hy ht hc
  have hcases := landing_cases solver time ball.pos graphs.graphs (falling ball time)
  rw [moveBall_eq] at hnone ⊢
  dsimp only at hnone ⊢
  rcases hcases with hfalls | ⟨graph, -, -, hsupport, -⟩
  · rw [hfalls, Exact.value_add hfall Rules.value_ballRadius_exact, sub_sub_add_cancel_real]
  · rw [hnone] at hsupport
    exact absurd hsupport (Option.some_ne_none _).symm

theorem sub_longestFall_le_moveBall :
    ball.pos.y - Rules.maxFallTime * Rules.gravity ≤ (moveBall solver graphs ball time).pos.y := by
  obtain ⟨y', hge, hy'⟩ := height_moveBall_ge solver graphs hy ht hc
  refine (le_iff _ _).mpr ⟨_, Exact.value_sub hy value_longestFall, y', hy', le_trans ?_ hge⟩
  exact EReal.sub_le_sub le_rfl (EReal.coe_le_coe_iff.mpr (fall_le t c))

theorem moveBall_le_sub_shortestFall (hnone : (moveBall solver graphs ball time).support = none) :
    (moveBall solver graphs ball time).pos.y ≤ ball.pos.y - Rules.minFallTime * Rules.gravity := by
  have hy' := height_moveBall_of_none solver graphs hy ht hc hnone
  refine (le_iff _ _).mpr ⟨_, hy', _, Exact.value_sub hy value_shortestFall, ?_⟩
  exact EReal.sub_le_sub le_rfl (EReal.coe_le_coe_iff.mpr (fall_ge t c))

end Simulator

end RollingBall
