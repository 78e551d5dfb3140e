import RollingBall.Proofs.Contact.Golden

/-!
# A ball on a straight line

Under a ball on a line of slope `m`, the clearance is that of the arc turned by the angle of the
line: it is a cosine, with its only peak where the ball touches the line (`peaksAt_line`). So the
search finds the contact, and the middle of the ball is higher than the line below it by
`restOnLine m`, the radius times `√(1 + m ^ 2)` up to the precision of the search, wherever the ball
is (`Curve.IsLine.contactHeight_eq`, `abs_restOnLine_sub_le`).

## Main definitions

* `Curve.IsLine`: a curve is a straight line that exists everywhere.
* `restOnLine`: how far the middle of a resting ball is above a line of some slope.
-/

namespace RollingBall

open scoped Reals
open Real (goldenRatio goldenRatio_pos goldenRatio_sq one_lt_goldenRatio arctan arcsin sin cos)

/-! ## The arc turned -/

section Arc

/-- The angle from a place of an arc to the place where a line of slope `m` touches it. -/
noncomputable def arcAngle (m r u : ℝ) : ℝ := arctan m - arcsin (u / r)

variable {r u v : ℝ} (m : ℝ)

theorem abs_arcAngle_le : |arcAngle m r u| ≤ Real.pi := by
  have hm := Real.neg_pi_div_two_lt_arctan m
  have hm' := Real.arctan_lt_pi_div_two m
  have hu := Real.neg_pi_div_two_le_arcsin (u / r)
  have hu' := Real.arcsin_le_pi_div_two (u / r)
  unfold arcAngle
  rw [abs_le]
  constructor <;> linarith

variable (hr : 0 < r)

include hr

theorem div_mem_Icc (hu : -r ≤ u) (hu' : u ≤ r) : u / r ∈ Set.Icc (-1) 1 := by
  constructor
  · rw [le_div_iff₀ hr]
    linarith
  · rw [div_le_iff₀ hr]
    linarith

theorem arcAngle_lt (hu : -r ≤ u) (huv : u < v) (hv : v ≤ r) :
    arcAngle m r v < arcAngle m r u := by
  have hlt := Real.strictMonoOn_arcsin (div_mem_Icc hr hu (huv.le.trans hv))
    (div_mem_Icc hr (hu.trans huv.le) hv) (div_lt_div_of_pos_right huv hr)
  exact sub_lt_sub_left hlt _

theorem arcAngle_touch : arcAngle m r (r * sin (arctan m)) = 0 := by
  unfold arcAngle
  rw [mul_div_cancel_left₀ _ hr.ne',
    Real.arcsin_sin (Real.neg_pi_div_two_lt_arctan m).le (Real.arctan_lt_pi_div_two m).le, sub_self]

theorem arcAngle_le (hu : -r ≤ u) (huv : u ≤ v) (hv : v ≤ r) :
    arcAngle m r v ≤ arcAngle m r u := by
  rcases huv.lt_or_eq with hlt | rfl
  · exact (arcAngle_lt m hr hu hlt hv).le
  · exact le_rfl

/-- The height of an arc above a line through its middle is a cosine. -/
theorem line_add_sqrt_eq (hu : -r ≤ u) (hu' : u ≤ r) :
    m * u + √(r * r - u * u) = r * √(1 + m ^ 2) * cos (arcAngle m r u) := by
  obtain ⟨hlow, hhigh⟩ := div_mem_Icc hr hu hu'
  have hroot : √(1 + m ^ 2) ≠ 0 := (Real.sqrt_pos.mpr (by positivity)).ne'
  have harc : √(r * r - u * u) = r * √(1 - (u / r) ^ 2) := by
    have hsquare : r * r - u * u = r ^ 2 * (1 - (u / r) ^ 2) := by
      field_simp
    rw [hsquare, Real.sqrt_mul (sq_nonneg r), Real.sqrt_sq hr.le]
  unfold arcAngle
  rw [Real.cos_sub, Real.cos_arctan, Real.sin_arctan, Real.cos_arcsin, Real.sin_arcsin hlow hhigh,
    harc]
  field_simp
  ring

/-- The clearance of a line under a ball has its only peak where the line touches the arc. -/
theorem peaksAt_line :
    PeaksAt (fun u => m * u - (r - √(r * r - u * u))) (r * sin (arctan m)) (-r) r := by
  have hlow : -r ≤ r * sin (arctan m) := by nlinarith [Real.neg_one_le_sin (arctan m)]
  have hhigh : r * sin (arctan m) ≤ r := by nlinarith [Real.sin_le_one (arctan m)]
  have hscale : 0 < r * √(1 + m ^ 2) := mul_pos hr (Real.sqrt_pos.mpr (by positivity))
  -- The clearance rises with the cosine of the angle, which rises as the angle goes to zero.
  have hclimbs : ∀ {u v}, -r ≤ u → u ≤ r → -r ≤ v → v ≤ r →
      cos (arcAngle m r u) < cos (arcAngle m r v) →
      m * u - (r - √(r * r - u * u)) < m * v - (r - √(r * r - v * v)) := by
    intro u v hu hu' hv hv' hcos
    have hlt := mul_lt_mul_of_pos_left hcos hscale
    rw [← line_add_sqrt_eq m hr hu hu', ← line_add_sqrt_eq m hr hv hv'] at hlt
    linarith
  refine ⟨hlow, hhigh, ?_, ?_⟩
  · rintro u ⟨hu, hup⟩ v ⟨hv, hvp⟩ huv
    have hlt := arcAngle_lt m hr hu huv (hvp.trans hhigh)
    have hnonneg : 0 ≤ arcAngle m r v := by
      rw [← arcAngle_touch m hr]
      exact arcAngle_le m hr hv hvp hhigh
    refine hclimbs hu (hup.trans hhigh) hv (hvp.trans hhigh) ?_
    exact Real.strictAntiOn_cos ⟨hnonneg, (abs_le.mp (abs_arcAngle_le m)).2⟩
      ⟨hnonneg.trans hlt.le, (abs_le.mp (abs_arcAngle_le m)).2⟩ hlt
  · rintro u ⟨hup, hu⟩ v ⟨hvp, hv⟩ huv
    have hlt := arcAngle_lt m hr (hlow.trans hup) huv hv
    have hnonpos : arcAngle m r u ≤ 0 := by
      rw [← arcAngle_touch m hr]
      exact arcAngle_le m hr hlow hup hu
    refine hclimbs (hlow.trans hvp) hv (hlow.trans hup) hu ?_
    rw [← Real.cos_neg (arcAngle m r v), ← Real.cos_neg (arcAngle m r u)]
    exact Real.strictAntiOn_cos
      ⟨neg_nonneg.mpr hnonpos, neg_le.mp (abs_le.mp (abs_arcAngle_le m)).1⟩
      ⟨neg_nonneg.mpr (hlt.le.trans hnonpos), neg_le.mp (abs_le.mp (abs_arcAngle_le m)).1⟩
      (neg_lt_neg hlt)

end Arc

/-! ## The precision of the contact -/

/-- A root is as precise as what it is taken of, divided by the root. -/
theorem sqrt_mul_abs_sub_le {a b : ℝ} (hb : 0 ≤ b) : √b * |√a - √b| ≤ |a - b| := by
  rcases le_total 0 a with ha | ha
  · have hproduct : a - b = (√a + √b) * (√a - √b) := by
      nlinarith [Real.mul_self_sqrt ha, Real.mul_self_sqrt hb]
    rw [hproduct, abs_mul, abs_of_nonneg (add_nonneg (Real.sqrt_nonneg a) (Real.sqrt_nonneg b))]
    exact mul_le_mul_of_nonneg_right (le_add_of_nonneg_left (Real.sqrt_nonneg a)) (abs_nonneg _)
  · rw [Real.sqrt_eq_zero_of_nonpos ha, zero_sub, abs_neg, abs_of_nonneg (Real.sqrt_nonneg b),
      Real.mul_self_sqrt hb, abs_of_nonpos (sub_nonpos.mpr (ha.trans hb))]
    linarith

/-- How far the middle of a ball that rests on a line is above the line below it. -/
noncomputable def restOnLine (m : ℝ) : ℝ :=
  ((ContactSolver.ofRadius (Rules.ballRadius : ℝ)).rest (.pure fun u => m * u) 0 ()).1

/-- The search stops within half a millionth of the peak. -/
theorem precision_ofRadius :
    (Rules.ballRadius : ℝ) /
      goldenRatio ^ ((ContactSolver.ofRadius (Rules.ballRadius : ℝ)).iterations + 1) ≤
        1 / 2000000 := by
  have hcount : Real.logb goldenRatio (4 / 5 / (1 / 1000000)) ≤ UInt32.size := by
    have hpower : (4 / 5 / (1 / 1000000) : ℝ) ≤ goldenRatio ^ 40 := by
      have hsquare : (2 : ℝ) ≤ goldenRatio ^ 2 := by
        rw [goldenRatio_sq]
        linarith [one_lt_goldenRatio]
      calc (4 / 5 / (1 / 1000000) : ℝ) ≤ 2 ^ 20 := by norm_num
        _ ≤ (goldenRatio ^ 2) ^ 20 := pow_le_pow_left₀ (by norm_num) hsquare 20
        _ = goldenRatio ^ 40 := by rw [← pow_mul]
    have hlog : Real.logb goldenRatio (4 / 5 / (1 / 1000000)) ≤ (40 : ℕ) := by
      rw [Real.logb_le_iff_le_rpow one_lt_goldenRatio (by norm_num), Real.rpow_natCast]
      exact hpower
    exact hlog.trans (Nat.cast_le.mpr (by decide))
  have hwidth : (Rules.ballRadius * 2.0 : ℝ) = 4 / 5 := by
    rw [Rules.ballRadius_real]
    norm_num
  have htolerance : (ContactSolver.defaultTolerance : ℝ) = 1 / 1000000 := by
    unfold ContactSolver.defaultTolerance
    norm_num
  have hprecise := ContactSolver.width_le_tolerance (by norm_num) (by norm_num) hcount
  unfold ContactSolver.ofRadius ContactSolver.withTolerance
  dsimp only
  rw [hwidth, htolerance, Rules.ballRadius_real]
  calc (2 / 5 : ℝ) / goldenRatio ^ (ContactSolver.iterationCount (4 / 5 : ℝ) (1 / 1000000) + 1)
      = 4 / 5 / goldenRatio ^ (ContactSolver.iterationCount (4 / 5 : ℝ) (1 / 1000000) + 1) / 2 := by
        ring
    _ ≤ 1 / 1000000 / 2 := div_le_div_of_nonneg_right hprecise zero_le_two
    _ = 1 / 2000000 := by norm_num

/-- The search ends near the place where the line touches the ball. -/
theorem exists_restOnLine_eq (m : ℝ) :
    ∃ x, |x - 2 / 5 * sin (arctan m)| ≤ 1 / 2000000 ∧
      restOnLine m = m * x + √(4 / 25 - x * x) := by
  have hradius : (ContactSolver.ofRadius (Rules.ballRadius : ℝ)).radius = 2 / 5 :=
    Rules.ballRadius_real
  have hclearance : (ContactSolver.ofRadius (Rules.ballRadius : ℝ)).clearanceAt (fun u => m * u) 0 =
      fun u => m * u - (2 / 5 - √(2 / 5 * (2 / 5) - u * u)) := by
    funext u
    unfold ContactSolver.clearanceAt ContactSolver.arc
    rw [hradius, sub_zero]
    rfl
  have hpeak : PeaksAt
      ((ContactSolver.ofRadius (Rules.ballRadius : ℝ)).clearanceAt (fun u => m * u) 0)
      (2 / 5 * sin (arctan m)) (0 - (ContactSolver.ofRadius (Rules.ballRadius : ℝ)).radius)
      (0 + (ContactSolver.ofRadius (Rules.ballRadius : ℝ)).radius) := by
    rw [hclearance, hradius, zero_sub, zero_add]
    exact peaksAt_line m (by norm_num)
  have hpositive : 0 < (ContactSolver.ofRadius (Rules.ballRadius : ℝ)).radius := by
    rw [hradius]
    norm_num
  obtain ⟨x, hx, hrest⟩ := ContactSolver.exists_rest_eq hpositive hpeak
  refine ⟨x, hx.trans precision_ofRadius, hrest.trans ?_⟩
  rw [hclearance, hradius]
  norm_num
  ring

section Touch

variable (m : ℝ)

theorem abs_touch_le : |2 / 5 * sin (arctan m)| ≤ 2 / 5 := by
  rw [abs_mul, abs_of_pos (by norm_num : (0 : ℝ) < 2 / 5)]
  exact mul_le_of_le_one_right (by norm_num) (Real.abs_sin_le_one _)

/-- Where a line that is not too steep touches the ball, the arc is not steep either. -/
theorem le_sqrt_touch (hm : |m| ≤ 3) :
    1 / 8 ≤ √(4 / 25 - 2 / 5 * sin (arctan m) * (2 / 5 * sin (arctan m))) := by
  refine Real.le_sqrt_of_sq_le ?_
  have hsin := Real.sin_sq_add_cos_sq (arctan m)
  have hslope : m ^ 2 ≤ 9 := by
    rw [← sq_abs]
    nlinarith [abs_nonneg m]
  have hcos : 1 / 10 ≤ cos (arctan m) ^ 2 := by
    rw [Real.cos_sq_arctan]
    exact one_div_le_one_div_of_le (by positivity) (by linarith)
  nlinarith

end Touch

/-- **Contact with a line.** The middle of a ball that rests on a line is as far above it as the
radius is long, measured straight up, within the precision of the search. -/
theorem abs_restOnLine_sub_le {m : ℝ} (hm : |m| ≤ 3) :
    |restOnLine m - Rules.ballRadius * √(1 + m ^ 2)| ≤ 1 / 100000 := by
  obtain ⟨x, hx, hrest⟩ := exists_restOnLine_eq m
  have hp := abs_touch_le m
  have hroot := le_sqrt_touch m hm
  have hexact : Rules.ballRadius * √(1 + m ^ 2) = m * (2 / 5 * sin (arctan m)) +
      √(4 / 25 - 2 / 5 * sin (arctan m) * (2 / 5 * sin (arctan m))) := by
    have htouch := line_add_sqrt_eq m (r := 2 / 5) (by norm_num) (abs_le.mp hp).1 (abs_le.mp hp).2
    rw [arcAngle_touch m (by norm_num), Real.cos_zero, mul_one] at htouch
    rw [Rules.ballRadius_real, ← htouch]
    norm_num
  set p := 2 / 5 * sin (arctan m)
  have hplace : |x + p| ≤ 1 := by
    have htriangle := abs_add_le (x - p) (2 * p)
    rw [abs_mul, abs_two] at htriangle
    rw [show x + p = x - p + 2 * p by ring]
    linarith
  have hsquares : |4 / 25 - x * x - (4 / 25 - p * p)| ≤ 1 / 2000000 := by
    rw [show 4 / 25 - x * x - (4 / 25 - p * p) = -((x - p) * (x + p)) by ring, abs_neg, abs_mul]
    exact (mul_le_of_le_one_right (abs_nonneg _) hplace).trans hx
  have hnonneg : 0 ≤ 4 / 25 - p * p := by
    have hsquare := mul_self_le_mul_self (abs_nonneg p) hp
    rw [abs_mul_abs_self] at hsquare
    linarith
  have hroots : |√(4 / 25 - x * x) - √(4 / 25 - p * p)| ≤ 8 / 2000000 := by
    have hproduct := (sqrt_mul_abs_sub_le (a := 4 / 25 - x * x) hnonneg).trans hsquares
    have hpart := mul_le_mul_of_nonneg_right hroot
      (abs_nonneg (√(4 / 25 - x * x) - √(4 / 25 - p * p)))
    linarith
  have hslope : |m * (x - p)| ≤ 3 * (1 / 2000000) := by
    rw [abs_mul]
    exact mul_le_mul hm hx (abs_nonneg _) (by norm_num)
  calc |restOnLine m - Rules.ballRadius * √(1 + m ^ 2)|
      = |m * (x - p) + (√(4 / 25 - x * x) - √(4 / 25 - p * p))| := by
        rw [hrest, hexact]
        ring_nf
    _ ≤ |m * (x - p)| + |√(4 / 25 - x * x) - √(4 / 25 - p * p)| := abs_add_le _ _
    _ ≤ 1 / 100000 := by linarith

/-- A ball on a line is not lower than on level ground, within the precision. -/
theorem le_restOnLine {m : ℝ} (hm : |m| ≤ 3) : 399 / 1000 ≤ restOnLine m := by
  have hroot : 1 ≤ √(1 + m ^ 2) := Real.one_le_sqrt.mpr (by nlinarith [sq_nonneg m])
  have hrest := (abs_le.mp (abs_restOnLine_sub_le hm)).1
  rw [Rules.ballRadius_real] at hrest
  linarith

theorem restOnLine_le {m : ℝ} (hm : |m| ≤ 3) : restOnLine m ≤ 2 := by
  have hsquare : m ^ 2 ≤ 3 ^ 2 := sq_le_sq.mpr (hm.trans (le_abs_self 3))
  have hroot : √(1 + m ^ 2) ≤ 4 := Real.sqrt_le_iff.mpr ⟨by norm_num, by linarith⟩
  have hrest := (abs_le.mp (abs_restOnLine_sub_le hm)).2
  rw [Rules.ballRadius_real] at hrest
  linarith

/-! ## Lines -/

/-- The curve is a straight line, at every moment, and exists everywhere. -/
structure Curve.IsLine (f : Curve ℝ) (m c : ℝ) : Prop where
  eval_eq : ∀ ctx, f.eval ctx = m * ctx.x + c
  admits : ∀ ctx, f.admits ctx = true

/-- The line that the text of a sum `m * x + c` stands for. -/
def Curve.line (m c : ℝ) : Curve ℝ :=
  .unconditional (.binary .add (.binary .mul (.constant m) (.var .x)) (.constant c))

theorem Curve.isLine_line (m c : ℝ) : (line m c).IsLine m c where
  eval_eq _ := rfl
  admits _ := rfl

/-- Wherever the ball is, it rests as far above the line. -/
theorem Curve.IsLine.contactHeight_eq {f : Curve ℝ} {m c : ℝ} (h : f.IsLine m c) (ctx : Context ℝ)
    (x : ℝ) :
    ((ContactSolver.ofRadius Rules.ballRadius).contactHeight f ctx x).1 =
      m * x + c + restOnLine m := by
  have hshift : ∀ u, f.eval ⟨ctx.t, u + x⟩ = m * u + (m * x + c) := fun u => by
    rw [h.eval_eq]
    ring
  have hrest := (ContactSolver.ofRadius (Rules.ballRadius : ℝ)).rest_shift hshift
    (Probe.shows_pure fun u => m * u) (f.shows_evalAt ctx.t) 0 (s := ()) trivial (t := ctx) rfl
  rw [zero_add] at hrest
  exact hrest.trans (add_comm _ _)

end RollingBall
