import RollingBall.Proofs.Contact.Within

/-!
# The number of steps

The steps of a search are counted from the width of its interval and the tolerance before it begins.
Each step makes the interval shorter by the golden ratio, and the last probe, in the middle of the
side of the higher one, does so once more (`ContactSolver.side_width`). The count is the least
number of steps for which this side is within the tolerance (`steps_just_suffice`).

## Main definitions

* `Bracket.side`: the ends of the side of the higher probe.
-/

namespace RollingBall

open scoped Reals
open Real (goldenRatio goldenRatio_pos one_lt_goldenRatio)

/-! ## The side of the higher probe -/

namespace Bracket

/-- The ends of the side of the higher probe. -/
def side {α : Type} [Scalar α] (k : Bracket α) : α × α :=
  if k.yd < k.yc then (k.a, k.d) else (k.c, k.b)

theorem best_eq_middle {α : Type} [Scalar α] (k : Bracket α) :
    k.best = (k.side.1 + k.side.2) / 2.0 := by
  unfold best side
  split <;> rfl

/-- Either side is the larger part of the interval. -/
theorem Golden.side_width {g : ℝ → ℝ} {k : Bracket ℝ} (h : k.Golden g) :
    k.side.2 - k.side.1 = k.width / goldenRatio := by
  unfold side
  split
  · rw [h.d_eq, add_sub_cancel_left]
  · rw [h.b_eq_add, add_sub_cancel_left]

end Bracket

namespace ContactSolver

variable (solver : ContactSolver ℝ) (f : Curve ℝ) (ctx : Context ℝ) (ballX : ℝ)

/-- The contact is taken in the middle of the side that is left. -/
theorem contactHeight_eq_middle :
    let last := (solver.search f.evalAt ballX solver.iterations
      (solver.bracket f.evalAt ballX ctx)).1
    let middle := (last.side.1 + last.side.2) / 2.0
    (solver.contactHeight f ctx ballX).1 =
      f.eval ⟨ctx.t, middle⟩ - solver.arc (middle - ballX) + solver.radius := by
  have hcurve := f.shows_evalAt ctx.t
  have hkind :=
    (solver.search_bracket_seen hcurve (s := ctx) rfl ballX solver.iterations).2
  intro last middle
  have hclear := (solver.shows_clearance hcurve ballX).value last.best hkind
  rw [last.best_eq_middle] at hclear
  show (solver.clearance f.evalAt ballX last.best _).1 + solver.radius = _
  rw [last.best_eq_middle]
  exact congrArg (· + solver.radius) hclear

theorem width_search (g : ℝ → ℝ) (n : ℕ) (k : Bracket ℝ) :
    (solver.search (.pure g) ballX n (k, ())).1.width = k.width / goldenRatio ^ n := by
  induction n generalizing k with
  | zero => rw [pow_zero, div_one]; rfl
  | succ n ih =>
    have hrest := ih (solver.narrow (.pure g) ballX k ()).1
    rw [width_narrow, div_div, ← pow_succ'] at hrest
    exact hrest

/-- After some steps on a curve, the side of the higher probe is as wide as the interval would be
after one step more. -/
theorem side_width (hr : 0 < solver.radius) (n : ℕ) :
    let last := (solver.search f.evalAt ballX n (solver.bracket f.evalAt ballX ctx)).1
    last.side.2 - last.side.1 = 2 * solver.radius / goldenRatio ^ (n + 1) := by
  set g : ℝ → ℝ := fun x => f.eval ⟨ctx.t, x⟩
  -- At one moment the curve shows a function, and of a function the intervals are known.
  have hcurve := (solver.search_bracket_seen (f.shows_evalAt ctx.t) (s := ctx) rfl ballX n).1
  have hpure := (solver.search_bracket_seen (Probe.shows_pure g) (s := ()) trivial ballX n).1
  have hgolden := ((inside_bracket hr g ballX).search n).golden
  have hwidth := solver.width_search ballX g n (solver.bracket (.pure g) ballX ()).1
  have hwhole : (solver.bracket (.pure g) ballX ()).1.width = 2 * solver.radius := by
    show solver.radius * 2.0 = 2 * solver.radius
    norm_num
    ring
  intro last
  have hlast : last = (solver.search (.pure g) ballX n (solver.bracket (.pure g) ballX ())).1 :=
    hcurve.trans hpure.symm
  rw [hlast, hgolden.side_width, hwidth, hwhole, div_div, ← pow_succ]

/-! ## The count -/

omit solver f ctx ballX

/-- So many steps and the last probe are within the tolerance exactly if the logarithms ask for no
more. -/
theorem width_le_iff {width tolerance : ℝ} (hw : 0 < width) (ht : 0 < tolerance) (n : ℕ) :
    width / goldenRatio ^ (n + 1) ≤ tolerance ↔
      ⌈Real.logb goldenRatio (width / tolerance)⌉₊ - 1 ≤ n := by
  rw [div_le_iff₀ (pow_pos goldenRatio_pos _), mul_comm, ← div_le_iff₀ ht, ← Real.rpow_natCast,
    ← Real.logb_le_iff_le_rpow one_lt_goldenRatio (div_pos hw ht), ← Nat.ceil_le,
    Nat.sub_le_iff_le_add]

theorem iterationCount_isLeast {width tolerance : ℝ} (hw : 0 < width) (ht : 0 < tolerance)
    (hcount : ⌈Real.logb goldenRatio (width / tolerance)⌉ - 1 < UInt32.size) :
    IsLeast {n : ℕ | width / goldenRatio ^ (n + 1) ≤ tolerance}
      (iterationCount width tolerance) := by
  have hsize : ⌈Real.logb goldenRatio (width / tolerance)⌉₊ - 1 ≤ UInt32.size - 1 := by
    rw [← Int.ceil_toNat]
    omega
  rw [iterationCount_eq, min_eq_right hsize]
  exact ⟨(width_le_iff hw ht _).mpr le_rfl, fun n hn => (width_le_iff hw ht n).mp hn⟩

end ContactSolver

/-- **The count of steps.** It is the least number of steps for which the width, divided by the
golden ratio once for each step and once more, is within the tolerance, if a number of 32 bits can
count them. So if a ball is as wide, the search for its contact with a curve ends in the middle of a
side of that width, within the tolerance. After fewer steps the side is wider than the tolerance. -/
theorem steps_just_suffice {width tolerance : ℝ} (hw : 0 < width) (ht : 0 < tolerance)
    (hcount : ⌈Real.log (width / tolerance) / Real.log goldenRatio⌉ - 1 < 2 ^ 32) :
    let n := ContactSolver.iterationCount width tolerance
    IsLeast {m : ℕ | width / goldenRatio ^ (m + 1) ≤ tolerance} n ∧
      ∀ radius : ℝ, width = 2 * radius → ∀ (f : Curve ℝ) (ctx : Context ℝ) (ballX : ℝ),
        let solver := ContactSolver.withTolerance radius tolerance
        let side (m : ℕ) :=
          (solver.search f.evalAt ballX m (solver.bracket f.evalAt ballX ctx)).1.side
        let middle := ((side n).1 + (side n).2) / 2
        (solver.contactHeight f ctx ballX).1 =
            f.eval ⟨ctx.t, middle⟩ - solver.arc (middle - ballX) + radius ∧
          (side n).2 - (side n).1 = width / goldenRatio ^ (n + 1) ∧
          (side n).2 - (side n).1 ≤ tolerance ∧
          ∀ m < n, tolerance < (side m).2 - (side m).1 := by
  intro n
  have hleast : IsLeast {m : ℕ | width / goldenRatio ^ (m + 1) ≤ tolerance} n :=
    ContactSolver.iterationCount_isLeast hw ht hcount
  refine ⟨hleast, ?_⟩
  rintro radius rfl f ctx ballX solver side middle
  have hr : 0 < solver.radius := by
    show 0 < radius
    linarith
  have hside (m : ℕ) : (side m).2 - (side m).1 = 2 * radius / goldenRatio ^ (m + 1) :=
    solver.side_width f ctx ballX hr m
  have hsteps : solver.iterations = n := by
    show ContactSolver.iterationCount (radius * 2.0) tolerance = _
    congr 1
    norm_num
    ring
  refine ⟨?_, hside n, (hside n).trans_le hleast.1, fun m hm => ?_⟩
  · have hcontact := solver.contactHeight_eq_middle f ctx ballX
    have htwo : (2.0 : ℝ) = 2 := by norm_num
    rw [hsteps, htwo] at hcontact
    exact hcontact
  · rw [hside]
    exact not_le.mp fun hle => absurd (hleast.2 hle) (not_le.mpr hm)

/-- A ball of radius `0.4` with the default tolerance is searched in 28 steps. -/
theorem steps_just_suffice_for_ball :
    let solver : ContactSolver ℝ := .ofRadius 0.4
    ⌈Real.log (0.8 / 1e-6) / Real.log goldenRatio⌉ - 1 < 2 ^ 32 ∧ solver.iterations = 28 ∧
      (0.8 : ℝ) / goldenRatio ^ 29 ≤ 1e-6 ∧ (1e-6 : ℝ) < 0.8 / goldenRatio ^ 28 := by
  have hlow : (1.618 : ℝ) ≤ goldenRatio := by
    have hroot : (2.236 : ℝ) ≤ √5 := Real.le_sqrt_of_sq_le (by norm_num)
    rw [goldenRatio]
    linarith
  have hhigh : goldenRatio ≤ 1.6181 := by
    have hroot : √5 ≤ 2.2361 := (Real.sqrt_le_left (by norm_num)).mpr (by norm_num)
    rw [goldenRatio]
    linarith
  have hwithin : (0.8 : ℝ) / goldenRatio ^ 29 ≤ 1e-6 := by
    have hpower : (1.618 : ℝ) ^ 29 ≤ goldenRatio ^ 29 := pow_le_pow_left₀ (by norm_num) hlow 29
    rw [div_le_iff₀ (pow_pos goldenRatio_pos _)]
    linarith [(by norm_num : (0.8 : ℝ) ≤ 1e-6 * 1.618 ^ 29)]
  have hbeyond : (1e-6 : ℝ) < 0.8 / goldenRatio ^ 28 := by
    have hpower : goldenRatio ^ 28 ≤ 1.6181 ^ 28 := pow_le_pow_left₀ goldenRatio_pos.le hhigh 28
    rw [lt_div_iff₀ (pow_pos goldenRatio_pos _)]
    linarith [(by norm_num : (1e-6 : ℝ) * 1.6181 ^ 28 < 0.8)]
  have hlogs : Real.log (0.8 / 1e-6) / Real.log goldenRatio ≤ (29 : ℤ) := by
    rw [Real.log_div_log, Real.logb_le_iff_le_rpow one_lt_goldenRatio (by norm_num)]
    rw [div_le_iff₀ (pow_pos goldenRatio_pos _)] at hwithin
    have hpower : (0.8 / 1e-6 : ℝ) ≤ goldenRatio ^ 29 := by linarith
    exact_mod_cast hpower
  have hcount : ⌈Real.log (0.8 / 1e-6) / Real.log goldenRatio⌉ - 1 < 2 ^ 32 := by
    have hceil := Int.ceil_le.mpr hlogs
    omega
  obtain ⟨hleast, -⟩ := steps_just_suffice (by norm_num) (by norm_num) hcount
  have hsteps : ContactSolver.iterationCount (0.8 : ℝ) 1e-6 = 28 := by
    refine hleast.unique ⟨hwithin, fun n hn => ?_⟩
    by_contra hfewer
    have hpower : goldenRatio ^ (n + 1) ≤ goldenRatio ^ 28 :=
      pow_le_pow_right₀ one_lt_goldenRatio.le (by omega)
    have hwider : (0.8 : ℝ) / goldenRatio ^ 28 ≤ 0.8 / goldenRatio ^ (n + 1) :=
      div_le_div_of_nonneg_left (by norm_num) (pow_pos goldenRatio_pos _) hpower
    exact absurd (hbeyond.trans_le (hwider.trans hn)) (lt_irrefl _)
  refine ⟨hcount, ?_, hwithin, hbeyond⟩
  show ContactSolver.iterationCount (0.4 * 2.0 : ℝ) 1e-6 = 28
  rw [← hsteps]
  congr 1
  norm_num

end RollingBall
