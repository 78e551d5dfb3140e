import RollingBall.Proofs.Contact.Lines

/-!
# The search under a curve

The search that a ball makes on a curve is that of the function the curve is at the moment
(`ContactSolver.search_evalAt`). So where the clearance of the curve has one peak, every interval of
the search has it, divided by the golden ratio, and the contact is taken close to it and not above
it (`ContactSolver.search_closes_in`).
-/

namespace RollingBall

open scoped Reals
open Real (goldenRatio sin arctan)

namespace ContactSolver

section Curves

variable (solver : ContactSolver ℝ) (f : Curve ℝ) (ctx : Context ℝ) (ballX : ℝ)

/-- A search on a curve goes through the intervals of the function that the curve is. -/
theorem search_evalAt (n : ℕ) :
    (solver.search f.evalAt ballX n (solver.bracket f.evalAt ballX ctx)).1 =
      (solver.search (.pure fun x => f.eval ⟨ctx.t, x⟩) ballX n
        (solver.bracket (.pure fun x => f.eval ⟨ctx.t, x⟩) ballX ())).1 := by
  have hcurve := solver.search_bracket_seen (f.shows_evalAt ctx.t) (s := ctx) rfl ballX n
  have hpure := solver.search_bracket_seen (Probe.shows_pure fun x => f.eval ⟨ctx.t, x⟩)
    (s := ()) trivial ballX n
  exact hcurve.1.trans hpure.1.symm

theorem contactHeight_evalAt :
    (solver.contactHeight f ctx ballX).1 =
      (solver.rest (.pure fun x => f.eval ⟨ctx.t, x⟩) ballX ()).1 := by
  have hcurve := (solver.shows_rest (f.shows_evalAt ctx.t)).value ballX (s := ctx) rfl
  have hpure := (solver.shows_rest (Probe.shows_pure fun x => f.eval ⟨ctx.t, x⟩)).value ballX
    (s := ()) trivial
  exact hcurve.trans hpure.symm

end Curves

/-- **The search.** If the clearance of a curve climbs up to `p` and falls after it over the width
of the ball, then every interval of the search has `p`, and its probes divide it by the golden ratio
and saw the clearance. The last place probed is close to `p`, and the contact is the clearance there
and the radius, so it is not above that at `p`. -/
theorem search_closes_in (solver : ContactSolver ℝ) (f : Curve ℝ) (ctx : Context ℝ) (ballX : ℝ)
    (hr : 0 < solver.radius) {p : ℝ} :
    let g := fun x => f.eval ⟨ctx.t, x⟩ -
      (solver.radius - √(solver.radius ^ 2 - (x - ballX) ^ 2))
    let after := fun n =>
      (solver.search f.evalAt ballX n (solver.bracket f.evalAt ballX ctx)).1
    let contact := (solver.contactHeight f ctx ballX).1
    PeaksAt g p (ballX - solver.radius) (ballX + solver.radius) →
      (∀ n, (after n).b - (after n).a = (after n).width ∧
        (after n).width = 2 * solver.radius / goldenRatio ^ n ∧
        (after n).c = (after n).a + (after n).width / goldenRatio ^ 2 ∧
        (after n).d = (after n).a + (after n).width / goldenRatio ∧
        (after n).yc = g (after n).c ∧ (after n).yd = g (after n).d ∧
        p ∈ Set.Icc (after n).a (after n).b) ∧
      |(after solver.iterations).best - p| ≤
        solver.radius / goldenRatio ^ (solver.iterations + 1) ∧
      contact = g (after solver.iterations).best + solver.radius ∧
      contact ≤ g p + solver.radius := by
  intro g after contact hpeak
  have hclearance : solver.clearanceAt (fun x => f.eval ⟨ctx.t, x⟩) ballX = g := by
    funext x
    show _ - (solver.radius - √_) = _ - (solver.radius - √_)
    rw [sq, sq]
  -- The probes hand on a context, of which only the time counts.
  have hafter : ∀ n, after n = _ := solver.search_evalAt f ctx ballX
  rw [← hclearance] at hpeak
  have hsearch := golden_search (solver.golden_bracket _ ballX hr) hpeak
  rw [hclearance] at hsearch
  have hcontact : contact = g (after solver.iterations).best + solver.radius := by
    rw [← hclearance, hafter]
    exact solver.contactHeight_evalAt f ctx ballX
  refine ⟨fun n => ?_, ?_, hcontact, ?_⟩
  · obtain ⟨hgolden, hpeaks, hwidth⟩ := hsearch n
    rw [← hafter] at hgolden hpeaks hwidth
    refine ⟨?_, hwidth.trans ?_, hgolden.c_eq, hgolden.d_eq, hgolden.yc_eq, hgolden.yd_eq,
      hpeaks.left, hpeaks.right⟩
    · rw [hgolden.b_eq, add_sub_cancel_left]
    · show solver.radius * 2.0 / _ = _
      norm_num
      rw [mul_comm]
  · rw [hafter]
    exact abs_best_search_sub_le hr hpeak
  · obtain ⟨hgolden, hpeaks, -⟩ := hsearch solver.iterations
    rw [← hafter] at hgolden hpeaks
    have hle := hpeaks.le_peak hgolden.best_mem
    rw [hcontact]
    linarith

/-- Ten steps of the search for where a ball of radius one touches the diagonal. -/
theorem search_closes_in_on_diagonal :
    let solver : ContactSolver ℝ := ⟨1, 10⟩
    let after := fun n =>
      (solver.search (Curve.line 1 0).evalAt 0 n
        (solver.bracket (Curve.line 1 0).evalAt 0 (.atTime 0))).1
    (∀ n, sin (arctan 1) ∈ Set.Icc (after n).a (after n).b) ∧
      |(after 10).best - sin (arctan 1)| ≤ 1 / goldenRatio ^ 11 ∧
      (solver.contactHeight (Curve.line 1 0) (.atTime 0) 0).1 ≤ √2 := by
  intro solver after
  have hclearance : (fun x => (Curve.line 1 0).eval ⟨0, x⟩ - (1 - √(1 ^ 2 - (x - 0) ^ 2))) =
      fun u : ℝ => 1 * u - (1 - √(1 * 1 - u * u)) := by
    funext u
    rw [(Curve.isLine_line 1 0).eval_eq, add_zero, sub_zero, sq, sq]
  have hpeak : PeaksAt (fun x => (Curve.line 1 0).eval ⟨0, x⟩ - (1 - √(1 ^ 2 - (x - 0) ^ 2)))
      (1 * sin (arctan 1)) (0 - 1) (0 + 1) := by
    rw [hclearance, zero_sub, zero_add]
    exact peaksAt_line 1 one_pos
  obtain ⟨hsteps, hnear, -, hbelow⟩ :=
    solver.search_closes_in (Curve.line 1 0) (.atTime 0) 0 one_pos hpeak
  rw [one_mul] at hnear
  refine ⟨fun n => ?_, hnear, hbelow.trans (le_of_eq ?_)⟩
  · obtain ⟨-, -, -, -, -, -, hinside⟩ := hsteps n
    rw [one_mul] at hinside
    exact hinside
  · have hline := peaksAt_line 1 one_pos
    have htouch := line_add_sqrt_eq 1 one_pos hline.left hline.right
    rw [arcAngle_touch 1 one_pos, Real.cos_zero] at htouch
    refine (congrArg (· + (1 : ℝ)) (congrFun hclearance _)).trans ?_
    norm_num at htouch ⊢
    linarith

end ContactSolver

end RollingBall
