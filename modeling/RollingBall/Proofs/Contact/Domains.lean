import Mathlib.Analysis.Convex.Jensen
import Mathlib.Analysis.Convex.SpecificFunctions.Pow
import RollingBall.Proofs.Contact.Ends
import RollingBall.Proofs.Contact.Within

/-!
# The ends of a curve

A curve may have no height beyond some place. Under a ball, its clearance is undefined there and at
both ends of the ball (`ContactSolver.gap_definedOn`), and the contact is undefined if the search
ends at such a place (`ContactSolver.isNaN_plainHeight_iff`). At the left end of a concave curve the
search comes back to the curve, at the right end it does not. A ball on a flat curve has no contact
as soon as the curve goes on for less than about half a radius to its right
(`contact_lost_before_right_end`).

## Main definitions

* `ContactSolver.extended`: a solver among the extended reals.
* `ContactSolver.touched`: the place at which a contact is taken.
* `platform`: a flat curve with a right end.
-/

namespace RollingBall

open scoped Reals
open Real (goldenRatio goldenRatio_pos)
open Extended

/-! ## The clearance of a curve with a domain -/

namespace ContactSolver

/-- The solver among the extended reals. -/
def extended (solver : ContactSolver ℝ) : ContactSolver Extended :=
  ⟨ofReal solver.radius, solver.iterations⟩

variable {solver : ContactSolver ℝ} {f : Extended → Extended} {D : Set ℝ} {F : ℝ → ℝ}
  {ballX : ℝ}

/-- The clearance is undefined where the curve is and where the ball is not. -/
theorem gap_definedOn (hr : 0 < solver.radius) (hf : DefinedOn f D F) :
    DefinedOn (solver.extended.gap f (ofReal ballX)) (D ∩ solver.under ballX)
      (solver.clearanceAt F ballX) where
  value {x} hx := by
    obtain ⟨hD, hball⟩ := hx
    unfold gap arc extended clearanceAt
    dsimp only
    rw [hf.value hD, ofReal_sub, ofReal_mul, ofReal_mul, ofReal_sub,
      sqrt_ofReal ((mem_under_iff hr).mp hball), ofReal_sub, ofReal_sub]
    rfl
  undefined {x} hx := by
    by_cases hD : x ∈ D
    · have hball : x ∉ solver.under ballX := fun hball => hx ⟨hD, hball⟩
      rw [mem_under_iff hr, not_le] at hball
      unfold gap arc extended
      dsimp only
      rw [ofReal_sub, ofReal_mul, ofReal_mul, ofReal_sub]
      exact lift₂_undefined _ (.inr (lift₂_undefined _ (.inr (sqrt_ofReal_of_neg hball))))
    · exact lift₂_undefined _ (.inl (hf.undefined hD))

theorem span_golden :
    solver.extended.span (ofReal ballX) =
      Span.golden (ballX - solver.radius) (solver.radius + solver.radius) := by
  have hne : goldenRatio ≠ 0 := goldenRatio_pos.ne'
  have hb : ballX + solver.radius = ballX - solver.radius + (solver.radius + solver.radius) := by
    ring
  unfold span extended Span.golden
  dsimp only
  rw [ofReal_goldenRatio, ofReal_two, ofReal_mul, mul_two, ofReal_mul, ← sq, ofReal_div _ hne,
    ofReal_div _ (pow_ne_zero 2 hne), ofReal_sub, ofReal_add, ofReal_add, ofReal_add, hb]

/-- The place under a ball at which its contact with a function is taken. -/
noncomputable def touched (solver : ContactSolver ℝ) (f : Extended → Extended) (ballX : ℝ) : ℝ :=
  Span.lastPlace (solver.extended.gap f (ofReal ballX)) (ballX - solver.radius) solver.radius
    solver.iterations

theorem touched_mem (hr : 0 < solver.radius) : solver.touched f ballX ∈ solver.under ballX := by
  have hmem := Span.lastPlace_mem (g := solver.extended.gap f (ofReal ballX))
    (a := ballX - solver.radius) hr solver.iterations
  have hb : ballX - solver.radius + (solver.radius + solver.radius) = ballX + solver.radius := by
    ring
  rw [hb] at hmem
  exact hmem

theorem plainHeight_eq :
    solver.extended.plainHeight f (ofReal ballX) =
      solver.extended.gap f (ofReal ballX) (ofReal (solver.touched f ballX)) +
        ofReal solver.radius := by
  unfold plainHeight
  dsimp only
  rw [span_golden]
  exact congrArg (fun x => solver.extended.gap f (ofReal ballX) x + ofReal solver.radius)
    (Span.best_search_golden _ _ _ _)

/-- A contact is undefined exactly if it is taken outside the domain. -/
theorem isNaN_plainHeight_iff (hr : 0 < solver.radius) (hf : DefinedOn f D F) :
    Scalar.isNaN (solver.extended.plainHeight f (ofReal ballX)) ↔ solver.touched f ballX ∉ D := by
  rw [plainHeight_eq, (gap_definedOn hr hf).isNaN_add_iff]
  exact not_congr (and_iff_left (touched_mem hr))

/-! ## The places of the first intervals -/

theorem double_div_golden (r : ℝ) : (r + r) / goldenRatio = (√5 - 1) * r := by
  have hsquare : √5 * √5 = 5 := Real.mul_self_sqrt (by norm_num)
  rw [div_eq_iff goldenRatio_pos.ne', goldenRatio]
  linear_combination (-r / 2) * hsquare

theorem firstRight_eq (r : ℝ) :
    ballX - r + (r + r) / goldenRatio = ballX + (√5 - 2) * r := by
  rw [double_div_golden]
  ring

theorem secondRight_eq (r : ℝ) :
    ballX + ((r + r) / goldenRatio ^ 2 - (r + r) / goldenRatio ^ 3 / 2) =
      ballX + (5 - 2 * √5) * r := by
  have hparts := golden_parts (r + r)
  have hparts' := golden_parts ((r + r) / goldenRatio)
  have hcube : (r + r) / goldenRatio / goldenRatio ^ 2 = (r + r) / goldenRatio ^ 3 := by
    rw [div_div, ← pow_succ']
  rw [double_div_golden] at hparts
  rw [golden_twice, hcube, double_div_golden] at hparts'
  linarith

/-! ## Where the contact is taken -/

theorem touched_of_behind (hr : 0 < solver.radius) (hf : DefinedOn f D F)
    (hbehind : ∀ x ∈ D, x < ballX + (√5 - 2) * solver.radius) :
    solver.touched f ballX ∉ D := by
  have hright : ∀ x ∈ D ∩ solver.under ballX,
      x < Span.leftEnd (solver.extended.gap f (ofReal ballX)) (ballX - solver.radius)
        (solver.radius + solver.radius) 0 +
          (solver.radius + solver.radius) / goldenRatio ^ (0 + 1) := by
    intro x hx
    rw [zero_add, pow_one, Span.leftEnd, firstRight_eq]
    exact hbehind x hx.1
  intro hmem
  exact Span.lastPlace_of_behind (gap_definedOn hr hf) hr (Nat.zero_le solver.iterations) hright
    ⟨hmem, touched_mem hr⟩

section Concave

variable (hr : 0 < solver.radius)

include hr

theorem concaveOn_arc :
    ConcaveOn ℝ (solver.under ballX)
      fun x => √(solver.radius * solver.radius - (x - ballX) * (x - ballX)) := by
  refine ⟨convex_Icc _ _, fun x hx y hy a b ha hb hab => ?_⟩
  have hspread : 0 ≤ a * b * ((x - y) * (x - y)) :=
    mul_nonneg (mul_nonneg ha hb) (mul_self_nonneg _)
  obtain rfl : b = 1 - a := by linarith
  refine (Real.strictConcaveOn_sqrt.concaveOn.2 ((mem_under_iff hr).mp hx)
    ((mem_under_iff hr).mp hy) ha hb hab).trans (Real.sqrt_le_sqrt ?_)
  simp only [smul_eq_mul]
  linear_combination hspread

variable (hF : ConcaveOn ℝ D F)

include hF

theorem concaveOn_clearanceAt :
    ConcaveOn ℝ (D ∩ solver.under ballX) (solver.clearanceAt F ballX) := by
  have hE : Convex ℝ (D ∩ solver.under ballX) := hF.1.inter (convex_Icc _ _)
  have harc : ConcaveOn ℝ (D ∩ solver.under ballX)
      fun x => √(solver.radius * solver.radius - (x - ballX) * (x - ballX)) :=
    (concaveOn_arc hr).subset Set.inter_subset_right hE
  refine (((hF.subset Set.inter_subset_left hE).add harc).add_const (-solver.radius)).congr ?_
  intro x _
  show F x + √(solver.radius * solver.radius - (x - ballX) * (x - ballX)) + -solver.radius =
    F x - (solver.radius - √(solver.radius * solver.radius - (x - ballX) * (x - ballX)))
  ring

variable {p : ℝ} (hp : p ∈ D ∩ solver.under ballX)
  (hpeak : IsMaxOn (solver.clearanceAt F ballX) (D ∩ solver.under ballX ∩ Set.Iic p) p)

include hp hpeak

/-- The clearance climbs to its peak. -/
theorem clearanceAt_le {x y : ℝ} (hx : x ∈ D ∩ solver.under ballX) (hxy : x < y) (hyp : y ≤ p) :
    solver.clearanceAt F ballX x ≤ solver.clearanceAt F ballX y := by
  have hle : solver.clearanceAt F ballX x ≤ solver.clearanceAt F ballX p :=
    hpeak ⟨hx, hxy.le.trans hyp⟩
  have hmin := (concaveOn_clearanceAt hr hF).min_le_of_mem_Icc hx hp ⟨hxy.le, hyp⟩
  rwa [min_eq_left hle] at hmin

theorem touched_of_peak (hf : DefinedOn f D F)
    (hleft : p - solver.radius / goldenRatio ^ (solver.iterations + 1) ∈ D)
    (hright : ballX + solver.radius ∈ D) : solver.touched f ballX ∈ D := by
  have hreach : p ≤ ballX - solver.radius + (solver.radius + solver.radius) := by
    have hball := hp.2.2
    linarith
  have hlast := Span.sub_le_lastPlace (gap_definedOn hr hf)
    (fun x hx y _ hxy hyp => clearanceAt_le hr hF hp hpeak hx hxy hyp) hr hreach solver.iterations
  exact hF.1.ordConnected.out hleft hright ⟨hlast, (touched_mem hr).2⟩

end Concave

section Flat

variable {h : ℝ} (hflat : ∀ x ∈ D, F x = h) (hr : 0 < solver.radius)

include hflat hr

/-- Under a ball on a flat curve, the clearance falls with the distance from the middle. -/
theorem clearanceAt_lt_iff {x y : ℝ} (hx : x ∈ D ∩ solver.under ballX)
    (hy : y ∈ D ∩ solver.under ballX) :
    solver.clearanceAt F ballX y < solver.clearanceAt F ballX x ↔ |x - ballX| < |y - ballX| := by
  show F y - (solver.radius - √(solver.radius * solver.radius - (y - ballX) * (y - ballX))) <
      F x - (solver.radius - √(solver.radius * solver.radius - (x - ballX) * (x - ballX))) ↔ _
  rw [hflat x hx.1, hflat y hy.1, sub_lt_sub_iff_left, sub_lt_sub_iff_left,
    Real.sqrt_lt_sqrt_iff ((mem_under_iff hr).mp hy.2), sub_lt_sub_iff_left,
    abs_lt_iff_mul_self_lt]

theorem touched_flat_iff (hf : DefinedOn f D F) (hD : Convex ℝ D) (hball : ballX ∈ D)
    (hsteps : 0 < solver.iterations) :
    solver.touched f ballX ∉ D ↔ ∀ x ∈ D, x < ballX + (5 - 2 * √5) * solver.radius := by
  have hgap : DefinedOn (solver.extended.gap f (ofReal ballX)) (D ∩ solver.under ballX)
      (solver.clearanceAt F ballX) := gap_definedOn hr hf
  have hfalls : ∀ x ∈ D ∩ solver.under ballX, ∀ y ∈ D ∩ solver.under ballX,
      solver.clearanceAt F ballX y < solver.clearanceAt F ballX x ↔
        |x - ballX| < |y - ballX| :=
    fun x hx y hy => clearanceAt_lt_iff hflat hr hx hy
  have ha : ballX = ballX - solver.radius + solver.radius := by ring
  rw [← secondRight_eq]
  constructor
  · contrapose!
    rintro ⟨x, hx, hreach⟩
    have hroot : 2 ≤ √5 := Real.le_sqrt_of_sq_le (by norm_num)
    have hmem : Set.Icc ballX (ballX + ((solver.radius + solver.radius) / goldenRatio ^ 2 -
        (solver.radius + solver.radius) / goldenRatio ^ 3 / 2)) ⊆ D ∩ solver.under ballX := by
      rintro y ⟨hleft, hright⟩
      refine ⟨hD.ordConnected.out hball hx ⟨hleft, hright.trans hreach⟩, by linarith, ?_⟩
      rw [secondRight_eq] at hright
      nlinarith
    exact (Span.lastPlace_mem_of_poised hgap hfalls hr ha hmem solver.iterations).1
  · intro hbehind hmem
    have hmiddle : ballX + ballX = ballX - solver.radius + (ballX - solver.radius) +
        (solver.radius + solver.radius) := by ring
    have hright : ∀ x ∈ D ∩ solver.under ballX,
        x < Span.leftEnd (solver.extended.gap f (ofReal ballX)) (ballX - solver.radius)
          (solver.radius + solver.radius) 1 +
            (solver.radius + solver.radius) / goldenRatio ^ (1 + 1) := by
      intro x hx
      have hlt := hbehind x hx.1
      have hfirst := Span.leftEnd_one hgap hfalls hmiddle
      linarith
    exact Span.lastPlace_of_behind hgap hr hsteps hright ⟨hmem, touched_mem hr⟩

end Flat

theorem contactHeight_extended (f : Curve Extended) (ctx : Context Extended) :
    (solver.extended.contactHeight f ctx (ofReal ballX)).1 =
      solver.extended.plainHeight (fun x => f.eval ⟨ctx.t, x⟩) (ofReal ballX) :=
  (solver.extended.shows_rest (f.shows_evalAt ctx.t)).value _ rfl

end ContactSolver

/-- **The ends of a curve.** Let a curve be concave on a set of places and undefined at all others.
A ball has no contact with it if the curve ends before a place on the right of the middle of the
ball. It has one if the curve goes on to the right end of the ball and, on the other side, somewhat
beyond a place to which the clearance climbs. On a flat curve, a ball whose middle is above it has
no contact exactly if the curve goes on for less than about half a radius to the right, however far
it goes to the left. -/
theorem contact_lost_before_right_end {solver : ContactSolver ℝ} (hr : 0 < solver.radius)
    {f : Curve Extended} {ctx : Context Extended} {D : Set ℝ} {F : ℝ → ℝ}
    (hf : DefinedOn (fun x => f.eval ⟨ctx.t, x⟩) D F) (hF : ConcaveOn ℝ D F) (ballX : ℝ) :
    let lost := Scalar.isNaN (solver.extended.contactHeight f ctx (ofReal ballX)).1 = true
    let under := Set.Icc (ballX - solver.radius) (ballX + solver.radius)
    ((∀ x ∈ D, x < ballX + (√5 - 2) * solver.radius) → lost) ∧
      (∀ p ∈ D ∩ under, IsMaxOn (solver.clearanceAt F ballX) (D ∩ under ∩ Set.Iic p) p →
        p - solver.radius / goldenRatio ^ (solver.iterations + 1) ∈ D →
        ballX + solver.radius ∈ D → ¬ lost) ∧
      (0 < solver.iterations → ballX ∈ D → (∀ x ∈ D, F x = F ballX) →
        (lost ↔ ∀ x ∈ D, x < ballX + (5 - 2 * √5) * solver.radius)) := by
  intro lost under
  have hlost : lost ↔ solver.touched (fun x => f.eval ⟨ctx.t, x⟩) ballX ∉ D := by
    show Scalar.isNaN _ = true ↔ _
    rw [ContactSolver.contactHeight_extended]
    exact ContactSolver.isNaN_plainHeight_iff hr hf
  refine ⟨fun hbehind => ?_, fun p hp hpeak hleft hright => ?_, fun hsteps hball hflat => ?_⟩
  · exact hlost.mpr (ContactSolver.touched_of_behind hr hf hbehind)
  · rw [hlost, not_not]
    exact ContactSolver.touched_of_peak hr hF hp hpeak hf hleft hright
  · exact hlost.trans (ContactSolver.touched_flat_iff hflat hr hf hF.1 hball hsteps)

/-- The curve `0 * sqrt(-x)`, a platform that ends at zero. -/
def platform : Curve Extended :=
  .unconditional (.binary .mul (.constant (ofReal 0)) (.call (.unary .sqrt) [.negate (.var .x)]))

theorem platform_definedOn (t : Extended) :
    DefinedOn (fun x => platform.eval ⟨t, x⟩) (Set.Iic 0) fun _ => 0 where
  value {x} hx := by
    show ofReal 0 * Scalar.sqrt (-ofReal x) = ofReal 0
    rw [ofReal_neg, sqrt_ofReal (neg_nonneg.mpr hx), ofReal_mul, zero_mul]
  undefined {x} hx := by
    show (ofReal 0 * Scalar.sqrt (-ofReal x)).value = none
    rw [ofReal_neg]
    exact lift₂_undefined _ (.inr (sqrt_ofReal_of_neg (neg_neg_of_pos (not_le.mp hx))))

/-- A ball of radius `0.4` above the end of the platform has no contact with it. A unit to the left
it has one. -/
theorem platform_loses_ball :
    let solver : ContactSolver ℝ := ⟨0.4, 28⟩
    let lost (ballX : ℝ) : Prop :=
      Scalar.isNaN (solver.extended.contactHeight platform (.atTime (ofReal 0)) (ofReal ballX)).1
    0 < solver.radius ∧ ConcaveOn ℝ (Set.Iic 0) (fun _ : ℝ => (0 : ℝ)) ∧ lost 0 ∧ ¬ lost (-1) := by
  intro solver lost
  have hr : 0 < solver.radius := by
    show (0 : ℝ) < 0.4
    norm_num
  have hflat : ConcaveOn ℝ (Set.Iic 0) (fun _ : ℝ => (0 : ℝ)) := concaveOn_const 0 (convex_Iic 0)
  have hroot : √5 < 5 / 2 := (Real.sqrt_lt' (by norm_num)).mpr (by norm_num)
  have hroot' : 2 < √5 := Real.lt_sqrt_of_sq_lt (by norm_num)
  have hends (ballX : ℝ) (hball : ballX ≤ 0) :
      lost ballX ↔ ∀ x ∈ Set.Iic (0 : ℝ), x < ballX + (5 - 2 * √5) * solver.radius :=
    (contact_lost_before_right_end hr (platform_definedOn (ofReal 0)) hflat ballX).2.2
      (by decide) hball fun _ _ => rfl
  refine ⟨hr, hflat, (hends 0 le_rfl).mpr fun x hx => ?_, fun hlost => ?_⟩
  · have hreach : 0 < (5 - 2 * √5) * solver.radius := mul_pos (by linarith) hr
    have hx : x ≤ 0 := hx
    linarith
  · have hlt := (hends (-1) (by norm_num)).mp hlost 0 Set.self_mem_Iic
    have hreach : (5 - 2 * √5) * solver.radius < 1 := by
      show (5 - 2 * √5) * (0.4 : ℝ) < 1
      linarith
    linarith

end RollingBall
