import RollingBall.Proofs.Contact.Shifts

/-!
# Golden-section search

Each step of the search keeps one of its two probes, because the golden ratio divides what is left
as it divided the whole (`Bracket.Golden`), and it keeps the peak of a clearance that climbs to it
and falls after it (`PeaksAt`). The width shrinks by the golden ratio in every step. So the last
probe is near the peak (`ContactSolver.exists_rest_eq`), and the number of steps is enough for the
tolerance that it was chosen for (`ContactSolver.width_le_tolerance`).

## Main definitions

* `PeaksAt`: a function has its only peak at a place of an interval.
* `Bracket.Golden`: an interval with its probes where the golden ratio divides it.
* `ContactSolver.clearanceAt`: the clearance of a function.
-/

namespace RollingBall

open scoped Reals
open Real (goldenRatio goldenRatio_pos goldenRatio_sq one_lt_goldenRatio)

/-! ## Peaks -/

/-- The function climbs from `a` to `p` and falls from there to `b`. -/
structure PeaksAt (g : ℝ → ℝ) (p a b : ℝ) : Prop where
  left : a ≤ p
  right : p ≤ b
  climbs : StrictMonoOn g (Set.Icc a p)
  falls : StrictAntiOn g (Set.Icc p b)

namespace PeaksAt

variable {g : ℝ → ℝ} {p a b c d : ℝ} (h : PeaksAt g p a b)

include h

/-- If the function is higher at the first of two places, the peak is not behind the second. -/
theorem le_of_lt (hc : a ≤ c) (hcd : c < d) (hlt : g d < g c) : p ≤ d := by
  by_contra hbehind
  have hd : d ≤ p := (not_le.mp hbehind).le
  have hclimb : g c < g d := h.climbs ⟨hc, hcd.le.trans hd⟩ ⟨hc.trans hcd.le, hd⟩ hcd
  exact lt_asymm hlt hclimb

/-- If the function is not higher at the first of two places, the peak is not before it. -/
theorem ge_of_not_lt (hcd : c < d) (hd : d ≤ b) (hlt : ¬ g d < g c) : c ≤ p := by
  by_contra hbefore
  have hc : p ≤ c := (not_le.mp hbefore).le
  exact hlt (h.falls ⟨hc, hcd.le.trans hd⟩ ⟨hc.trans hcd.le, hd⟩ hcd)

theorem le_peak {x : ℝ} (hx : x ∈ Set.Icc a b) : g x ≤ g p := by
  rcases le_total x p with hle | hge
  · exact h.climbs.monotoneOn ⟨hx.1, hle⟩ ⟨h.left, le_rfl⟩ hle
  · exact h.falls.antitoneOn ⟨le_rfl, h.right⟩ ⟨hge, hx.2⟩ hge

theorem narrowed {a' b' : ℝ} (ha : a ≤ a') (hp : a' ≤ p) (hp' : p ≤ b') (hb : b' ≤ b) :
    PeaksAt g p a' b' where
  left := hp
  right := hp'
  climbs := h.climbs.mono (Set.Icc_subset_Icc_left ha)
  falls := h.falls.mono (Set.Icc_subset_Icc_right hb)

end PeaksAt

/-! ## Intervals divided by the golden ratio -/

/-- The two parts of a width that the golden ratio divides make up the whole. -/
theorem golden_parts (w : ℝ) : w / goldenRatio ^ 2 + w / goldenRatio = w := by
  have hne : goldenRatio ≠ 0 := goldenRatio_pos.ne'
  have hsum : (1 + goldenRatio) / goldenRatio ^ 2 = 1 := by
    rw [add_comm, ← goldenRatio_sq, div_self (pow_ne_zero 2 hne)]
  calc w / goldenRatio ^ 2 + w / goldenRatio
      = w * ((1 + goldenRatio) / goldenRatio ^ 2) := by
        rw [add_div, sq, ← div_div goldenRatio, div_self hne]
        ring
    _ = w := by rw [hsum, mul_one]

theorem golden_twice (w : ℝ) : w / goldenRatio / goldenRatio = w / goldenRatio ^ 2 := by
  rw [div_div, sq]

theorem golden_part_lt {w : ℝ} (hw : 0 < w) : w / goldenRatio ^ 2 < w / goldenRatio := by
  have hpos := goldenRatio_pos
  refine div_lt_div_of_pos_left hw hpos ?_
  rw [goldenRatio_sq]
  linarith

/-- The probes divide the interval by the golden ratio, from either side, and saw the values of a
function. -/
structure Bracket.Golden (g : ℝ → ℝ) (k : Bracket ℝ) : Prop where
  width_pos : 0 < k.width
  b_eq : k.b = k.a + k.width
  c_eq : k.c = k.a + k.width / goldenRatio ^ 2
  d_eq : k.d = k.a + k.width / goldenRatio
  yc_eq : k.yc = g k.c
  yd_eq : k.yd = g k.d

namespace Bracket.Golden

variable {g : ℝ → ℝ} {k : Bracket ℝ} (h : k.Golden g)

include h

theorem a_le_c : k.a ≤ k.c := by
  have hpart : 0 < k.width / goldenRatio ^ 2 := div_pos h.width_pos (pow_pos goldenRatio_pos 2)
  rw [h.c_eq]
  linarith

theorem c_lt_d : k.c < k.d := by
  have hpart := golden_part_lt h.width_pos
  rw [h.c_eq, h.d_eq]
  linarith

theorem b_eq_add : k.b = k.c + k.width / goldenRatio := by
  have hparts := golden_parts k.width
  rw [h.b_eq, h.c_eq]
  linarith

theorem d_le_b : k.d ≤ k.b := by
  have hparts := golden_parts k.width
  have hpart : 0 < k.width / goldenRatio ^ 2 := div_pos h.width_pos (pow_pos goldenRatio_pos 2)
  rw [h.b_eq, h.d_eq]
  linarith

theorem best_mem : k.best ∈ Set.Icc k.a k.b := by
  have hac := h.a_le_c
  have hcd := h.c_lt_d
  have hdb := h.d_le_b
  unfold Bracket.best
  norm_num
  split <;> constructor <;> linarith

variable {p : ℝ} (hpeak : PeaksAt g p k.a k.b)

include hpeak

/-- The side of the higher probe has the peak. -/
theorem peaksAt_left (hlt : k.yd < k.yc) : PeaksAt g p k.a k.d := by
  rw [h.yd_eq, h.yc_eq] at hlt
  exact hpeak.narrowed le_rfl hpeak.left (hpeak.le_of_lt h.a_le_c h.c_lt_d hlt) h.d_le_b

theorem peaksAt_right (hlt : ¬ k.yd < k.yc) : PeaksAt g p k.c k.b := by
  rw [h.yd_eq, h.yc_eq] at hlt
  exact hpeak.narrowed h.a_le_c (hpeak.ge_of_not_lt h.c_lt_d h.d_le_b hlt) hpeak.right le_rfl

/-- The middle of the side that has the peak is at most half a side away from it. -/
theorem abs_best_sub_le : |k.best - p| ≤ k.width / goldenRatio / 2 := by
  unfold Bracket.best
  by_cases hlt : k.yd < k.yc
  · have hside := h.peaksAt_left hpeak hlt
    have hleft := hside.left
    have hright := hside.right
    have hd := h.d_eq
    rw [if_pos hlt, abs_le]
    norm_num
    constructor <;> linarith
  · have hside := h.peaksAt_right hpeak hlt
    have hleft := hside.left
    have hright := hside.right
    have hb := h.b_eq_add
    rw [if_neg hlt, abs_le]
    norm_num
    constructor <;> linarith

end Bracket.Golden

/-! ## The search -/

namespace ContactSolver

variable (solver : ContactSolver ℝ) (f : ℝ → ℝ) (ballX : ℝ)

/-- The clearance of a function under a ball. -/
noncomputable def clearanceAt (x : ℝ) : ℝ := f x - solver.arc (x - ballX)

theorem golden_bracket (hr : 0 < solver.radius) :
    (solver.bracket (.pure f) ballX ()).1.Golden (solver.clearanceAt f ballX) where
  width_pos := by
    show 0 < solver.radius * 2.0
    norm_num
    exact hr
  b_eq := by
    show ballX + solver.radius = ballX - solver.radius + solver.radius * 2.0
    norm_num
    ring
  c_eq := by
    rw [sq]
    rfl
  d_eq := rfl
  yc_eq := rfl
  yd_eq := rfl

variable {solver f ballX} {k : Bracket ℝ} (h : k.Golden (solver.clearanceAt f ballX))

include h

/-- **A step.** One probe is kept, and the new one divides the side that is left. -/
theorem golden_narrow :
    (solver.narrow (.pure f) ballX k ()).1.Golden (solver.clearanceAt f ballX) := by
  have hwidth : 0 < k.width / goldenRatio := div_pos h.width_pos goldenRatio_pos
  have hparts := golden_parts (k.width / goldenRatio)
  have htwice := golden_twice k.width
  unfold narrow
  dsimp only
  by_cases hlt : k.yd < k.yc
  · rw [if_pos hlt]
    refine ⟨hwidth, h.d_eq, ?_, ?_, rfl, h.yc_eq⟩
    · rw [sq]
      rfl
    · exact h.c_eq.trans (congrArg (k.a + ·) htwice.symm)
  · rw [if_neg hlt]
    refine ⟨hwidth, h.b_eq_add, ?_, rfl, h.yd_eq, rfl⟩
    show k.d = k.c + k.width / goldenRatio / goldenRatio ^ 2
    rw [h.d_eq, h.c_eq]
    linarith

omit h in
theorem width_narrow : (solver.narrow (.pure f) ballX k ()).1.width = k.width / goldenRatio := by
  unfold narrow
  dsimp only
  split <;> rfl

variable {p : ℝ}

theorem peaksAt_narrow (hpeak : PeaksAt (solver.clearanceAt f ballX) p k.a k.b) :
    PeaksAt (solver.clearanceAt f ballX) p (solver.narrow (.pure f) ballX k ()).1.a
      (solver.narrow (.pure f) ballX k ()).1.b := by
  unfold narrow
  dsimp only
  by_cases hlt : k.yd < k.yc
  · rw [if_pos hlt]
    exact h.peaksAt_left hpeak hlt
  · rw [if_neg hlt]
    exact h.peaksAt_right hpeak hlt

/-- **The search.** After any number of steps the interval is divided as in the beginning, it has
the peak, and each step made it shorter by the golden ratio. -/
theorem golden_search (hpeak : PeaksAt (solver.clearanceAt f ballX) p k.a k.b) (n : ℕ) :
    let last := (solver.search (.pure f) ballX n (k, ())).1
    last.Golden (solver.clearanceAt f ballX) ∧
      PeaksAt (solver.clearanceAt f ballX) p last.a last.b ∧
      last.width = k.width / goldenRatio ^ n := by
  induction n generalizing k with
  | zero => exact ⟨h, hpeak, by rw [pow_zero, div_one]; rfl⟩
  | succ n ih =>
    obtain ⟨hgolden, hpeaks, hwidth⟩ := ih (golden_narrow h) (peaksAt_narrow h hpeak)
    rw [width_narrow, div_div, ← pow_succ'] at hwidth
    exact ⟨hgolden, hpeaks, hwidth⟩

omit h in
/-- The last probe of the search is near the peak. -/
theorem abs_best_search_sub_le (hr : 0 < solver.radius)
    (hpeak : PeaksAt (solver.clearanceAt f ballX) p (ballX - solver.radius)
      (ballX + solver.radius)) :
    |(solver.search (.pure f) ballX solver.iterations (solver.bracket (.pure f) ballX ())).1.best -
      p| ≤ solver.radius / goldenRatio ^ (solver.iterations + 1) := by
  obtain ⟨hgolden, hpeaks, hwidth⟩ :=
    golden_search (solver.golden_bracket f ballX hr) hpeak solver.iterations
  refine (hgolden.abs_best_sub_le hpeaks).trans (le_of_eq ?_)
  rw [hwidth]
  show solver.radius * 2.0 / goldenRatio ^ solver.iterations / goldenRatio / 2 = _
  rw [pow_succ]
  have hpos := goldenRatio_pos
  norm_num
  field_simp

omit h in
/-- **The contact.** It is taken at a place near the peak of the clearance. -/
theorem exists_rest_eq (hr : 0 < solver.radius)
    (hpeak : PeaksAt (solver.clearanceAt f ballX) p (ballX - solver.radius)
      (ballX + solver.radius)) :
    ∃ x, |x - p| ≤ solver.radius / goldenRatio ^ (solver.iterations + 1) ∧
      (solver.rest (.pure f) ballX ()).1 = solver.clearanceAt f ballX x + solver.radius :=
  ⟨_, abs_best_search_sub_le hr hpeak, rfl⟩

/-! ## The number of steps -/

omit h in
/-- One step less than the logarithms ask for is counted, if that is not too many. -/
theorem iterationCount_eq (width tolerance : ℝ) :
    iterationCount width tolerance =
      min (UInt32.size - 1) (⌈Real.logb goldenRatio (width / tolerance)⌉₊ - 1) := by
  set q := Real.logb goldenRatio (width / tolerance)
  have hsteps : iterationCount width tolerance =
      if 0 < (⌈q⌉ - 1 : ℝ) then min (UInt32.size - 1) ⌊(⌈q⌉ - 1 : ℝ)⌋₊ else 0 := by
    unfold iterationCount
    show (if (true && decide ((0.0 : ℝ) < ⌈q⌉ - 1.0)) = true then
      min (UInt32.size - 1) ⌊(⌈q⌉ - 1.0 : ℝ)⌋₊ else 0) = _
    simp only [Bool.true_and, decide_eq_true_eq]
    norm_num
  have hfloor : ⌊(⌈q⌉ - 1 : ℝ)⌋₊ = ⌈q⌉₊ - 1 := by
    rw [Nat.floor_sub_one, ← Int.floor_toNat, Int.floor_intCast, Int.ceil_toNat]
  rw [hsteps, hfloor]
  split
  · rfl
  · rename_i hnone
    rw [← hfloor, Nat.floor_of_nonpos (not_lt.mp hnone), Nat.min_zero]

omit h in
/-- One step more than counted is as many as the logarithms ask for. -/
theorem logb_le_iterationCount {width tolerance : ℝ}
    (hcount : Real.logb goldenRatio (width / tolerance) ≤ UInt32.size) :
    Real.logb goldenRatio (width / tolerance) ≤ (iterationCount width tolerance + 1 : ℕ) := by
  have hceil : ⌈Real.logb goldenRatio (width / tolerance)⌉₊ ≤ UInt32.size := Nat.ceil_le.mpr hcount
  rw [iterationCount_eq, ← Nat.ceil_le, min_eq_right (Nat.sub_le_sub_right hceil 1)]
  omega

omit h in
/-- **Precision.** After as many steps as are counted for a tolerance, and the half step of the last
probe, the interval is within the tolerance, unless that takes more steps than can be counted. -/
theorem width_le_tolerance {width tolerance : ℝ} (hw : 0 < width) (ht : 0 < tolerance)
    (hcount : Real.logb goldenRatio (width / tolerance) ≤ UInt32.size) :
    width / goldenRatio ^ (iterationCount width tolerance + 1) ≤ tolerance := by
  have hsteps := logb_le_iterationCount hcount
  have hratio : width / tolerance ≤ goldenRatio ^ (iterationCount width tolerance + 1) := by
    rw [← Real.rpow_natCast]
    exact (Real.logb_le_iff_le_rpow one_lt_goldenRatio (div_pos hw ht)).mp hsteps
  rw [div_le_iff₀ ht] at hratio
  rw [div_le_iff₀ (pow_pos goldenRatio_pos _)]
  linarith

end ContactSolver

end RollingBall
