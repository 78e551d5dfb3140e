import RollingBall.Proofs.Contact.Golden
import RollingBall.Proofs.Numbers.Exact

/-!
# The search where a function ends

A function of the extended reals may be undefined outside a set of reals. A comparison with an
undefined value fails, and where the comparison fails the search goes to the right. So it comes from
the left to a place to which the function climbs (`Span.le_rightEnd`), but once its right place is
behind the function it never comes back (`Span.behind_leftEnd`). Around a place from which the
function falls alike on both sides, the first step goes to the right, and the search closes in on
the place only if the function is defined at the right place of the second interval
(`Span.poised_leftEnd`).

The golden ratio determines the places of an interval by its left end and its width
(`Span.golden`). So the search is known by the left ends of its intervals (`Span.search_golden`).

## Main definitions

* `Extended.DefinedOn`: a function is real on a set of reals and undefined at the others.
* `Span.golden`: an interval that the golden ratio divides.
* `Span.leftEnd`: the left end of the interval after some steps.
* `Span.lastPlace`: the place at which the search ends.
-/

namespace RollingBall

open scoped Reals
open Real (goldenRatio goldenRatio_pos)
open Extended

/-! ## Functions with a domain -/

/-- A function has these real values on a set and no value at the other real numbers. -/
structure Extended.DefinedOn (g : Extended → Extended) (D : Set ℝ) (G : ℝ → ℝ) : Prop where
  value {x : ℝ} : x ∈ D → g (ofReal x) = ofReal (G x)
  undefined {x : ℝ} : x ∉ D → (g (ofReal x)).value = none

namespace Extended.DefinedOn

variable {g : Extended → Extended} {D : Set ℝ} {G : ℝ → ℝ} (hg : DefinedOn g D G) {x y : ℝ}

include hg

/-- Of two values one is less only if both are defined. -/
theorem lt_iff : g (ofReal x) < g (ofReal y) ↔ x ∈ D ∧ y ∈ D ∧ G x < G y := by
  by_cases hx : x ∈ D
  · by_cases hy : y ∈ D
    · rw [hg.value hx, hg.value hy, ofReal_lt_ofReal]
      simp only [hx, hy, true_and]
    · exact iff_of_false (not_lt_of_undefined (.inr (hg.undefined hy))) fun h => hy h.2.1
  · exact iff_of_false (not_lt_of_undefined (.inl (hg.undefined hx))) fun h => hx h.1

theorem isNaN_add_iff (r : ℝ) : Scalar.isNaN (g (ofReal x) + ofReal r) ↔ x ∉ D := by
  rw [Scalar.Ieee.isNaN_iff]
  by_cases hx : x ∈ D
  · rw [hg.value hx, ofReal_add]
    exact iff_of_false (Option.some_ne_none _) (not_not_intro hx)
  · exact iff_of_true (lift₂_undefined _ (.inl (hg.undefined hx))) hx

end Extended.DefinedOn

/-! ## Widths -/

theorem width_pos {w : ℝ} (hw : 0 < w) (n : ℕ) : 0 < w / goldenRatio ^ n :=
  div_pos hw (pow_pos goldenRatio_pos n)

theorem width_succ (w : ℝ) (n : ℕ) :
    w / goldenRatio ^ n / goldenRatio = w / goldenRatio ^ (n + 1) := by
  rw [div_div, ← pow_succ]

theorem width_add (w : ℝ) (m n : ℕ) :
    w / goldenRatio ^ m / goldenRatio ^ n = w / goldenRatio ^ (m + n) := by
  rw [div_div, ← pow_add]

theorem half_width (r : ℝ) (n : ℕ) : (r + r) / goldenRatio ^ n / 2 = r / goldenRatio ^ n := by
  rw [add_div r r, add_self_div_two]

theorem half_width_lt {w : ℝ} (hw : 0 < w) (n : ℕ) :
    w / goldenRatio ^ n / 2 < w / goldenRatio ^ (n + 1) := by
  rw [← width_succ]
  exact div_lt_div_of_pos_left (width_pos hw n) goldenRatio_pos Real.goldenRatio_lt_two

theorem right_part_mono {v w : ℝ} (h : v ≤ w) :
    v / goldenRatio - v / goldenRatio ^ 2 / 2 ≤ w / goldenRatio - w / goldenRatio ^ 2 / 2 := by
  have hpart := golden_part_lt one_pos
  have hpos := width_pos one_pos 2
  have hscale : (0 : ℝ) ≤ 1 / goldenRatio - 1 / goldenRatio ^ 2 / 2 := by linarith
  calc v / goldenRatio - v / goldenRatio ^ 2 / 2
      = v * (1 / goldenRatio - 1 / goldenRatio ^ 2 / 2) := by ring
    _ ≤ w * (1 / goldenRatio - 1 / goldenRatio ^ 2 / 2) := mul_le_mul_of_nonneg_right h hscale
    _ = w / goldenRatio - w / goldenRatio ^ 2 / 2 := by ring

/-! ## The left ends of the search -/

namespace Span

variable (g : Extended → Extended) (a w : ℝ)

/-- The interval of a width from a left end, with the two places at which the golden ratio divides
it. -/
noncomputable def golden : Span Extended :=
  ⟨ofReal w, ofReal a, ofReal (a + w), ofReal (a + w / goldenRatio ^ 2),
    ofReal (a + w / goldenRatio)⟩

/-- The left end of the side that a step keeps. -/
noncomputable def keptEnd : ℝ :=
  if g (ofReal (a + w / goldenRatio)) < g (ofReal (a + w / goldenRatio ^ 2)) then a
  else a + w / goldenRatio ^ 2

/-- The left end after some steps. -/
noncomputable def leftEnd : ℕ → ℝ
  | 0 => a
  | n + 1 => keptEnd g (leftEnd n) (w / goldenRatio ^ n)

/-- The place at which a search from an interval of this radius ends after some steps, the middle of
the side that one more step would keep. -/
noncomputable def lastPlace (r : ℝ) (n : ℕ) : ℝ :=
  leftEnd g a (r + r) (n + 1) + r / goldenRatio ^ (n + 1)

/-- **A step.** The side that is kept is divided by the golden ratio in turn. -/
theorem narrow_golden :
    (golden a w).narrow g = golden (keptEnd g a w) (w / goldenRatio) := by
  have hne : goldenRatio ≠ 0 := goldenRatio_pos.ne'
  have hparts := golden_parts w
  have hparts' := golden_parts (w / goldenRatio)
  have htwice := golden_twice w
  unfold narrow keptEnd golden
  dsimp only
  rw [ofReal_goldenRatio, ofReal_mul, ← sq, ofReal_div w hne, ofReal_div _ (pow_ne_zero 2 hne),
    ofReal_add, ofReal_div _ hne, ofReal_add, htwice]
  split
  · rfl
  · have hb : a + w = a + w / goldenRatio ^ 2 + w / goldenRatio := by linarith
    have hc : a + w / goldenRatio =
        a + w / goldenRatio ^ 2 + w / goldenRatio / goldenRatio ^ 2 := by linarith
    rw [← hb, ← hc]

theorem best_golden :
    (golden a w).best g = ofReal (keptEnd g a w + w / goldenRatio / 2) := by
  have hparts := golden_parts w
  unfold best keptEnd golden
  dsimp only
  rw [ofReal_two, ofReal_add, ofReal_div _ two_ne_zero, ofReal_add, ofReal_div _ two_ne_zero]
  split
  · congr 1
    ring
  · congr 1
    linarith

theorem search_golden (n : ℕ) :
    (golden a w).search g n = golden (leftEnd g a w n) (w / goldenRatio ^ n) := by
  induction n with
  | zero => rw [pow_zero, div_one]; rfl
  | succ n ih => rw [search_succ, ih, narrow_golden, width_succ]; rfl

/-- **The search.** It ends at the last place. -/
theorem best_search_golden (r : ℝ) (n : ℕ) :
    ((golden a (r + r)).search g n).best g = ofReal (lastPlace g a r n) := by
  rw [search_golden, best_golden, width_succ, half_width]
  rfl

variable {g a w} {r : ℝ}

/-- A step keeps the left side or the right side. -/
theorem keptEnd_eq : keptEnd g a w = a ∨ keptEnd g a w = a + w / goldenRatio ^ 2 := by
  unfold keptEnd
  split
  · exact .inl rfl
  · exact .inr rfl

/-- What a step keeps is a part of what there was. -/
theorem keptEnd_bounds (hw : 0 < w) :
    a ≤ keptEnd g a w ∧ keptEnd g a w + w / goldenRatio ≤ a + w := by
  have hparts := golden_parts w
  have hpos := width_pos hw 2
  rcases keptEnd_eq (g := g) (a := a) (w := w) with h | h <;> rw [h] <;> constructor <;> linarith

theorem leftEnd_bounds (hw : 0 < w) (n : ℕ) :
    a ≤ leftEnd g a w n ∧ leftEnd g a w n + w / goldenRatio ^ n ≤ a + w := by
  induction n with
  | zero => simp [leftEnd]
  | succ n ih =>
    have hstep := keptEnd_bounds (g := g) (a := leftEnd g a w n) (width_pos hw n)
    rw [width_succ] at hstep
    exact ⟨ih.1.trans hstep.1, hstep.2.trans ih.2⟩

theorem lastPlace_mem (hr : 0 < r) (n : ℕ) : lastPlace g a r n ∈ Set.Icc a (a + (r + r)) := by
  obtain ⟨hleft, hright⟩ := leftEnd_bounds (g := g) (a := a) (add_pos hr hr) (n + 1)
  have hpos := width_pos hr (n + 1)
  rw [add_div] at hright
  unfold lastPlace
  constructor <;> linarith

variable {D : Set ℝ} {G : ℝ → ℝ} (hg : DefinedOn g D G) {p : ℝ}

include hg

/-! ## Behind the domain -/

/-- If the function is undefined at the right place, a step keeps the right side. -/
theorem keptEnd_of_undefined (h : a + w / goldenRatio ∉ D) :
    keptEnd g a w = a + w / goldenRatio ^ 2 :=
  if_neg fun hlt => h (hg.lt_iff.mp hlt).1

theorem leftEnd_of_behind {n : ℕ}
    (hbehind : ∀ x ∈ D, x < leftEnd g a w n + w / goldenRatio ^ (n + 1)) :
    leftEnd g a w (n + 1) = leftEnd g a w n + w / goldenRatio ^ (n + 2) := by
  have hplace : leftEnd g a w n + w / goldenRatio ^ n / goldenRatio ∉ D := by
    rw [width_succ]
    exact fun hmem => lt_irrefl _ (hbehind _ hmem)
  rw [leftEnd, keptEnd_of_undefined hg hplace, width_add]

/-- **No way back.** Once the right place is behind the domain, it stays there. -/
theorem behind_leftEnd (hw : 0 < w) {n m : ℕ} (hnm : n ≤ m)
    (hbehind : ∀ x ∈ D, x < leftEnd g a w n + w / goldenRatio ^ (n + 1)) :
    ∀ x ∈ D, x < leftEnd g a w m + w / goldenRatio ^ (m + 1) := by
  induction m, hnm using Nat.le_induction with
  | base => exact hbehind
  | succ m _ ih =>
    intro x hx
    have hpart := half_width_lt hw (m + 1)
    have hlt := ih x hx
    rw [leftEnd_of_behind hg ih]
    show x < leftEnd g a w m + w / goldenRatio ^ (m + 2) + w / goldenRatio ^ (m + 2)
    linarith

theorem lastPlace_of_behind (hr : 0 < r) {n m : ℕ} (hnm : n ≤ m)
    (hbehind : ∀ x ∈ D, x < leftEnd g a (r + r) n + (r + r) / goldenRatio ^ (n + 1)) :
    lastPlace g a r m ∉ D := by
  have hall := behind_leftEnd hg (add_pos hr hr) hnm hbehind
  have hpart := half_width_lt (add_pos hr hr) (m + 1)
  intro hmem
  have hlt := hall _ hmem
  rw [half_width] at hpart
  rw [lastPlace, leftEnd_of_behind hg hall, add_div r r (goldenRatio ^ (m + 1))] at hlt
  linarith

/-! ## From the left -/

section Climbing

variable (hclimb : ∀ x ∈ D, ∀ y ∈ D, x < y → y ≤ p → G x ≤ G y)

include hclimb

/-- If the function climbs to a place of the interval, a step keeps a side that reaches as far. -/
theorem le_rightEnd_keptEnd (hw : 0 < w) (hp : p ≤ a + w) :
    p ≤ keptEnd g a w + w / goldenRatio := by
  have hparts := golden_parts w
  have hplaces : a + w / goldenRatio ^ 2 < a + w / goldenRatio := by
    have hpart := golden_part_lt hw
    linarith
  unfold keptEnd
  split
  · rename_i hlt
    obtain ⟨hd, hc, hvalue⟩ := hg.lt_iff.mp hlt
    by_contra hbefore
    exact absurd (hclimb _ hc _ hd hplaces (not_le.mp hbefore).le) (not_le.mpr hvalue)
  · linarith

/-- **The way from the left.** Every interval of the search reaches as far as the function climbs,
though the function may be undefined before. -/
theorem le_rightEnd (hw : 0 < w) (hp : p ≤ a + w) (n : ℕ) :
    p ≤ leftEnd g a w n + w / goldenRatio ^ n := by
  induction n with
  | zero => simpa [leftEnd] using hp
  | succ n ih =>
    have hstep := le_rightEnd_keptEnd hg hclimb (width_pos hw n) ih
    rw [width_succ] at hstep
    exact hstep

theorem sub_le_lastPlace (hr : 0 < r) (hp : p ≤ a + (r + r)) (n : ℕ) :
    p - r / goldenRatio ^ (n + 1) ≤ lastPlace g a r n := by
  have hright := le_rightEnd hg hclimb (add_pos hr hr) hp (n + 1)
  rw [add_div] at hright
  unfold lastPlace
  linarith

end Climbing

/-! ## Around the middle -/

omit hg

/-- How a place divides the intervals of a search that closes in on it and began around it: it is in
the middle of the interval, of its left side, or of the smaller part on the left. -/
def Poised (p a w : ℝ) : Prop :=
  p + p = a + a + w ∨ p + p = a + a + w / goldenRatio ∨ p + p = a + a + w / goldenRatio ^ 2

/-- Neither the middle nor the right place is before the place. -/
theorem Poised.right_mem (h : Poised p a w) (hw : 0 < w) :
    p ≤ a + w / 2 ∧ a + w / 2 ≤ a + w / goldenRatio ∧
      a + w / goldenRatio ≤ p + (w / goldenRatio - w / goldenRatio ^ 2 / 2) := by
  have hhalf := half_width_lt hw 0
  have hlt := golden_part_lt hw
  have hparts := golden_parts w
  have hpos := width_pos hw 2
  rw [pow_zero, div_one, zero_add, pow_one] at hhalf
  rcases h with h | h | h <;> refine ⟨?_, ?_, ?_⟩ <;> linarith

/-- From the second interval on, the right place is not behind that of the second interval. -/
theorem Poised.right_le {n : ℕ} (h : Poised p a (w / goldenRatio ^ n)) (hw : 0 < w) (hn : 1 ≤ n) :
    a + w / goldenRatio ^ (n + 1) ≤ p + (w / goldenRatio ^ 2 - w / goldenRatio ^ 3 / 2) := by
  obtain ⟨-, -, hright⟩ := h.right_mem (width_pos hw n)
  have hnarrower : w / goldenRatio ^ n ≤ w / goldenRatio ^ 1 :=
    div_le_div_of_nonneg_left hw.le (pow_pos goldenRatio_pos 1)
      (pow_le_pow_right₀ Real.one_lt_goldenRatio.le hn)
  have hbound := right_part_mono hnarrower
  simp only [width_succ, width_add] at hright hbound
  linarith

variable (hfalls : ∀ x ∈ D, ∀ y ∈ D, G y < G x ↔ |x - p| < |y - p|)

include hg hfalls

/-- If the function falls alike on both sides of the middle, a step keeps the right side. -/
theorem keptEnd_of_centred (ha : p + p = a + a + w) :
    p + p = keptEnd g a w + keptEnd g a w + w / goldenRatio / goldenRatio ^ 2 := by
  have hparts := golden_parts w
  have hparts' := golden_parts (w / goldenRatio)
  have htwice := golden_twice w
  have hnot : ¬ g (ofReal (a + w / goldenRatio)) < g (ofReal (a + w / goldenRatio ^ 2)) := by
    intro hlt
    obtain ⟨hd, hc, hvalue⟩ := hg.lt_iff.mp hlt
    have hcloser := (hfalls _ hc _ hd).mp hvalue
    have hmirror : a + w / goldenRatio - p = -(a + w / goldenRatio ^ 2 - p) := by linarith
    rw [hmirror, abs_neg] at hcloser
    exact lt_irrefl _ hcloser
  rw [keptEnd, if_neg hnot]
  linarith

/-- **A step.** While the function is defined from the place to the right one of the two, the search
closes in on the place. -/
theorem Poised.keptEnd (h : Poised p a w) (hw : 0 < w)
    (hmem : Set.Icc p (a + w / goldenRatio) ⊆ D) :
    Poised p (keptEnd g a w) (w / goldenRatio) := by
  have hparts := golden_parts w
  have hpart := golden_part_lt hw
  have hhalf := half_width_lt hw 1
  rw [pow_one] at hhalf
  have hpos := width_pos hw 2
  -- If neither place is before `p`, the left one is nearer to it and the left side is kept.
  have hleft : p ≤ a + w / goldenRatio ^ 2 → Span.keptEnd g a w = a := by
    intro hc
    refine if_pos (hg.lt_iff.mpr ⟨hmem ⟨by linarith, le_rfl⟩, hmem ⟨hc, by linarith⟩, ?_⟩)
    rw [hfalls _ (hmem ⟨hc, by linarith⟩) _ (hmem ⟨by linarith, le_rfl⟩),
      abs_of_nonneg (by linarith), abs_of_nonneg (by linarith)]
    linarith
  rcases h with ha | ha | ha
  · exact .inr (.inr (keptEnd_of_centred hg hfalls ha))
  · rw [hleft (by linarith)]
    exact .inl ha
  · rw [hleft (by linarith)]
    refine .inr (.inl ?_)
    rw [golden_twice]
    exact ha

/-- The first step goes to the right, wherever the function is defined. -/
theorem leftEnd_one (ha : p + p = a + a + w) :
    p + p = leftEnd g a w 1 + leftEnd g a w 1 + w / goldenRatio ^ 3 := by
  have hstep := keptEnd_of_centred hg hfalls ha
  rw [div_div w, ← pow_succ'] at hstep
  rw [leftEnd, leftEnd, pow_zero, div_one]
  exact hstep

/-- **The search.** If the function is defined from the place in the middle to the right place of
the second interval, the search closes in on it. -/
theorem poised_leftEnd (hw : 0 < w) (ha : p + p = a + a + w)
    (hmem : Set.Icc p (p + (w / goldenRatio ^ 2 - w / goldenRatio ^ 3 / 2)) ⊆ D) {n : ℕ}
    (hn : 1 ≤ n) : Poised p (leftEnd g a w n) (w / goldenRatio ^ n) := by
  induction n, hn using Nat.le_induction with
  | base =>
    refine .inr (.inr ?_)
    rw [width_add]
    exact leftEnd_one hg hfalls ha
  | succ n hn ih =>
    have hsub : Set.Icc p (leftEnd g a w n + w / goldenRatio ^ n / goldenRatio) ⊆ D := by
      rw [width_succ]
      exact (Set.Icc_subset_Icc_right (ih.right_le hw hn)).trans hmem
    have hnext := ih.keptEnd hg hfalls (width_pos hw n) hsub
    rw [width_succ] at hnext
    exact hnext

/-- A search that closes in on the place in the middle ends where the function is defined. -/
theorem lastPlace_mem_of_poised (hr : 0 < r) (ha : p = a + r)
    (hmem : Set.Icc p (p + ((r + r) / goldenRatio ^ 2 - (r + r) / goldenRatio ^ 3 / 2)) ⊆ D)
    (n : ℕ) : lastPlace g a r n ∈ D := by
  have hw := add_pos hr hr
  have hpoised := poised_leftEnd hg hfalls hw (by linarith) hmem n.succ_pos
  obtain ⟨hmiddle, hplace, -⟩ := hpoised.right_mem (width_pos hw (n + 1))
  rw [half_width] at hmiddle hplace
  rw [width_succ] at hplace
  exact hmem ⟨hmiddle, hplace.trans (hpoised.right_le hw n.succ_pos)⟩

end Span

end RollingBall
