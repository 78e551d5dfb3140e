import RollingBall.Proofs.Contact.Golden

/-!
# The search stays under the ball

Whatever a function does, each step of the search keeps a part of its interval, and its probes are
inside of it (`Bracket.Inside`). So all places where the function is read are under the ball, where
the arc of the ball has a height. Only the function there counts (`ContactSolver.rest_of_showsOn`),
and the contact is taken at one of these places, on the curve itself
(`contact_touches_curve_below`).

## Main definitions

* `Probe.ShowsOn`: a probe sees the values of a function on a set of places.
* `Probe.recorded`: a probe that keeps a list of its places.
* `ContactSolver.probed`: the places where a search reads the height.
* `Bracket.Inside`: an interval of the search is under the ball.
-/

namespace RollingBall

open scoped Reals

variable {α σ : Type}

/-! ## Probes -/

/-- On a set of places, in the states of a kind, the probe sees the values of a function, and it
leaves a state of that kind. -/
structure Probe.ShowsOn (S : Set α) (Kind : σ → Prop) (height : Probe α σ) (f : α → α) : Prop where
  value {x : α} {s : σ} : x ∈ S → Kind s → (height x s).1 = f x
  keeps {x : α} {s : σ} : x ∈ S → Kind s → Kind (height x s).2

/-- The probe that also keeps a list of the places it was put to, the last one first. -/
def Probe.recorded (height : Probe α σ) : Probe α (σ × List α) := fun x (s, places) =>
  let (y, s) := height x s
  (y, s, x :: places)

section Probes

variable {S : Set α} {Kind : σ → Prop} {height : Probe α σ} {f g : α → α}
  (hf : height.Shows Kind f)

include hf

/-- On a set of places it does not count what a function is elsewhere. -/
theorem Probe.Shows.showsOn (hg : ∀ x ∈ S, g x = f x) : height.ShowsOn S Kind g where
  value hx hs := (hf.value _ hs).trans (hg _ hx).symm
  keeps _ hs := hf.keeps _ hs

theorem Probe.Shows.recorded :
    height.recorded.ShowsOn S (fun s => Kind s.1 ∧ ∀ x ∈ s.2, x ∈ S) f where
  value _ hs := hf.value _ hs.1
  keeps hx hs := ⟨hf.keeps _ hs.1, List.forall_mem_cons.mpr ⟨hx, hs.2⟩⟩

end Probes

namespace ContactSolver

section Recording

variable [Scalar α] (solver : ContactSolver α) (height : Probe α σ) (ballX : α)

/-- The places at which the height is read to find a contact, the last one first. -/
def probed (s : σ) : List α := (solver.rest height.recorded ballX (s, [])).2.2

theorem length_narrow_recorded (k : Bracket α) (s : σ × List α) :
    (solver.narrow height.recorded ballX k s).2.2.length = s.2.length + 1 := by
  unfold narrow
  dsimp only
  split <;> rfl

theorem length_search_recorded (n : ℕ) (k : Bracket α × σ × List α) :
    (solver.search height.recorded ballX n k).2.2.length = k.2.2.length + n := by
  induction n generalizing k with
  | zero => rfl
  | succ n ih =>
    rw [search, ih, length_narrow_recorded]
    omega

/-- Two places are read before the first step, one in each step and one after the last. -/
theorem length_probed (s : σ) : (solver.probed height ballX s).length = solver.iterations + 3 := by
  have hsearch := solver.length_search_recorded height ballX solver.iterations
    (solver.bracket height.recorded ballX (s, []))
  show (_ :: (solver.search height.recorded ballX solver.iterations _).2.2).length = _
  rw [List.length_cons, hsearch]
  show 2 + solver.iterations + 1 = _
  omega

end Recording

/-! ## What is under a ball -/

/-- What is under the ball. -/
def under (solver : ContactSolver ℝ) (ballX : ℝ) : Set ℝ :=
  Set.Icc (ballX - solver.radius) (ballX + solver.radius)

variable {solver : ContactSolver ℝ} {f : ℝ → ℝ} {ballX : ℝ}

theorem mem_under_iff {x : ℝ} (hr : 0 < solver.radius) :
    x ∈ solver.under ballX ↔
      0 ≤ solver.radius * solver.radius - (x - ballX) * (x - ballX) := by
  rw [sub_nonneg, ← abs_le_iff_mul_self_le, abs_of_pos hr, abs_le]
  unfold under
  constructor <;> rintro ⟨hleft, hright⟩ <;> constructor <;> linarith

theorem mem_under_iff_abs {x : ℝ} : x ∈ solver.under ballX ↔ |x - ballX| ≤ solver.radius := by
  rw [abs_le]
  unfold under
  constructor <;> rintro ⟨hleft, hright⟩ <;> constructor <;> linarith

end ContactSolver

/-! ## The intervals of a search -/

/-- The interval is divided by the golden ratio and is under the ball. -/
structure Bracket.Inside (solver : ContactSolver ℝ) (f : ℝ → ℝ) (ballX : ℝ) (k : Bracket ℝ) :
    Prop where
  golden : k.Golden (solver.clearanceAt f ballX)
  subset : Set.Icc k.a k.b ⊆ solver.under ballX

namespace ContactSolver

theorem inside_bracket {solver : ContactSolver ℝ} (hr : 0 < solver.radius) (f : ℝ → ℝ)
    (ballX : ℝ) : (solver.bracket (.pure f) ballX ()).1.Inside solver f ballX where
  golden := solver.golden_bracket f ballX hr
  subset := subset_rfl

end ContactSolver

namespace Bracket.Inside

variable {solver : ContactSolver ℝ} {f : ℝ → ℝ} {ballX : ℝ} {k : Bracket ℝ}
  (h : k.Inside solver f ballX)

include h

theorem c_mem : k.c ∈ solver.under ballX :=
  h.subset ⟨h.golden.a_le_c, h.golden.c_lt_d.le.trans h.golden.d_le_b⟩

theorem d_mem : k.d ∈ solver.under ballX :=
  h.subset ⟨h.golden.a_le_c.trans h.golden.c_lt_d.le, h.golden.d_le_b⟩

theorem best_mem : k.best ∈ solver.under ballX := h.subset h.golden.best_mem

/-- **A step.** It keeps a part of the interval. -/
theorem narrow : (solver.narrow (.pure f) ballX k ()).1.Inside solver f ballX := by
  refine ⟨ContactSolver.golden_narrow h.golden, Set.Subset.trans ?_ h.subset⟩
  unfold ContactSolver.narrow
  dsimp only
  split
  · exact Set.Icc_subset_Icc_right h.golden.d_le_b
  · exact Set.Icc_subset_Icc_left h.golden.a_le_c

theorem search (n : ℕ) :
    (solver.search (.pure f) ballX n (k, ())).1.Inside solver f ballX := by
  induction n generalizing k with
  | zero => exact h
  | succ n ih => exact ih h.narrow

end Bracket.Inside

/-! ## The search of a probe -/

namespace ContactSolver

variable {solver : ContactSolver ℝ} {f : ℝ → ℝ} {ballX : ℝ} {Kind : σ → Prop} {height : Probe ℝ σ}
  (hf : height.ShowsOn (solver.under ballX) Kind f) {s : σ} (hs : Kind s)

include hf

theorem clearance_showsOn :
    (solver.clearance height ballX).ShowsOn (solver.under ballX) Kind
      (solver.clearanceAt f ballX) where
  value {x _} hx hs := by
    show (height x _).1 - _ = f x - _
    rw [hf.value hx hs]
  keeps hx hs := hf.keeps hx hs

include hs

theorem bracket_of_showsOn (hr : 0 < solver.radius) :
    (solver.bracket height ballX s).1 = (solver.bracket (.pure f) ballX ()).1 ∧
      Kind (solver.bracket height ballX s).2 := by
  have hclear := solver.clearance_showsOn hf
  have hc := (inside_bracket hr f ballX).c_mem
  have hd := (inside_bracket hr f ballX).d_mem
  unfold bracket at hc hd ⊢
  dsimp only at hc hd ⊢
  have hkind := hclear.keeps hc hs
  rw [hclear.value hc hs, hclear.value hd hkind]
  exact ⟨rfl, hclear.keeps hd hkind⟩

theorem narrow_of_showsOn {k : Bracket ℝ} (hk : k.Inside solver f ballX) :
    (solver.narrow height ballX k s).1 = (solver.narrow (.pure f) ballX k ()).1 ∧
      Kind (solver.narrow height ballX k s).2 := by
  have hclear := solver.clearance_showsOn hf
  have hc := hk.narrow.c_mem
  have hd := hk.narrow.d_mem
  unfold narrow at hc hd ⊢
  dsimp only at hc hd ⊢
  split
  · rename_i hlt
    rw [if_pos hlt] at hc
    exact ⟨by rw [hclear.value hc hs]; rfl, hclear.keeps hc hs⟩
  · rename_i hlt
    rw [if_neg hlt] at hd
    exact ⟨by rw [hclear.value hd hs]; rfl, hclear.keeps hd hs⟩

omit hs in
theorem search_of_showsOn (n : ℕ) {k : Bracket ℝ × σ} {k' : Bracket ℝ × Unit} (hk : k.1 = k'.1)
    (hinside : k'.1.Inside solver f ballX) (hs : Kind k.2) :
    (solver.search height ballX n k).1 = (solver.search (.pure f) ballX n k').1 ∧
      Kind (solver.search height ballX n k).2 := by
  -- The interval is under the ball after every step, so the next place is one that is seen.
  induction n generalizing k k' with
  | zero => exact ⟨hk, hs⟩
  | succ n ih =>
    obtain ⟨hnext, hkind⟩ := narrow_of_showsOn hf hs hinside
    rw [← hk] at hnext hkind
    exact ih (hnext.trans (by rw [hk])) hinside.narrow hkind

/-- **The contact.** What the probe sees beyond the ball does not count, for no place there is
read. -/
theorem rest_of_showsOn (hr : 0 < solver.radius) :
    (solver.rest height ballX s).1 = (solver.rest (.pure f) ballX ()).1 ∧
      Kind (solver.rest height ballX s).2 := by
  have hinside := inside_bracket hr f ballX
  obtain ⟨hbracket, hkind⟩ := bracket_of_showsOn hf hs hr
  obtain ⟨hsearch, hends⟩ := search_of_showsOn hf solver.iterations hbracket hinside hkind
  have hclear := solver.clearance_showsOn hf
  have hbest := (hinside.search solver.iterations).best_mem
  unfold rest
  dsimp only
  rw [hsearch, hclear.value hbest hends]
  exact ⟨rfl, hclear.keeps hbest hends⟩

omit hf in
/-- The last place that is read is that of the contact. -/
theorem best_mem_probed (hf : height.Shows Kind f) (hr : 0 < solver.radius) :
    (solver.search (.pure f) ballX solver.iterations (solver.bracket (.pure f) ballX ())).1.best ∈
      solver.probed height ballX s := by
  have hrecorded := hf.recorded (S := solver.under ballX)
  have hkind : Kind s ∧ ∀ x ∈ ([] : List ℝ), x ∈ solver.under ballX :=
    ⟨hs, List.forall_mem_nil _⟩
  obtain ⟨hbracket, hkind⟩ := bracket_of_showsOn (s := (s, [])) hrecorded hkind hr
  obtain ⟨hsearch, -⟩ :=
    search_of_showsOn hrecorded solver.iterations hbracket (inside_bracket hr f ballX) hkind
  rw [← hsearch]
  exact List.mem_cons_self

omit hf hs in
theorem clearanceAt_add_radius (x : ℝ) :
    solver.clearanceAt f ballX x + solver.radius =
      f x + √(solver.radius ^ 2 - (x - ballX) ^ 2) := by
  show f x - (solver.radius - √(solver.radius * solver.radius - (x - ballX) * (x - ballX))) +
    solver.radius = _
  rw [sq, sq]
  ring

end ContactSolver

/-- **The ball touches the curve below it.** Let a probe see the values of a function, as any
function does (`Probe.shows_pure`), and a curve at a moment (`Curve.shows_evalAt`). To find a
contact, the function is read under the ball only, so the arc of the ball has a height there. At one
of these places the ball touches the function, and whatever is the same function under the ball,
another function or another curve, has the same contact. -/
theorem contact_touches_curve_below {solver : ContactSolver ℝ} (hr : 0 < solver.radius)
    {Kind : σ → Prop} {height : Probe ℝ σ} {f : ℝ → ℝ} (hf : height.Shows Kind f) {s : σ}
    (hs : Kind s) (ballX : ℝ) :
    let contact := (solver.rest height ballX s).1
    let probed := solver.probed height ballX s
    let under := Set.Icc (ballX - solver.radius) (ballX + solver.radius)
    probed.length = solver.iterations + 3 ∧
      (∀ x ∈ probed, |x - ballX| ≤ solver.radius ∧
        0 ≤ solver.radius * solver.radius - (x - ballX) * (x - ballX)) ∧
      (∃ x ∈ probed, contact = f x + √(solver.radius ^ 2 - (x - ballX) ^ 2)) ∧
      (∀ g : ℝ → ℝ, (∀ x ∈ under, g x = f x) → (solver.rest (.pure g) ballX ()).1 = contact) ∧
      ∀ (curve : Curve ℝ) (ctx : Context ℝ), (∀ x ∈ under, curve.eval ⟨ctx.t, x⟩ = f x) →
        (solver.contactHeight curve ctx ballX).1 = contact := by
  intro contact probed under
  have hcontact : (solver.rest (.pure f) ballX ()).1 = contact :=
    (ContactSolver.rest_of_showsOn
      (hf.showsOn (S := solver.under ballX) fun _ _ => rfl) hs hr).1.symm
  have hsame : ∀ {τ : Type} {Kind' : τ → Prop} {other : Probe ℝ τ} {g : ℝ → ℝ},
      other.Shows Kind' g → (∀ x ∈ under, g x = f x) → ∀ {t : τ}, Kind' t →
        (solver.rest other ballX t).1 = contact := by
    intro τ Kind' other g hg hagree t ht
    have hother := ContactSolver.rest_of_showsOn
      (hg.showsOn (S := solver.under ballX) fun x hx => (hagree x hx).symm) ht hr
    exact hother.1.trans hcontact
  -- Of the recorded places we know that they are under the ball.
  have hplaces : ∀ x ∈ probed, x ∈ solver.under ballX :=
    (ContactSolver.rest_of_showsOn hf.recorded (s := (s, [])) ⟨hs, List.forall_mem_nil _⟩ hr).2.2
  refine ⟨solver.length_probed height ballX s, fun x hx => ?_, ?_, fun g hagree => ?_,
    fun curve ctx hagree => ?_⟩
  · have hunder := hplaces x hx
    exact ⟨ContactSolver.mem_under_iff_abs.mp hunder, (ContactSolver.mem_under_iff hr).mp hunder⟩
  · exact ⟨_, ContactSolver.best_mem_probed hs hf hr,
      hcontact.symm.trans (ContactSolver.clearanceAt_add_radius _)⟩
  · exact hsame (Probe.shows_pure g) hagree trivial
  · exact hsame (curve.shows_evalAt ctx.t) hagree rfl

/-- A ball of radius `0.4` on the wave `sin (10 * x)`, which has more than one peak below it. -/
theorem contact_touches_curve_below_wave :
    let solver : ContactSolver ℝ := ⟨0.4, 28⟩
    let wave : Curve ℝ := .unconditional (.call (.unary .sin)
      [.binary .mul (.constant 10) (.var .x)])
    0 < solver.radius ∧ ∃ x, |x - 1| ≤ 0.4 ∧
      (solver.contactHeight wave (.atTime 0) 1).1 =
        Real.sin (10 * x) + √(0.4 ^ 2 - (x - 1) ^ 2) := by
  intro solver wave
  have hr : 0 < solver.radius := by
    show (0 : ℝ) < 0.4
    norm_num
  obtain ⟨-, hunder, ⟨x, hx, htouch⟩, -⟩ :=
    contact_touches_curve_below hr (wave.shows_evalAt 0) (s := .atTime 0) rfl 1
  exact ⟨hr, x, (hunder x hx).1, htouch⟩

end RollingBall
