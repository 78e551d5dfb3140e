import RollingBall.Proofs.Numbers.Unrounded
import RollingBall.Proofs.Contact.Plain

/-!
# Contacts move with the curve

In exact arithmetic the search for a contact knows no place of its own: if one function is another
one, moved aside and up, then every interval of its search is that of the other, moved aside, and
the contact is moved in the same way (`ContactSolver.plainHeight_shift`). The functions may have any
number of peaks, and the golden ratio may be any number. So the contact of a curve moves with the
curve (`contact_moves_with_curve`).

## Main definitions

* `Span.shift`: an interval of the search, moved aside.
-/

namespace RollingBall

open Scalar.Unrounded

variable {α σ τ : Type} [Scalar α]

/-- An interval of the search moved aside. -/
def Span.shift (dx : α) (k : Span α) : Span α where
  width := k.width
  a := k.a + dx
  b := k.b + dx
  c := k.c + dx
  d := k.d + dx

variable [Scalar.Unrounded α]

/-! ## The plain search -/

namespace Span

variable {g g' : α → α} {dx dy : α} (hshift : ∀ x, g' (x + dx) = g x + dy)

include hshift

/-- Which of two places is higher is not changed by a shift. -/
theorem shift_lt_iff (x y : α) : g' (x + dx) < g' (y + dx) ↔ g x < g y := by
  rw [hshift, hshift, lt_iff, lt_iff, value_add, value_add, add_lt_add_iff_right]

theorem best_shift (k : Span α) : (k.shift dx).best g' = k.best g + dx := by
  have hmiddle : ∀ x y : α, (x + dx + (y + dx)) / 2.0 = (x + y) / 2.0 + dx := by
    intro x y
    refine value_injective ?_
    simp only [value_half, value_add]
    ring
  have hside := shift_lt_iff hshift k.d k.c
  unfold best shift
  by_cases h : g k.d < g k.c
  · rw [if_pos h, if_pos (hside.mpr h)]
    exact hmiddle _ _
  · rw [if_neg h, if_neg (mt hside.mp h)]
    exact hmiddle _ _

/-- **A step.** It keeps the same side, and the new place is moved with the others. -/
theorem narrow_shift (k : Span α) : (k.shift dx).narrow g' = (k.narrow g).shift dx := by
  have hside := shift_lt_iff hshift k.d k.c
  unfold narrow shift
  by_cases h : g k.d < g k.c
  · dsimp only
    rw [if_pos h, if_pos (hside.mpr h), add_swap k.a dx]
  · dsimp only
    rw [if_neg h, if_neg (mt hside.mp h), add_swap k.c dx]

theorem search_shift (n : ℕ) (k : Span α) :
    (k.shift dx).search g' n = (k.search g n).shift dx := by
  induction n generalizing k with
  | zero => rfl
  | succ n ih =>
    rw [search, search, narrow_shift hshift]
    exact ih (k.narrow g)

end Span

namespace ContactSolver

variable (solver : ContactSolver α)

theorem span_shift (ballX dx : α) :
    solver.span (ballX + dx) = (solver.span ballX).shift dx := by
  unfold span Span.shift
  dsimp only
  rw [← sub_add_swap ballX, add_swap ballX dx, add_swap _ dx, add_swap _ dx]

variable {f f' : α → α} {dx dy : α} (hshift : ∀ x, f' (x + dx) = f x + dy)

include hshift

/-- A ball that is moved with the curve has the same clearance at the same place of itself. -/
theorem gap_shift (ballX x : α) :
    solver.gap f' (ballX + dx) (x + dx) = solver.gap f ballX x + dy := by
  unfold gap
  rw [hshift, shift_sub_shift, ← sub_add_swap]

/-- **Shifts.** The contact of a function moved aside and up is the contact moved aside and up. -/
theorem plainHeight_shift (ballX : α) :
    solver.plainHeight f' (ballX + dx) = solver.plainHeight f ballX + dy := by
  have hgap := solver.gap_shift hshift ballX
  unfold plainHeight
  dsimp only
  rw [span_shift, Span.search_shift hgap, Span.best_shift hgap, hgap, add_swap]

variable {Kind : σ → Prop} {Kind' : τ → Prop} {height : Probe α σ} {height' : Probe α τ}
  {s : σ} {t : τ}

/-- The same for probes that see the functions, whatever state they need. -/
theorem rest_shift (hf : height.Shows Kind f) (hf' : height'.Shows Kind' f') (ballX : α)
    (hs : Kind s) (ht : Kind' t) :
    (solver.rest height' (ballX + dx) t).1 = (solver.rest height ballX s).1 + dy := by
  rw [(solver.shows_rest hf').value _ ht, (solver.shows_rest hf).value _ hs,
    solver.plainHeight_shift hshift]

end ContactSolver

/-- **Moved curves.** In exact arithmetic, the contact of a ball with a function moved aside and up
is that with the function, at a place moved as far aside, and as much higher. So it is for curves
that are so at their moments. The functions may have any number of peaks. -/
theorem contact_moves_with_curve (solver : ContactSolver α) (ballX dx dy : α) :
    (∀ f : α → α,
      (solver.rest (.pure fun x => f (x - dx) + dy) (ballX + dx) ()).1 =
        (solver.rest (.pure f) ballX ()).1 + dy) ∧
      ∀ (curve moved : Curve α) (ctx ctx' : Context α),
        (∀ x, moved.eval ⟨ctx'.t, x⟩ = curve.eval ⟨ctx.t, x - dx⟩ + dy) →
        (solver.contactHeight moved ctx' (ballX + dx)).1 =
          (solver.contactHeight curve ctx ballX).1 + dy := by
  refine ⟨fun f => ?_, fun curve moved ctx ctx' hmoved => ?_⟩
  · have hshift : ∀ x, f (x + dx - dx) + dy = f x + dy := fun x => by rw [add_sub_back]
    exact solver.rest_shift hshift (Probe.shows_pure f) (Probe.shows_pure _) ballX trivial trivial
  · have hshift : ∀ x, moved.eval ⟨ctx'.t, x + dx⟩ = curve.eval ⟨ctx.t, x⟩ + dy := fun x => by
      rw [hmoved, add_sub_back]
    exact solver.rest_shift hshift (curve.shows_evalAt ctx.t) (moved.shows_evalAt ctx'.t) ballX
      rfl rfl

section Waves

open scoped Reals

/-- A ball rests on the wave `sin (x - 1) + 2` as on the wave `sin x`, a unit to the right and two
units higher. -/
theorem contact_moves_with_wave :
    let solver : ContactSolver ℝ := ⟨0.4, 28⟩
    let wave : Curve ℝ := .unconditional (.call (.unary .sin) [.var .x])
    let moved : Curve ℝ := .unconditional (.binary .add
      (.call (.unary .sin) [.binary .sub (.var .x) (.constant 1)]) (.constant 2))
    (∀ x, moved.eval ⟨0, x⟩ = wave.eval ⟨0, x - 1⟩ + 2) ∧
      (solver.contactHeight moved (.atTime 0) (3 + 1)).1 =
        (solver.contactHeight wave (.atTime 0) 3).1 + 2 := by
  intro solver wave moved
  have hmoved : ∀ x, moved.eval ⟨0, x⟩ = wave.eval ⟨0, x - 1⟩ + 2 := fun _ => rfl
  exact ⟨hmoved, (contact_moves_with_curve solver 3 1 2).2 wave moved (.atTime 0) (.atTime 0)
    hmoved⟩

end Waves

end RollingBall
