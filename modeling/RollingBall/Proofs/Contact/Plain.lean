import RollingBall.Contact

/-!
# The search without a memory

The search for a contact remembers what its probes saw and hands a state from probe to probe. If the
probes see the values of a function, in whatever state of some kind they are (`Probe.Shows`), then
only the function counts. The intervals of the search are those of a search that looks at both its
places anew in every step (`Span.search`), and what its probes remember is what the function is
there (`ContactSolver.search_seen`). So both searches find the same contact
(`ContactSolver.shows_rest`). A curve shows its heights at one moment (`Curve.shows_evalAt`).

## Main definitions

* `Probe.Shows`: a probe sees the values of a function.
* `Probe.pure`: the probe of a function.
* `Span`: an interval with two places inside, and the search that looks at both in every step.
* `ContactSolver.plainHeight`: the contact that this search finds.
-/

namespace RollingBall

variable {α σ : Type}

/-- In the states of a kind the probe sees the values of a function, and it leaves a state of that
kind. -/
structure Probe.Shows (Kind : σ → Prop) (height : Probe α σ) (f : α → α) : Prop where
  value (x : α) {s : σ} : Kind s → (height x s).1 = f x
  keeps (x : α) {s : σ} : Kind s → Kind (height x s).2

/-- The probe that sees the values of a function and needs no state. -/
def Probe.pure (f : α → α) : Probe α Unit := fun x _ => (f x, ())

theorem Probe.shows_pure (f : α → α) : Probe.Shows (fun _ => True) (.pure f) f where
  value _ _ _ := rfl
  keeps _ _ _ := trivial

/-- An interval from `a` to `b` and the places `c` and `d` inside, the left one first. -/
structure Span (α : Type) where
  width : α
  a : α
  b : α
  c : α
  d : α

variable [Scalar α]

/-! ## The plain search -/

namespace Span

/-- What the search for a contact remembers if its probes are at these places. -/
def seen (g : α → α) (k : Span α) : Bracket α := ⟨k.width, k.a, k.b, k.c, k.d, g k.c, g k.d⟩

/-- The middle of the side on which the function is higher. -/
def best (g : α → α) (k : Span α) : α :=
  if g k.d < g k.c then (k.a + k.d) / 2.0 else (k.c + k.b) / 2.0

/-- One step: the function is read at both places, and the side of the higher one is kept. -/
def narrow (g : α → α) (k : Span α) : Span α :=
  let width := k.width / Scalar.golden
  if g k.d < g k.c then
    ⟨width, k.a, k.d, k.a + width / (Scalar.golden * Scalar.golden), k.c⟩
  else ⟨width, k.c, k.b, k.d, k.c + width / Scalar.golden⟩

/-- The interval after some steps. -/
def search (g : α → α) : Nat → Span α → Span α
  | 0, k => k
  | n + 1, k => search g n (k.narrow g)

theorem best_seen (g : α → α) (k : Span α) : (k.seen g).best = k.best g := rfl

theorem search_succ (g : α → α) (n : Nat) (k : Span α) :
    k.search g (n + 1) = (k.search g n).narrow g := by
  induction n generalizing k with
  | zero => rfl
  | succ n ih => exact ih (k.narrow g)

end Span

namespace ContactSolver

variable (solver : ContactSolver α)

/-- The whole width of the ball, with the first two places. -/
def span (ballX : α) : Span α :=
  let width := solver.radius * 2.0
  let a := ballX - solver.radius
  ⟨width, a, ballX + solver.radius, a + width / (Scalar.golden * Scalar.golden),
    a + width / Scalar.golden⟩

/-- How far the values of a function are above the lower arc of a ball. -/
def gap (f : α → α) (ballX x : α) : α := f x - solver.arc (x - ballX)

/-- The height of the middle of a ball that rests on a function, found by the plain search. -/
def plainHeight (f : α → α) (ballX : α) : α :=
  let g := solver.gap f ballX
  g (((solver.span ballX).search g solver.iterations).best g) + solver.radius

/-! ## The search of a probe -/

variable {Kind : σ → Prop} {height : Probe α σ} {f : α → α} (hf : height.Shows Kind f)

include hf

theorem shows_clearance (ballX : α) :
    (solver.clearance height ballX).Shows Kind (solver.gap f ballX) where
  value x _ h := by
    unfold clearance gap
    dsimp only
    rw [hf.value x h]
  keeps x _ h := hf.keeps x h

variable {s : σ} (h : Kind s)

include h

theorem bracket_seen (ballX : α) :
    (solver.bracket height ballX s).1 = (solver.span ballX).seen (solver.gap f ballX) ∧
      Kind (solver.bracket height ballX s).2 := by
  have hclear := solver.shows_clearance hf ballX
  unfold bracket span Span.seen
  dsimp only
  rw [hclear.value _ h, hclear.value _ (hclear.keeps _ h)]
  exact ⟨rfl, hclear.keeps _ (hclear.keeps _ h)⟩

/-- **A step.** What the kept probe remembers is what it would see. -/
theorem narrow_seen (ballX : α) (k : Span α) :
    (solver.narrow height ballX (k.seen (solver.gap f ballX)) s).1 =
        (k.narrow (solver.gap f ballX)).seen (solver.gap f ballX) ∧
      Kind (solver.narrow height ballX (k.seen (solver.gap f ballX)) s).2 := by
  have hclear := solver.shows_clearance hf ballX
  unfold narrow Span.narrow Span.seen
  dsimp only
  split
  · rw [hclear.value _ h]
    exact ⟨rfl, hclear.keeps _ h⟩
  · rw [hclear.value _ h]
    exact ⟨rfl, hclear.keeps _ h⟩

/-- **The search.** After any number of steps the interval is that of the plain search, and the
probes remember what the function is at them. -/
theorem search_seen (ballX : α) (n : Nat) (k : Span α) :
    (solver.search height ballX n (k.seen (solver.gap f ballX), s)).1 =
        (k.search (solver.gap f ballX) n).seen (solver.gap f ballX) ∧
      Kind (solver.search height ballX n (k.seen (solver.gap f ballX), s)).2 := by
  induction n generalizing k s with
  | zero => exact ⟨rfl, h⟩
  | succ n ih =>
    obtain ⟨hnext, hkind⟩ := solver.narrow_seen hf h ballX k
    have hrest := ih hkind (k.narrow (solver.gap f ballX))
    rw [← hnext] at hrest
    exact hrest

theorem search_bracket_seen (ballX : α) (n : Nat) :
    (solver.search height ballX n (solver.bracket height ballX s)).1 =
        ((solver.span ballX).search (solver.gap f ballX) n).seen (solver.gap f ballX) ∧
      Kind (solver.search height ballX n (solver.bracket height ballX s)).2 := by
  obtain ⟨hbracket, hkind⟩ := solver.bracket_seen hf h ballX
  have hsearch := solver.search_seen hf hkind ballX n (solver.span ballX)
  rw [← hbracket] at hsearch
  exact hsearch

omit h in
/-- **The contact.** It is that of the plain search, and finding it leaves no other trace than its
probes do. -/
theorem shows_rest : Probe.Shows Kind (solver.rest height) (solver.plainHeight f) where
  value ballX s h := by
    obtain ⟨hsearch, hkind⟩ := solver.search_bracket_seen hf h ballX solver.iterations
    have hclear := solver.shows_clearance hf ballX
    unfold rest plainHeight
    dsimp only
    rw [hsearch, hclear.value _ hkind, Span.best_seen]
  keeps ballX s h := by
    obtain ⟨-, hkind⟩ := solver.search_bracket_seen hf h ballX solver.iterations
    exact (solver.shows_clearance hf ballX).keeps _ hkind

end ContactSolver

/-! ## Curves -/

/-- At one moment a curve shows its heights, and reading it leaves the moment. -/
theorem Curve.shows_evalAt (f : Curve α) (t : α) :
    Probe.Shows (fun ctx : Context α => ctx.t = t) f.evalAt fun x => f.eval ⟨t, x⟩ where
  value x ctx h := by
    subst h
    rfl
  keeps _ _ h := h

end RollingBall
