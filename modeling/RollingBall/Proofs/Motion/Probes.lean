import RollingBall.Proofs.Contact.Plain

/-!
# What a contact depends on

A search for a contact probes a curve many times and hands one context from probe to probe. Of the
context a curve reads the time alone, since a probe overwrites the coordinate, and it leaves the
time as it is. So does the search (`ContactSolver.reads_rest`), and the height of a contact depends
on the curve, the moment and the place only (`ContactSolver.contactHeight_eq`).
-/

namespace RollingBall

variable {α σ κ : Type}

/-- Of the state the probe reads nothing but the key, and it leaves the key as it is. -/
structure Probe.Reads (key : σ → κ) (height : Probe α σ) : Prop where
  value : ∀ x {s s'}, key s = key s' → (height x s).1 = (height x s').1
  keeps : ∀ x s, key (height x s).2 = key s

/-- As long as the key is that of a state, the probe sees what it sees in that state. -/
theorem Probe.Reads.shows {key : σ → κ} {height : Probe α σ} (hr : height.Reads key) (s : σ) :
    height.Shows (fun s' => key s' = key s) fun x => (height x s).1 where
  value x _ h := hr.value x h
  keeps x _ h := (hr.keeps x _).trans h

variable [Scalar α]

namespace ContactSolver

variable {key : σ → κ} {height : Probe α σ} (solver : ContactSolver α)

/-- A contact is a probe that reads no more of the state than those it is found with. -/
theorem reads_rest (hr : height.Reads key) : Probe.Reads key (solver.rest height) where
  value x s s' h := by
    have hshows := solver.shows_rest (hr.shows s')
    rw [hshows.value x h, hshows.value x rfl]
  keeps x s := (solver.shows_rest (hr.shows s)).keeps x rfl

end ContactSolver

/-! ## Curves -/

section Curves

variable (solver : ContactSolver α) (f : Curve α) (x : α) (ctx : Context α)

theorem Curve.evalAt_eq : f.evalAt x ctx = (f.eval ⟨ctx.t, x⟩, ⟨ctx.t, x⟩) := rfl

/-- Of its context a curve read at a coordinate sees the time. -/
theorem Curve.reads_evalAt : Probe.Reads Context.t f.evalAt where
  value x s s' h := by rw [evalAt_eq, evalAt_eq, h]
  keeps x s := rfl

theorem ContactSolver.contactHeight_eq :
    (solver.contactHeight f ctx x).1 = (solver.contactHeight f (.atTime ctx.t) x).1 :=
  (solver.reads_rest f.reads_evalAt).value x rfl

theorem ContactSolver.contactHeight_t : (solver.contactHeight f ctx x).2.t = ctx.t :=
  (solver.reads_rest f.reads_evalAt).keeps x ctx

end Curves

end RollingBall
