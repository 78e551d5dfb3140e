import RollingBall.Curve

/-!
# Contact of ball and curve

A ball that rests on a sloped curve does not touch it below its middle. Take the curve less the
lower arc of the ball over the width of the ball: where this clearance is greatest, the ball touches
the curve. The place is found by golden-section search with a fixed number of steps. On a curve
with several peaks the search ends at one of them.

The search reads heights through a `Probe`, which may carry a state from one reading to the next, as
the context of a formula is.

## Main definitions

* `ContactSolver`: a radius and a number of steps, `ContactSolver.iterationCount` of them for a
  given tolerance.
* `ContactSolver.rest`: the height of the middle of a ball that rests on what is probed.
* `ContactSolver.contactHeight`: the same for a curve.
-/

namespace RollingBall

variable {α σ : Type}

/-- A way to read the height at a coordinate. -/
abbrev Probe (α σ : Type) : Type := α → σ → α × σ

/-- The state of a golden-section search: an interval from `a` to `b`, the probes `c` and `d`
inside, the left one first, and the clearances `yc` and `yd` that they saw. -/
structure Bracket (α : Type) where
  width : α
  a : α
  b : α
  c : α
  d : α
  yc : α
  yd : α

/-- How to find where a ball of one size touches a curve. -/
structure ContactSolver (α : Type) where
  radius : α
  iterations : Nat

variable [Scalar α]

/-- The middle of the side of the higher probe. -/
def Bracket.best (s : Bracket α) : α :=
  if s.yd < s.yc then (s.a + s.d) / 2.0 else (s.c + s.b) / 2.0

namespace ContactSolver

/-! ## Solvers -/

/-- The distance to a maximum that is tolerated unless another is asked for. -/
def defaultTolerance : α := 1e-6

/-- The number of steps after which the last interval is no wider than the tolerance, at most the
greatest number of 32 bits, and none if the logarithms do not tell. -/
def iterationCount (width tolerance : α) : Nat :=
  let n := Scalar.ceil (Scalar.ln (width / tolerance) / Scalar.ln Scalar.golden) - 1.0
  if Scalar.isFinite n && decide (0.0 < n) then Scalar.truncate (UInt32.size - 1) n else 0

/-- The solver for a radius and a tolerance. -/
def withTolerance (radius tolerance : α) : ContactSolver α :=
  ⟨radius, iterationCount (radius * 2.0) tolerance⟩

/-- The solver for a radius. -/
def ofRadius (radius : α) : ContactSolver α := withTolerance radius defaultTolerance

/-! ## The search -/

/-- How far the lower arc of the ball is above its lowest point, `u` beside the middle. -/
def arc (solver : ContactSolver α) (u : α) : α :=
  solver.radius - Scalar.sqrt (solver.radius * solver.radius - u * u)

/-- The height at `x` less that of the arc of a ball at `ballX`. -/
def clearance (solver : ContactSolver α) (height : Probe α σ) (ballX : α) : Probe α σ :=
  fun x s =>
    let (y, s) := height x s
    (y - solver.arc (x - ballX), s)

/-- The whole width of the ball, with its two probes. -/
def bracket (solver : ContactSolver α) (height : Probe α σ) (ballX : α) (s : σ) :
    Bracket α × σ :=
  let width := solver.radius * 2.0
  let a := ballX - solver.radius
  let b := ballX + solver.radius
  let c := a + width / (Scalar.golden * Scalar.golden)
  let d := a + width / Scalar.golden
  let (yc, s) := solver.clearance height ballX c s
  let (yd, s) := solver.clearance height ballX d s
  (⟨width, a, b, c, d, yc, yd⟩, s)

/-- One step: the side of the higher probe is kept, and one new probe is taken. -/
def narrow (solver : ContactSolver α) (height : Probe α σ) (ballX : α) (k : Bracket α) (s : σ) :
    Bracket α × σ :=
  let width := k.width / Scalar.golden
  if k.yd < k.yc then
    let c := k.a + width / (Scalar.golden * Scalar.golden)
    let (yc, s) := solver.clearance height ballX c s
    (⟨width, k.a, k.d, c, k.c, yc, k.yc⟩, s)
  else
    let d := k.c + width / Scalar.golden
    let (yd, s) := solver.clearance height ballX d s
    (⟨width, k.c, k.b, k.d, d, k.yd, yd⟩, s)

/-- The interval after some steps. -/
def search (solver : ContactSolver α) (height : Probe α σ) (ballX : α) :
    Nat → Bracket α × σ → Bracket α × σ
  | 0, k => k
  | n + 1, k => solver.search height ballX n (solver.narrow height ballX k.1 k.2)

/-- The height of the middle of a ball at `ballX` that rests on what is probed. -/
def rest (solver : ContactSolver α) (height : Probe α σ) (ballX : α) (s : σ) : α × σ :=
  let (k, s) := solver.search height ballX solver.iterations (solver.bracket height ballX s)
  let (y, s) := solver.clearance height ballX k.best s
  (y + solver.radius, s)

/-- The height of the middle of a ball at `ballX` that rests on a curve. The context keeps the
coordinate of the last probe. -/
def contactHeight (solver : ContactSolver α) (f : Curve α) (ctx : Context α) (ballX : α) :
    α × Context α :=
  solver.rest f.evalAt ballX ctx

end ContactSolver

end RollingBall
