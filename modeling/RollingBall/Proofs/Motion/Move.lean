import RollingBall.Simulator
import RollingBall.Proofs.Motion.Probes

/-!
# One move of the ball

The move of a tick, said without the context that the code hands from graph to graph. What a curve
offers the ball depends on the moment and on where the ball is (`Curve.contact?`); the footing is
the first highest offer above the height the ball would fall to (`Simulator.landing`), and the
stride depends on the curve that supports the ball (`Curve.stride`). `Simulator.moveBall_eq` puts
the three together.
-/

namespace RollingBall

variable {α : Type} [Scalar α]

/-! ## What a curve offers -/

namespace Curve

/-- The height at which the curve would hold the lowest point of a ball, if the curve exists there
and is not above the middle of the ball. -/
def contact? (f : Curve α) (solver : ContactSolver α) (time : α) (pos : Point α) : Option α :=
  let y := f.eval ⟨time, pos.x⟩
  if Scalar.isNaN y || decide (pos.y < y - Rules.contactSlack) || !f.admits ⟨time, pos.x⟩ then none
  else some ((solver.contactHeight f (.atTime time) pos.x).1 - Rules.ballRadius)

/-- The slope at a moment and a coordinate. -/
def slopeAt (f : Curve α) (time x : α) : α :=
  (f.eval ⟨time, x + Rules.slopeWidth / 2.0⟩ - f.eval ⟨time, x - Rules.slopeWidth / 2.0⟩) /
    Rules.slopeWidth

/-- How far a ball rolls in a tick, supported by a curve or by none. -/
def stride (time x : α) : Option (Curve α) → α
  | none => Rules.ballSpeed * Rules.tickTime
  | some f => (Rules.ballSpeed - 0.5 * Scalar.larger (f.slopeAt time x) 0.0) * Rules.tickTime

variable {f g : Curve α} {time x : α} {pos : Point α}

/-- Where they exist, curves of one formula offer the same. -/
theorem contact?_congr (hformula : f.formula = g.formula)
    (hadmits : f.admits ⟨time, pos.x⟩ = g.admits ⟨time, pos.x⟩) (solver : ContactSolver α) :
    f.contact? solver time pos = g.contact? solver time pos := by
  obtain ⟨formula, condition⟩ := f
  obtain rfl : formula = g.formula := hformula
  unfold contact?
  rw [hadmits]
  rfl

theorem contact?_of_not_admits (h : f.admits ⟨time, pos.x⟩ = false) (solver : ContactSolver α) :
    f.contact? solver time pos = none := by
  unfold contact?
  dsimp only
  rw [if_pos]
  rw [h, Bool.not_false, Bool.or_true]

/-- The stride does not depend on where the supporting curve exists. -/
theorem stride_congr {f g : Option (Curve α)}
    (h : f.map Curve.formula = g.map Curve.formula) : stride time x f = stride time x g := by
  cases f with
  | none =>
    cases g with
    | none => rfl
    | some g => exact absurd h (by simp)
  | some f =>
    cases g with
    | none => exact absurd h (by simp)
    | some g =>
      have hformula : f.formula = g.formula := Option.some.inj h
      have hslope : f.slopeAt time x = g.slopeAt time x := by
        unfold slopeAt eval
        rw [hformula]
      unfold stride
      dsimp only
      rw [hslope]

end Curve

namespace GraphStore

/-- The curve of the graph with this id. -/
def curve? (s : GraphStore α) (id : GraphId) : Option (Curve α) := (s.get? id).map Graph.curve

end GraphStore

namespace Simulator

/-! ## Footings -/

/-- The footing after an offer of the graph with this id: a higher one is taken. -/
def Footing.consider (footing : Footing α) (time : α) (id : GraphId) : Option α → Footing α
  | none => footing
  | some contact =>
    if footing.height < contact then ⟨contact, some id, time⟩ else footing

/-- The footing after all graphs made their offers to a ball, in order. -/
def landing (solver : ContactSolver α) (time : α) (pos : Point α) (graphs : List (Graph α))
    (footing : Footing α) : Footing α :=
  graphs.foldl (fun footing graph =>
    footing.consider time graph.id (graph.curve.contact? solver time pos)) footing

variable {solver : ContactSolver α} {time : α} {pos : Point α}

@[simp] theorem landing_nil (footing : Footing α) :
    landing solver time pos [] footing = footing := rfl

@[simp] theorem landing_cons (graph : Graph α) (graphs : List (Graph α)) (footing : Footing α) :
    landing solver time pos (graph :: graphs) footing =
      landing solver time pos graphs
        (footing.consider time graph.id (graph.curve.contact? solver time pos)) := rfl

theorem landing_append (graphs more : List (Graph α)) (footing : Footing α) :
    landing solver time pos (graphs ++ more) footing =
      landing solver time pos more (landing solver time pos graphs footing) :=
  List.foldl_append

/-- The height a ball falls to in a tick if nothing holds it, and nothing holding it. -/
def falling (ball : Ball α) (time : α) : Footing α :=
  ⟨ball.pos.y - drop ball time - Rules.ballRadius, none, ball.lastContact⟩

/-! ## The move -/

theorem stepOn_eq (solver : ContactSolver α) (ball : Ball α) (footing : Footing α)
    {ctx : Context α} (hctx : ctx.t = time) (graph : Graph α) :
    (stepOn solver ball time (footing, ctx) graph).1 =
        footing.consider time graph.id (graph.curve.contact? solver time ball.pos) ∧
      (stepOn solver ball time (footing, ctx) graph).2.t = time := by
  unfold stepOn Curve.contact?
  simp only [Curve.evalAt_eq, hctx]
  split
  · exact ⟨rfl, rfl⟩
  · rw [ContactSolver.contactHeight_eq]
    unfold Footing.consider
    dsimp only
    split
    · exact ⟨rfl, ContactSolver.contactHeight_t ..⟩
    · exact ⟨rfl, ContactSolver.contactHeight_t ..⟩

theorem foldl_stepOn_eq (solver : ContactSolver α) (ball : Ball α) (graphs : List (Graph α))
    (footing : Footing α) {ctx : Context α} (hctx : ctx.t = time) :
    (graphs.foldl (stepOn solver ball time) (footing, ctx)).1 =
      landing solver time ball.pos graphs footing := by
  induction graphs generalizing footing ctx with
  | nil => rfl
  | cons graph graphs ih =>
    obtain ⟨hfooting, hkeeps⟩ := stepOn_eq solver ball footing hctx graph
    rw [List.foldl_cons, landing_cons, ← hfooting]
    exact ih _ hkeeps

theorem stride_eq (graphs : GraphStore α) (ball : Ball α) (ctx : Context α) :
    (stride graphs ball ctx).1 =
        Curve.stride ctx.t ball.pos.x (ball.support.bind graphs.curve?) ∧
      (stride graphs ball ctx).2.t = ctx.t := by
  unfold stride
  cases hsupport : ball.support with
  | none => exact ⟨rfl, rfl⟩
  | some id =>
    simp only [Option.bind_some, GraphStore.curve?]
    cases graphs.get? id with
    | none => exact ⟨rfl, rfl⟩
    | some graph => exact ⟨rfl, rfl⟩

/-- **The move.** The ball rolls as the curve it was supported by makes it and ends on its
landing. -/
theorem moveBall_eq (graphs : GraphStore α) (ball : Ball α) :
    moveBall solver graphs ball time =
      let footing := landing solver time ball.pos graphs.graphs (falling ball time)
      { pos := ⟨ball.pos.x + Curve.stride time ball.pos.x (ball.support.bind graphs.curve?),
          footing.height + Rules.ballRadius⟩
        support := footing.support
        lastContact := footing.lastContact } := by
  have hstride := (stride_eq graphs ball (.atTime time)).1
  have hkeeps : (stride graphs ball (.atTime time)).2.t = time := (stride_eq graphs ball _).2
  have hlanding := foldl_stepOn_eq solver ball graphs.graphs (falling ball time) hkeeps
  unfold moveBall
  unfold falling at hlanding ⊢
  dsimp only at hlanding ⊢
  rw [hlanding, hstride]
  rfl

end Simulator

end RollingBall
