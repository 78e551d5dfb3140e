import RollingBall.Proofs.Motion.Move

/-!
# No trace of a contact

A tick reads the slope of the curve under the ball and looks for a contact with every graph, all in
one context, whose coordinate each of them overwrites. The context could as well be a new one for
each of them (`Simulator.moveBallAfresh`): of what was read before, nothing is left but the time.
This follows from the search being a plain one (`contacts_leave_no_trace`), which is so for numbers
of any kind, with formulas that are undefined at some places.

## Main definitions

* `Simulator.moveBallAfresh`: the move of a tick with a new context for the slope and each graph.
-/

namespace RollingBall

variable {α : Type} [Scalar α]

namespace Simulator

/-- The ball after one tick from a time, if the slope and each of the graphs are read in a new
context. -/
def moveBallAfresh (solver : ContactSolver α) (graphs : GraphStore α) (ball : Ball α) (time : α) :
    Ball α :=
  let fallen := ball.pos.y - drop ball time - Rules.ballRadius
  let dx := (stride graphs ball (.atTime time)).1
  let footing := graphs.graphs.foldl
    (fun footing graph => (stepOn solver ball time (footing, .atTime time) graph).1)
    ⟨fallen, none, ball.lastContact⟩
  { pos := ⟨ball.pos.x + dx, footing.height + Rules.ballRadius⟩
    support := footing.support
    lastContact := footing.lastContact }

/-- Read in a new context, each graph makes the offer that it makes at the moment. -/
theorem foldl_stepOn_afresh (solver : ContactSolver α) (ball : Ball α) (time : α)
    (graphs : List (Graph α)) (footing : Footing α) :
    graphs.foldl (fun footing graph => (stepOn solver ball time (footing, .atTime time) graph).1)
      footing = landing solver time ball.pos graphs footing := by
  induction graphs generalizing footing with
  | nil => rfl
  | cons graph graphs ih =>
    have hfresh : (Context.atTime time).t = time := rfl
    have hstep := (stepOn_eq solver ball footing hfresh graph).1
    rw [List.foldl_cons, landing_cons, hstep]
    exact ih _

/-- A context that goes from graph to graph does not change the move. -/
theorem moveBall_afresh (solver : ContactSolver α) (graphs : GraphStore α) (ball : Ball α)
    (time : α) : moveBall solver graphs ball time = moveBallAfresh solver graphs ball time := by
  have hlanding := foldl_stepOn_afresh solver ball time graphs.graphs (falling ball time)
  have hstride := (stride_eq graphs ball (.atTime time)).1
  rw [moveBall_eq]
  unfold moveBallAfresh
  unfold falling at hlanding ⊢
  dsimp only at hlanding ⊢
  rw [hlanding, hstride]
  rfl

end Simulator

/-- **No trace.** The search for a contact, which remembers what its probes saw, finds the height
that the plain search finds, which reads the curve at both places in every step; and what it
remembers is always the clearance at its two places. The height does not depend on the coordinate
in the context nor on where the curve exists, and the context keeps its time. So a tick moves the
ball as if the slope and each of the graphs were read in a new context. -/
theorem contacts_leave_no_trace (solver : ContactSolver α) (f : Curve α) (ctx : Context α)
    (ballX : α) :
    let clearance := solver.gap (fun x => f.eval ⟨ctx.t, x⟩) ballX
    let after := fun n => (solver.search f.evalAt ballX n (solver.bracket f.evalAt ballX ctx)).1
    (solver.contactHeight f ctx ballX).1 =
        solver.plainHeight (fun x => f.eval ⟨ctx.t, x⟩) ballX ∧
      (∀ n, (after n).yc = clearance (after n).c ∧ (after n).yd = clearance (after n).d) ∧
      (∀ x condition, (solver.contactHeight ⟨f.formula, condition⟩ ⟨ctx.t, x⟩ ballX).1 =
        (solver.contactHeight f ctx ballX).1) ∧
      (solver.contactHeight f ctx ballX).2.t = ctx.t ∧
      ∀ (graphs : GraphStore α) (ball : Ball α) (time : α),
        Simulator.moveBall solver graphs ball time =
          Simulator.moveBallAfresh solver graphs ball time := by
  intro clearance after
  have hrest := solver.shows_rest (f.shows_evalAt ctx.t)
  have hplain : (solver.contactHeight f ctx ballX).1 = _ := hrest.value ballX rfl
  refine ⟨hplain, fun n => ?_, fun x condition => ?_, hrest.keeps ballX rfl, ?_⟩
  · have hseen : after n = _ :=
      (solver.search_bracket_seen (f.shows_evalAt ctx.t) (s := ctx) rfl ballX n).1
    rw [hseen]
    exact ⟨rfl, rfl⟩
  · -- The curve with another condition has the same heights.
    have hother := solver.shows_rest (Curve.shows_evalAt ⟨f.formula, condition⟩ ctx.t)
    exact (hother.value ballX (s := ⟨ctx.t, x⟩) rfl).trans hplain.symm
  · exact Simulator.moveBall_afresh solver

end RollingBall
