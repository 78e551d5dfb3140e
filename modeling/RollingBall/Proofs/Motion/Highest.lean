import RollingBall.Proofs.Graphs.Ids
import RollingBall.Proofs.Motion.Move
import RollingBall.Proofs.Numbers.Double
import RollingBall.Proofs.Numbers.Order

/-!
# The highest surface

Some of the graphs may hold the ball (`Curve.Holds`). Each would hold its lowest point at some
height, the surface of its curve (`Curve.surface`). The ball lands on the first of the highest
surfaces if it is above the height the ball would fall to, and falls otherwise (`Simulator.Lands`).
All that is asked of the numbers is how `<` orders them, and a little of the radius of the ball.

The one pass over the graphs keeps the first highest surface so far. Another graph is higher than it
or not, and if it is not, it is below all that are higher later on, since `<` is total.

## Main definitions

* `Simulator.holders`: the graphs that may hold the ball, in the order they were added.
* `Simulator.Greatest`: a greatest number of a list.
* `Simulator.Lands`: how a ball lands among the graphs that may hold it.
-/

namespace RollingBall

open Scalar

variable {α : Type} [Scalar α]

/-! ## Surfaces -/

namespace Curve

/-- The height at which the curve would hold the lowest point of a ball. -/
def surface (f : Curve α) (solver : ContactSolver α) (time x : α) : α :=
  (solver.contactHeight f (.atTime time) x).1 - Rules.ballRadius

/-- The curve may hold the ball: at the ball it has a height, which is not above the middle of the
ball, its condition is met, and the ball touches it at some height. -/
structure Holds (f : Curve α) (solver : ContactSolver α) (time : α) (pos : Point α) : Prop where
  eval : isNaN (f.eval ⟨time, pos.x⟩) = false
  below : ¬ pos.y < f.eval ⟨time, pos.x⟩ - Rules.contactSlack
  admits : f.admits ⟨time, pos.x⟩ = true
  contact : isNaN (solver.contactHeight f (.atTime time) pos.x).1 = false

variable {f : Curve α} {solver : ContactSolver α} {time : α} {pos : Point α}

theorem holds_iff : f.Holds solver time pos ↔
    isNaN (f.eval ⟨time, pos.x⟩) = false ∧ ¬ pos.y < f.eval ⟨time, pos.x⟩ - Rules.contactSlack ∧
      f.admits ⟨time, pos.x⟩ = true ∧
      isNaN (solver.contactHeight f (.atTime time) pos.x).1 = false :=
  ⟨fun h => ⟨h.eval, h.below, h.admits, h.contact⟩, fun h => ⟨h.1, h.2.1, h.2.2.1, h.2.2.2⟩⟩

instance : Decidable (f.Holds solver time pos) := decidable_of_iff _ holds_iff.symm

theorem contact?_of_holds (h : f.Holds solver time pos) :
    f.contact? solver time pos = some (f.surface solver time pos.x) := by
  unfold contact?
  dsimp only
  rw [h.eval, h.admits, decide_eq_false h.below]
  rfl

/-- A curve that may not hold the ball offers nothing or an undefined height. -/
theorem contact?_of_not_holds (h : ¬ f.Holds solver time pos) :
    f.contact? solver time pos = none ∨
      isNaN (solver.contactHeight f (.atTime time) pos.x).1 = true ∧
        f.contact? solver time pos = some (f.surface solver time pos.x) := by
  unfold contact?
  dsimp only
  split
  · exact .inl rfl
  · rename_i hoffers
    simp only [Bool.or_eq_true, not_or, Bool.not_eq_true, decide_eq_false_iff_not,
      Bool.not_eq_false'] at hoffers
    refine .inr ⟨?_, rfl⟩
    by_contra hdefined
    exact h ⟨hoffers.1.1, hoffers.1.2, hoffers.2, Bool.not_eq_true _ ▸ hdefined⟩

theorem isNaN_surface [Scalar.Ordered α] (x : α) :
    isNaN (f.surface solver time x) = isNaN (solver.contactHeight f (.atTime time) x).1 :=
  Ordered.isNaN_sub_ballRadius _

end Curve

namespace Simulator

variable {solver : ContactSolver α} {time : α} {pos : Point α} {footing : Footing α}

/-- The graphs that may hold the ball, in the order they were added. -/
def holders (solver : ContactSolver α) (time : α) (pos : Point α) (graphs : List (Graph α)) :
    List (Graph α) :=
  graphs.filter fun graph => graph.curve.Holds solver time pos

theorem consider_of_holds {graph : Graph α} (h : graph.curve.Holds solver time pos) :
    footing.consider time graph.id (graph.curve.contact? solver time pos) =
      if footing.height < graph.curve.surface solver time pos.x then
        ⟨graph.curve.surface solver time pos.x, some graph.id, time⟩
      else footing := by
  rw [Curve.contact?_of_holds h]
  rfl

variable [Scalar.Ordered α]

theorem consider_of_not_holds {graph : Graph α} (h : ¬ graph.curve.Holds solver time pos) :
    footing.consider time graph.id (graph.curve.contact? solver time pos) = footing := by
  rcases Curve.contact?_of_not_holds h with hnone | ⟨hundefined, hoffer⟩
  · rw [hnone]
    rfl
  · rw [hoffer]
    refine if_neg fun hhigher => ?_
    have hdefined := (Ordered.defined_of_lt hhigher).2
    rw [Curve.isNaN_surface, hundefined] at hdefined
    exact Bool.noConfusion hdefined

/-! ## Landing -/

/-- How a ball lands among graphs that may hold it: it falls, with no surface above it, or rests on
the first of the highest. -/
inductive Lands (solver : ContactSolver α) (time x : α) (graphs : List (Graph α))
    (footing : Footing α) : Footing α → Prop where
  | falls (hlow : ∀ graph ∈ graphs, ¬ footing.height < graph.curve.surface solver time x) :
      Lands solver time x graphs footing footing
  | rests (before : List (Graph α)) (graph : Graph α) (after : List (Graph α))
      (hsplit : graphs = before ++ graph :: after)
      (hhigher : footing.height < graph.curve.surface solver time x)
      (hbefore : ∀ other ∈ before,
        other.curve.surface solver time x < graph.curve.surface solver time x)
      (hafter : ∀ other ∈ after,
        ¬ graph.curve.surface solver time x < other.curve.surface solver time x) :
      Lands solver time x graphs footing
        ⟨graph.curve.surface solver time x, some graph.id, time⟩

/-- A number of the list that none of the list is greater than. -/
def Greatest (m : α) (ms : List α) : Prop := m ∈ ms ∧ ∀ a ∈ ms, ¬ m < a

/-- In whatever order a list is, its greatest number is the same. -/
theorem Greatest.beq_of_perm {m m' : α} {ms ms' : List α} (h : Greatest m ms)
    (h' : Greatest m' ms') (hperm : ms.Perm ms') (hm : isNaN m = false) (hm' : isNaN m' = false) :
    m == m' :=
  Ordered.beq_of_not_lt hm hm' (h.2 m' (hperm.mem_iff.mpr h'.1)) (h'.2 m (hperm.mem_iff.mp h.1))

namespace Lands

variable {x : α} {graph : Graph α} {graphs : List (Graph α)} {landed : Footing α}

theorem cons_low (hdefined : isNaN (graph.curve.surface solver time x) = false)
    (hlow : ¬ footing.height < graph.curve.surface solver time x)
    (h : Lands solver time x graphs footing landed) :
    Lands solver time x (graph :: graphs) footing landed := by
  cases h with
  | falls hrest => exact .falls (List.forall_mem_cons.mpr ⟨hlow, hrest⟩)
  | rests before best after hsplit hhigher hbefore hafter =>
    have hbelow := (Ordered.lt_or_lt hdefined hhigher).resolve_left hlow
    refine .rests (graph :: before) best after (congrArg _ hsplit) hhigher ?_ hafter
    exact List.forall_mem_cons.mpr ⟨hbelow, hbefore⟩

theorem cons_high (hhigh : footing.height < graph.curve.surface solver time x)
    (h : Lands solver time x graphs ⟨graph.curve.surface solver time x, some graph.id, time⟩
      landed) :
    Lands solver time x (graph :: graphs) footing landed := by
  cases h with
  | falls hrest => exact .rests [] graph graphs rfl hhigh (List.forall_mem_nil _) hrest
  | rests before best after hsplit hhigher hbefore hafter =>
    refine .rests (graph :: before) best after (congrArg _ hsplit)
      (IsTrans.trans _ _ _ hhigh hhigher) ?_ hafter
    exact List.forall_mem_cons.mpr ⟨hhigher, hbefore⟩

/-- The ball lands at the greatest of the height it would fall to and the surfaces. -/
theorem greatest (h : Lands solver time x graphs footing landed) :
    Greatest landed.height
      (footing.height :: graphs.map fun graph => graph.curve.surface solver time x) := by
  cases h with
  | falls hlow =>
    refine ⟨List.mem_cons_self, List.forall_mem_cons.mpr ⟨irrefl _, ?_⟩⟩
    exact List.forall_mem_map.mpr hlow
  | rests before best after hsplit hhigher hbefore hafter =>
    subst hsplit
    refine ⟨List.mem_cons_of_mem _ (List.mem_map.mpr ⟨best, by simp, rfl⟩), ?_⟩
    refine List.forall_mem_cons.mpr ⟨asymm hhigher, List.forall_mem_map.mpr ?_⟩
    refine List.forall_mem_append.mpr ⟨fun other hmem => asymm (hbefore other hmem), ?_⟩
    exact List.forall_mem_cons.mpr ⟨irrefl _, hafter⟩

theorem isNaN_height (h : Lands solver time x graphs footing landed)
    (hdefined : isNaN footing.height = false) : isNaN landed.height = false := by
  cases h with
  | falls => exact hdefined
  | rests _ _ _ _ hhigher => exact (Ordered.defined_of_lt hhigher).2

/-- A ball of undefined height falls. -/
theorem eq_of_isNaN (h : Lands solver time x graphs footing landed)
    (hundefined : isNaN footing.height = true) : landed = footing := by
  cases h with
  | falls => rfl
  | rests _ _ _ _ hhigher =>
    have hdefined := (Ordered.defined_of_lt hhigher).1
    exact absurd (hundefined.symm.trans hdefined) (by decide)

end Lands

/-- **Landing.** The pass over all graphs lands the ball among those that may hold it. -/
theorem lands_landing (solver : ContactSolver α) (time : α) (pos : Point α)
    (graphs : List (Graph α)) (footing : Footing α) :
    Lands solver time pos.x (holders solver time pos graphs) footing
      (landing solver time pos graphs footing) := by
  induction graphs generalizing footing with
  | nil => exact .falls (List.forall_mem_nil _)
  | cons graph graphs ih =>
    rw [landing_cons]
    by_cases hholds : graph.curve.Holds solver time pos
    · rw [holders, List.filter_cons, if_pos (decide_eq_true hholds), consider_of_holds hholds]
      split
      · rename_i hhigh
        exact .cons_high hhigh (ih _)
      · rename_i hlow
        exact .cons_low ((Curve.isNaN_surface _).trans hholds.contact) hlow (ih _)
    · rw [holders, List.filter_cons, if_neg (by simpa using hholds),
        consider_of_not_holds hholds]
      exact ih _

/-! ## The move -/

theorem beq_height_of_perm {graphs others : GraphStore α} (hperm : others.graphs.Perm graphs.graphs)
    {ball : Ball α} (hdefined : isNaN (falling ball time).height = false) :
    (moveBall solver others ball time).pos.y == (moveBall solver graphs ball time).pos.y := by
  have hlands := lands_landing solver time ball.pos graphs.graphs (falling ball time)
  have hlands' := lands_landing solver time ball.pos others.graphs (falling ball time)
  rw [moveBall_eq, moveBall_eq]
  refine Ordered.beq_add_ballRadius (hlands'.greatest.beq_of_perm hlands.greatest ?_
    (hlands'.isNaN_height hdefined) (hlands.isNaN_height hdefined))
  exact ((hperm.filter _).map _).cons _

/-- **The highest surface.** After a move the lowest point of the ball is at the greatest of the
height it would fall to and the surfaces of the graphs that may hold it. If that is higher than the
fall, the first of these graphs with that surface holds the ball, else none does. In whatever order
the graphs were added, the ball is as high. -/
theorem ball_takes_highest_surface (solver : ContactSolver α) (graphs : GraphStore α)
    (ball : Ball α) (time : α) :
    let fall := ball.pos.y -
      clamp Rules.minFallTime Rules.maxFallTime (time - ball.lastContact) * Rules.gravity -
      Rules.ballRadius
    let held := holders solver time ball.pos graphs.graphs
    let surface := fun graph : Graph α => graph.curve.surface solver time ball.pos.x
    let moved := moveBall solver graphs ball time
    (∃ bottom, moved.pos.y = bottom + Rules.ballRadius ∧
      Greatest bottom (fall :: held.map surface) ∧
      (fall < bottom → ∃ before graph after, held = before ++ graph :: after ∧
        surface graph = bottom ∧ (∀ other ∈ before, surface other < bottom) ∧
        moved.support = some graph.id) ∧
      (¬ fall < bottom → bottom = fall ∧ moved.support = none)) ∧
    moved.lastContact = (if moved.support.isSome then time else ball.lastContact) ∧
    ∀ others : GraphStore α, others.graphs.Perm graphs.graphs →
      (isNaN fall = false → (moveBall solver others ball time).pos.y == moved.pos.y) ∧
      (isNaN fall = true → (moveBall solver others ball time).pos.y = moved.pos.y) := by
  intro fall held surface moved
  have hlands := lands_landing solver time ball.pos graphs.graphs (falling ball time)
  have hmoved : moved = _ := moveBall_eq graphs ball
  generalize landing solver time ball.pos graphs.graphs (falling ball time) = landed
    at hlands hmoved
  dsimp only at hmoved
  refine ⟨⟨landed.height, congrArg (fun ball => ball.pos.y) hmoved, hlands.greatest, ?_⟩, ?_, ?_⟩
  · rw [hmoved]
    cases hlands with
    | falls => exact ⟨fun hhigher => absurd hhigher (irrefl _), fun _ => ⟨rfl, rfl⟩⟩
    | rests before best after hsplit hhigher hbefore =>
      exact ⟨fun _ => ⟨before, best, after, hsplit, rfl, hbefore, rfl⟩,
        fun hlow => absurd hhigher hlow⟩
  · rw [hmoved]
    cases hlands with
    | falls => rfl
    | rests => rfl
  · intro others hperm
    refine ⟨beq_height_of_perm hperm, fun hundefined => ?_⟩
    have hlands' := lands_landing solver time ball.pos others.graphs (falling ball time)
    rw [hmoved, moveBall_eq, hlands.eq_of_isNaN hundefined, hlands'.eq_of_isNaN hundefined]

/-- Terraces at zero, at one and a half, twice, and at three, and among them a curve that is
undefined and one whose condition is never met. -/
def terraces : GraphStore Float :=
  .ofCurves [.unconditional (.constant 0.0), .unconditional (.constant (0.0 / 0.0)),
    ⟨.constant 1.8, .constant false⟩, .unconditional (.constant 1.5),
    .unconditional (.constant 1.5), .unconditional (.constant 3.0)]

/-- The first of the two terraces of one height holds a ball above them, and the ball is as high if
the graphs are in reverse order. -/
theorem terrace_takes_ball :
    let solver : ContactSolver Float := ⟨0.4, 1⟩
    let ball : Ball Float := ⟨⟨0.0, 1.9⟩, none, 0.0⟩
    let moved := moveBall solver terraces ball 0.25
    (∃ before graph after,
      holders solver 0.25 ball.pos terraces.graphs = before ++ graph :: after ∧ graph.id = ⟨3⟩ ∧
        moved.pos.y = graph.curve.surface solver 0.25 0.0 + Rules.ballRadius ∧
        ∀ other ∈ before,
          other.curve.surface solver 0.25 0.0 < graph.curve.surface solver 0.25 0.0) ∧
      moved.lastContact = 0.25 ∧
      (moveBall solver ⟨terraces.graphs.reverse, [], 6⟩ ball 0.25).pos.y == moved.pos.y := by
  intro solver ball moved
  have hsupport : moved.support = some ⟨3⟩ := by decide +kernel
  obtain ⟨⟨bottom, hy, -, hrests, hfalls⟩, hcontact, hperm⟩ :=
    ball_takes_highest_surface solver terraces ball 0.25
  rw [hsupport] at hrests hfalls hcontact
  refine ⟨?_, hcontact, (hperm _ (List.reverse_perm _)).1 (by decide +kernel)⟩
  have hhigher := not_not.mp fun hlow => Option.some_ne_none _ (hfalls hlow).2
  obtain ⟨before, graph, after, hsplit, rfl, hbefore, hid⟩ := hrests hhigher
  exact ⟨before, graph, after, hsplit, (Option.some.inj hid).symm, hy, hbefore⟩

end Simulator

end RollingBall
