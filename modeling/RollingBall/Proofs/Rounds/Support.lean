import RollingBall.Proofs.Rounds.Steady
import RollingBall.Proofs.Graphs.Answers

/-!
# Edits during a round

Between two ticks a ball keeps the id of the graph that held it, not the graph. If the graph is
removed in that time, the ball rolls as if nothing held it; but if another graph took the id since,
the ball rolls as on that one, wherever it is (`roll_after_edits`).
-/

namespace RollingBall

variable {α : Type}

namespace GraphStore

variable {s : GraphStore α}

theorem Accounted.curve?_of_recycled (h : s.Accounted) {id : GraphId}
    (hid : id.value ∈ s.recycled) : s.curve? id = none := by
  have hunused : id ∉ s.graphs.map Graph.id := by
    intro hmem
    obtain ⟨graph, hgraph, rfl⟩ := List.mem_map.mp hmem
    have hused : graph.id.value ∈ s.ids := List.mem_map_of_mem hgraph
    exact (List.nodup_append.mp h.nodup).2.2 _ hused _ hid rfl
  unfold curve?
  rw [get?_eq_none_iff.mpr hunused]
  rfl

theorem Accounted.curve?_of_mem (h : s.Accounted) {graph : Graph α} (hgraph : graph ∈ s.graphs) :
    s.curve? graph.id = some graph.curve := by
  unfold curve?
  rw [h.get?_eq_some_iff.mpr ⟨hgraph, rfl⟩]
  rfl

end GraphStore

namespace Simulator

variable [Scalar α]

/-- The simulator after some edits of its graphs, one after another. -/
def editAll (sim : Simulator α) (edits : List (GraphStore.Edit α)) : Simulator α :=
  edits.foldl edit sim

variable {sim : Simulator α}

/-- Edits leave the ball and the round as they are. -/
theorem editAll_eq (edits : List (GraphStore.Edit α)) :
    sim.editAll edits = { sim with graphs := sim.graphs.editAll edits } := by
  induction edits generalizing sim with
  | nil => rfl
  | cons e edits ih =>
    show (sim.edit e).editAll edits = _
    rw [ih, edit_eq]
    rfl

/-- **Edits and the support.** If the graph that held the ball was removed and no other took its id
since, the ball rolls on at its own speed. If a graph has the id again, the ball rolls as on the
curve of that graph. -/
theorem roll_after_edits (hgraphs : sim.graphs.Accounted) {id : GraphId}
    (hsupport : sim.ball.support = some id) {edits : List (GraphStore.Edit α)}
    (hroom : sim.graphs.peak edits ≤ UInt32.size) :
    let edited := sim.editAll edits
    (id ∈ (sim.graphs.log edits).spare →
      edited.nextBall.pos.x = sim.ball.pos.x + Rules.ballSpeed * Rules.tickTime) ∧
    ∀ graph ∈ edited.graphs.graphs, graph.id = id →
      edited.nextBall.pos.x =
        sim.ball.pos.x + Curve.stride sim.time sim.ball.pos.x (some graph.curve) := by
  intro edited
  have hedited : edited = { sim with graphs := sim.graphs.editAll edits } := editAll_eq edits
  have haccounted := hgraphs.editAll hroom
  have hroll : edited.nextBall.pos.x = sim.ball.pos.x +
      Curve.stride sim.time sim.ball.pos.x ((sim.graphs.editAll edits).curve? id) := by
    rw [nextBall_x, hedited]
    dsimp only
    rw [hsupport]
    rfl
  rw [hroll]
  constructor
  · intro hspare
    rw [haccounted.curve?_of_recycled (hgraphs.spare_editAll hroom hspare)]
    rfl
  · rintro graph hgraph rfl
    rw [hedited] at hgraph
    rw [haccounted.curve?_of_mem hgraph]

open scoped Reals

/-- The first graph of a store, of the text `x`. -/
noncomputable def diagonal : Graph ℝ := ⟨⟨0⟩, .unconditional (.var .x), (⟨0⟩ : GraphId).color ℝ⟩

theorem isLine_diagonal : diagonal.curve.IsLine 1 0 where
  eval_eq ctx := by
    show ctx.x = 1 * ctx.x + 0
    ring
  admits _ := rfl

/-- The curve of the text `2*x-7`, far below the diagonal and steeper. -/
noncomputable def low : Curve ℝ :=
  .unconditional (.binary .sub (.binary .mul (.constant 2.0) (.var .x)) (.constant 7.0))

theorem isLine_low : low.IsLine 2 (-7) where
  eval_eq ctx := by
    show 2.0 * ctx.x - 7.0 = 2 * ctx.x + -7
    norm_num
    ring
  admits _ := rfl

/-- A round on an open level whose only graph is the diagonal, after one tick. -/
noncomputable def held : Simulator ℝ :=
  ((ofLevel wideOpen).addGraph diagonal.curve).2.toggle.tick.2

/-- The tick has brought the ball onto the diagonal. -/
theorem held_spec : held.graphs = (GraphStore.empty.add diagonal.curve).2 ∧
    held.ball.support = some ⟨0⟩ ∧ held.ball.pos.x = 1 / 40 := by
  have hbegin : OnLine 1 0 diagonal ((ofLevel wideOpen).addGraph diagonal.curve).2.toggle :=
    onLine_toggle (start_wideOpen 1) rfl rfl rfl isLine_diagonal (by norm_num)
  obtain ⟨hsupport, hx, htick⟩ := hbegin.first_tick (by norm_num) rfl rfl rfl
  unfold held
  rw [htick]
  exact ⟨rfl, hsupport, hx⟩

/-- After the diagonal is removed the ball rolls at full speed; but if the curve far below is added
then, it gets the free id, and its slope is what slows the ball. -/
theorem roll_after_edits_of_held :
    let removed : List (GraphStore.Edit ℝ) := [.remove ⟨0⟩]
    let taken : List (GraphStore.Edit ℝ) := [.remove ⟨0⟩, .add low]
    held.graphs.Accounted ∧ held.ball.support = some ⟨0⟩ ∧ held.ball.pos.x = 1 / 40 ∧
      held.graphs.peak taken ≤ UInt32.size ∧
      (held.editAll removed).nextBall.pos.x = 1 / 20 ∧
      (held.editAll taken).nextBall.pos.x = 1 / 30 := by
  intro removed taken
  obtain ⟨hstore, hsupport, hx⟩ := held_spec
  have hgraphs : held.graphs.Accounted := by
    rw [hstore]
    exact GraphStore.accounted_empty.add (by decide) _
  have hremoved : held.graphs.peak removed ≤ UInt32.size := by
    rw [hstore]
    decide
  have htaken : held.graphs.peak taken ≤ UInt32.size := by
    rw [hstore]
    decide
  refine ⟨hgraphs, hsupport, hx, htaken, ?_, ?_⟩
  · have hspare : (⟨0⟩ : GraphId) ∈ (held.graphs.log removed).spare := by
      rw [hstore]
      exact List.mem_cons_self
    have hroll := (roll_after_edits hgraphs hsupport hremoved).1 hspare
    rw [hroll, hx, Rules.ballSpeed_real, Rules.tickTime_real]
    norm_num
  · have hmem : ⟨⟨0⟩, low, (⟨0⟩ : GraphId).color ℝ⟩ ∈ (held.editAll taken).graphs.graphs := by
      rw [editAll_eq, hstore]
      exact List.mem_cons_self
    have hroll := (roll_after_edits hgraphs hsupport htaken).2 _ hmem rfl
    rw [hroll, hx, isLine_low.stride_eq, Rules.ballSpeed_real, Rules.tickTime_real,
      max_eq_right zero_le_two]
    norm_num

end Simulator

end RollingBall
