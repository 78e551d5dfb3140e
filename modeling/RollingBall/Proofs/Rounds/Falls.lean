import RollingBall.Proofs.Motion.Pace
import RollingBall.Proofs.Rounds.Safety

/-!
# No ball hangs in the air

In exact arithmetic with infinities, a ball that no graph holds falls in every tick, and half a
second after its last contact it falls as fast as it can. A round goes on only while the ball is
within the height of the level. So within a hundred ticks either the round ends or a graph holds the
ball, whatever the graphs are and however they are edited in the meantime
(`Simulator.no_ball_hangs`).

## Main definitions

* `Simulator.Eventful`: the next tick ends the round or leaves the ball on a graph.
* `Simulator.FallsFor`: nothing has held the ball for some ticks.
-/

namespace RollingBall

open Scalar Scalar.Ieee

variable {α : Type} [Scalar α]

namespace Simulator

/-- The next tick ends the round, or one of the graphs holds the ball after it. -/
def Eventful (sim : Simulator α) : Prop :=
  sim.tick.1.isSome ∨ ∃ graph ∈ sim.graphs.graphs, sim.tick.2.ball.support = some graph.id

variable [Ieee α] [Exact α] {sim : Simulator α}

/-! ## The last contact -/

/-- The time of the round and that of the last contact, which is not later. -/
structure TimedAt (t c : ℝ) (sim : Simulator α) : Prop where
  time : value sim.time = some (t : EReal)
  lastContact : value sim.ball.lastContact = some (c : EReal)
  le : c ≤ t

theorem TimedAt.nextBall {t c : ℝ} (h : TimedAt t c sim) {level : Level α} :
    ∃ c', TimedAt (t + 1 / 60) c'
      { sim with level := level, ball := sim.nextBall, time := sim.time + Rules.tickTime } := by
  have htime : value (sim.time + Rules.tickTime) = some ((t + 1 / 60 : ℝ) : EReal) := by
    rw [Exact.value_add h.time Rules.value_tickTime_exact, EReal.coe_add]
  have hle := h.le
  rcases support_moveBall sim.solver sim.graphs sim.ball sim.time with
    ⟨-, hsame⟩ | ⟨-, hnow⟩
  · exact ⟨c, htime, (congrArg value hsame).trans h.lastContact, by linarith⟩
  · exact ⟨t, htime, (congrArg value hnow).trans h.time, by linarith⟩

/-- In a round the last contact was not later than now. -/
theorem exists_timedAt {level : Level α} {calls : List (Call α)}
    (h : ((ofLevel level).after calls).phase = .running) :
    ∃ t c, TimedAt t c ((ofLevel level).after calls) := by
  induction calls using List.reverseRecOn with
  | nil => exact absurd h (by simp [ofLevel])
  | append_singleton calls call ih =>
    rw [after_concat] at h ⊢
    obtain ⟨e, -, hp, hnext⟩ | ⟨-, hnext⟩ | ⟨-, hp, -, hnext⟩ := make_running h
    · obtain ⟨t, c, htimed⟩ := ih hp
      rw [hnext]
      exact ⟨t, c, htimed.time, htimed.lastContact, htimed.le⟩
    · rw [hnext]
      exact ⟨0, 0, value_zero, value_zero, le_rfl⟩
    · obtain ⟨t, c, htimed⟩ := ih hp
      rw [hnext]
      obtain ⟨c', hnext⟩ := htimed.nextBall
      exact ⟨_, c', hnext⟩

/-! ## Quiet ticks -/

omit [Exact α] in
/-- A tick of a round in which nothing happens lets the ball fall on. -/
theorem tick_of_quiet (hp : sim.phase = .running) (hquiet : ¬ sim.Eventful) :
    sim.nextBall.support = none ∧ sim.nextBall.lastContact = sim.ball.lastContact ∧
      verdict sim.nextLevel sim.nextBall = none ∧ sim.tick.2 = { sim with
        level := sim.nextLevel, ball := sim.nextBall, time := sim.time + Rules.tickTime } := by
  obtain ⟨hgoes, hfree⟩ := not_or.mp hquiet
  have hv : verdict sim.nextLevel sim.nextBall = none := by
    rw [fst_tick_running hp, Option.isSome_map] at hgoes
    exact Option.not_isSome_iff_eq_none.mp hgoes
  have hnext := congrArg Prod.snd (tick_continues hp hv)
  rcases support_moveBall sim.solver sim.graphs sim.ball sim.time with
    ⟨hnone, hsame⟩ | ⟨⟨graph, hmem, hheld⟩, -⟩
  · exact ⟨hnone, hsame, hv, hnext⟩
  · refine absurd ⟨graph, hmem, ?_⟩ hfree
    rw [hnext]
    exact hheld

/-- For `n` ticks nothing has held the ball, which touched a curve at the time `c` and was not in
danger of being lost at the time `t`. After half a second it falls as fast as it can. -/
structure FallsFor (t c : ℝ) (n : ℕ) (sim : Simulator α) : Prop where
  running : sim.phase = .running
  time : value sim.time = some ((t + n / 60 : ℝ) : EReal)
  lastContact : value sim.ball.lastContact = some (c : EReal)
  height : 0 < n → ∃ y : ℝ, value sim.ball.pos.y = some (y : EReal) ∧ -9 ≤ y ∧ y ≤ 9 ∧
    y ≤ 9 - 67 / 200 * (n - 30)

/-- **A quiet tick.** The ball falls for one tick more. -/
theorem FallsFor.tick {t c : ℝ} {n : ℕ} (h : FallsFor t c n sim) (hle : c ≤ t)
    (hquiet : ¬ sim.Eventful) : FallsFor t c (n + 1) sim.tick.2 := by
  obtain ⟨hnone, hsame, hv, hnext⟩ := tick_of_quiet h.running hquiet
  obtain ⟨y', hlow, hhigh, hy'⟩ := value_of_verdict_eq_none hv
  have htime : t + n / 60 + 1 / 60 = t + (n + 1 : ℕ) / 60 := by
    push_cast
    ring
  rw [hnext]
  refine ⟨h.running, ?_, (congrArg value hsame).trans h.lastContact, fun _ => ?_⟩
  · rw [← htime, EReal.coe_add]
    exact Exact.value_add h.time Rules.value_tickTime_exact
  · refine ⟨y', hy', hlow, hhigh, ?_⟩
    push_cast
    -- Before half a second has gone, the ball is only known not to be above the level.
    by_cases hlong : n < 30
    · have hearly : (n : ℝ) + 1 ≤ 30 := by exact_mod_cast hlong
      linarith
    · have hlate : (30 : ℝ) ≤ n := by exact_mod_cast not_lt.mp hlong
      obtain ⟨y, hy, -, -, hfallen⟩ := h.height (by omega)
      have hfall : fall (t + n / 60) c = 67 / 200 := fall_eq_of_long (by linarith)
      have hfalls := height_moveBall_of_none sim.solver sim.graphs hy h.time h.lastContact hnone
      rw [hfall, ← EReal.coe_sub] at hfalls
      have hsum : y' = y - 67 / 200 :=
        EReal.coe_injective (Option.some.inj (hy'.symm.trans hfalls))
      linarith

/-- **A quiet time.** Between toggles, the ball falls for as many ticks as nothing happens in. -/
theorem FallsFor.after {t c : ℝ} (h : FallsFor t c 0 sim) (hle : c ≤ t) {calls : List (Call α)}
    (htoggles : ∀ call ∈ calls, call.isToggle = false)
    (hquiet : ∀ before after, calls = before ++ .control .tick :: after →
      ¬ (sim.after before).Eventful) :
    FallsFor t c (calls.countP Call.isTick) (sim.after calls) := by
  induction calls using List.reverseRecOn with
  | nil => exact h
  | append_singleton calls call ih =>
    have hbefore : FallsFor t c (calls.countP Call.isTick) (sim.after calls) := by
      refine ih (fun call hcall => htoggles call (List.mem_append_left _ hcall)) ?_
      rintro before after rfl
      exact hquiet before (after ++ [call]) (by rw [List.append_assoc, List.cons_append])
    rw [after_concat, List.countP_append]
    cases call with
    | edit e =>
      show FallsFor t c _ ((sim.after calls).edit e)
      rw [edit_eq]
      exact ⟨hbefore.running, hbefore.time, hbefore.lastContact, hbefore.height⟩
    | control control =>
      cases control with
      | toggle =>
        have htoggle : true = false := htoggles _ (List.mem_append_right _ List.mem_cons_self)
        cases htoggle
      | tick => exact hbefore.tick hle (hquiet calls [] rfl)

/-- **A hundred ticks.** Something happens in one of them, whatever is edited in the meantime. -/
theorem exists_eventful {t c : ℝ} (htimed : TimedAt t c sim) (hp : sim.phase = .running)
    {calls : List (Call α)} (htoggles : ∀ call ∈ calls, call.isToggle = false)
    (hticks : 100 ≤ calls.countP Call.isTick) :
    ∃ before after, calls = before ++ .control .tick :: after ∧ (sim.after before).Eventful := by
  by_contra hnone
  have hquiet : ∀ before after, calls = before ++ .control .tick :: after →
      ¬ (sim.after before).Eventful := by
    intro before after hcalls heventful
    exact hnone ⟨before, after, hcalls, heventful⟩
  have hbegin : FallsFor t c 0 sim := by
    refine ⟨hp, ?_, htimed.lastContact, fun h => absurd h (Nat.lt_irrefl 0)⟩
    rw [Nat.cast_zero, zero_div, add_zero]
    exact htimed.time
  obtain ⟨y, -, hlow, -, hfallen⟩ :=
    (hbegin.after htimed.le htoggles hquiet).height (by omega)
  have hlate : (100 : ℝ) ≤ calls.countP Call.isTick := by exact_mod_cast hticks
  linarith

omit [Ieee α] [Exact α] in
theorem graphs_after_ticks (k : ℕ) :
    (sim.after (List.replicate k (.control .tick))).graphs = sim.graphs := by
  induction k with
  | zero => rfl
  | succ k ih =>
    rw [List.replicate_succ', after_concat]
    exact tick_keeps.1.trans ih

omit [Scalar α] [Ieee α] [Exact α] in
theorem isToggle_of_mem_ticks {k : ℕ} {call : Call α}
    (h : call ∈ List.replicate k (.control .tick)) : call.isToggle = false := by
  rw [List.eq_of_mem_replicate h]
  rfl

/-- **No ball hangs.** In every state of a round, one tick moves a ball at a defined place to the
right by a tick at full speed at most, down by the longest fall at most and, if nothing holds it
then, by the shortest fall at least. Of a hundred ticks without a toggle between them, one ends the
round or leaves the ball on a graph. Without graphs, one of the next hundred ends the round. -/
theorem no_ball_hangs (level : Level α) (calls : List (Call α))
    (hp : ((ofLevel level).after calls).phase = .running) :
    let sim := (ofLevel level).after calls
    (isNaN sim.ball.pos.x = false → isNaN sim.ball.pos.y = false →
      sim.nextBall.pos.x ≤ sim.ball.pos.x + Rules.ballSpeed * Rules.tickTime ∧
      sim.ball.pos.y - Rules.maxFallTime * Rules.gravity ≤ sim.nextBall.pos.y ∧
      (sim.nextBall.support = none →
        sim.nextBall.pos.y ≤ sim.ball.pos.y - Rules.minFallTime * Rules.gravity)) ∧
    (∀ more : List (Call α), (∀ call ∈ more, call.isToggle = false) →
      100 ≤ more.countP Call.isTick →
      ∃ before after, more = before ++ .control .tick :: after ∧
        ((sim.after before).tick.1.isSome ∨ ∃ graph ∈ (sim.after before).graphs.graphs,
          (sim.after before).tick.2.ball.support = some graph.id)) ∧
    (sim.graphs.graphs = [] →
      ∃ k < 100, (sim.after (List.replicate k (.control .tick))).tick.1.isSome) := by
  intro sim
  obtain ⟨t, c, htimed⟩ := exists_timedAt hp
  refine ⟨?_, ?_, ?_⟩
  · intro hx hy
    obtain ⟨y, hy⟩ := not_isNaN_iff.mp hy
    refine ⟨x_moveBall_le sim.solver sim.graphs hx, ?_, fun hnone => ?_⟩
    · exact sub_longestFall_le_moveBall sim.solver sim.graphs hy htimed.time htimed.lastContact
    · exact moveBall_le_sub_shortestFall sim.solver sim.graphs hy htimed.time htimed.lastContact
        hnone
  · intro more htoggles hticks
    exact exists_eventful htimed hp htoggles hticks
  · intro hgraphs
    have hticks : 100 ≤ (List.replicate 100 (.control .tick : Call α)).countP Call.isTick := by
      rw [List.countP_replicate]
      exact le_rfl
    obtain ⟨before, after, hcalls, heventful⟩ :=
      exists_eventful htimed hp (fun _ => isToggle_of_mem_ticks) hticks
    obtain ⟨hlength, hbefore, -⟩ := List.append_eq_replicate_iff.mp hcalls.symm
    rw [List.length_cons] at hlength
    rw [hbefore] at heventful
    refine ⟨before.length, by omega, ?_⟩
    rcases heventful with hend | ⟨graph, hmem, -⟩
    · exact hend
    · rw [graphs_after_ticks, hgraphs] at hmem
      exact absurd hmem List.not_mem_nil

/-- A level over nothing. -/
noncomputable def abyss : Level Extended := .still ⟨0.0, 0.0⟩ ⟨5.0, 0.0⟩ []

theorem no_ball_hangs_abyss :
    let sim := (ofLevel abyss).after [.control .toggle]
    let ticks : List (Call Extended) := List.replicate 100 (.control .tick)
    sim.phase = .running ∧ isNaN sim.ball.pos.x = false ∧ isNaN sim.ball.pos.y = false ∧
      sim.nextBall.pos.x ≤ sim.ball.pos.x + Rules.ballSpeed * Rules.tickTime ∧
      sim.nextBall.support = none ∧
      sim.nextBall.pos.y ≤ sim.ball.pos.y - Rules.minFallTime * Rules.gravity ∧
      (∃ before after, ticks = before ++ .control .tick :: after ∧
        ((sim.after before).tick.1.isSome ∨ ∃ graph ∈ (sim.after before).graphs.graphs,
          (sim.after before).tick.2.ball.support = some graph.id)) ∧
      ∃ k < 100, (sim.after (List.replicate k (.control .tick))).tick.1.isSome := by
  intro sim ticks
  have hx : isNaN sim.ball.pos.x = false := isNaN_of_value value_zero
  have hy : isNaN sim.ball.pos.y = false :=
    isNaN_of_value (Exact.value_add value_zero Rules.value_ballRadius_exact)
  obtain ⟨hbounds, hhundred, hends⟩ := no_ball_hangs abyss [.control .toggle] rfl
  obtain ⟨hpace, -, hfalls⟩ := hbounds hx hy
  refine ⟨rfl, hx, hy, hpace, rfl, hfalls rfl, ?_, hends rfl⟩
  exact hhundred ticks (fun _ => isToggle_of_mem_ticks) le_rfl

end Simulator

end RollingBall
