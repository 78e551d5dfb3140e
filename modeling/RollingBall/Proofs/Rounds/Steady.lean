import RollingBall.Proofs.Contact.Lines
import RollingBall.Proofs.Rounds.Calls

/-!
# A ball on a straight line rolls steadily

In exact arithmetic, a ball that starts on a straight line stays on it: the line is neither so far
above the ball that it does not count, nor so far below that the ball falls past it
(`Simulator.OnLine`), and a move keeps this if the line is not too steep. So the line holds the ball
in every tick, its middle is as far above the line as in the tick before, and its speed is that of
the slope from the second tick on (`Simulator.ball_rolls_steadily`).

## Main definitions

* `Simulator.OnLine`: the next move ends on the line.
-/

namespace RollingBall

open scoped Reals

/-! ## What a line offers -/

namespace Curve.IsLine

variable {f : Curve ℝ} {m c : ℝ} (h : f.IsLine m c)

include h

/-- The slope that is measured on a line is its slope. -/
theorem slopeAt_eq (time x : ℝ) : f.slopeAt time x = m := by
  unfold slopeAt
  rw [h.eval_eq, h.eval_eq, Rules.slopeWidth_real]
  norm_num
  ring

theorem stride_eq (time x : ℝ) :
    stride time x (some f) = (Rules.ballSpeed - 1 / 2 * max 0 m) * Rules.tickTime := by
  unfold stride
  dsimp only
  rw [h.slopeAt_eq, Scalar.larger_real]
  norm_num
  exact .inl (max_comm m 0)

/-- The line holds a ball that is not too far below it. -/
theorem contact?_eq {pos : Point ℝ} (hlow : m * pos.x + c - Rules.contactSlack ≤ pos.y)
    (time : ℝ) :
    f.contact? (.ofRadius Rules.ballRadius) time pos =
      some (m * pos.x + c + restOnLine m - Rules.ballRadius) := by
  unfold contact?
  dsimp only
  rw [h.eval_eq, h.admits, h.contactHeight_eq, Scalar.isNaN_real, decide_eq_false (not_lt.mpr hlow)]
  rfl

end Curve.IsLine

namespace Simulator

/-- A ball that touched a curve not long ago falls by the least there is. -/
theorem drop_of_recent {ball : Ball ℝ} {time : ℝ}
    (h : time - ball.lastContact ≤ Rules.minFallTime) : drop ball time = 67 / 1000 := by
  rw [Rules.minFallTime_real] at h
  unfold drop
  rw [Rules.minFallTime_real, Rules.maxFallTime_real, Rules.gravity_real,
    Scalar.clamp_real (by norm_num), max_eq_left ((min_le_right _ _).trans h)]
  norm_num

/-- The graph is a straight line and the only one, and the next move ends on it: the ball touched it
not long ago, it is not too far below the line, and it does not fall past it. -/
structure OnLine (m c : ℝ) (graph : Graph ℝ) (sim : Simulator ℝ) : Prop where
  solver : sim.solver = .ofRadius Rules.ballRadius
  graphs : sim.graphs.graphs = [graph]
  line : graph.curve.IsLine m c
  support : sim.ball.support = none ∨ sim.ball.support = some graph.id
  recent : sim.time - sim.ball.lastContact ≤ Rules.minFallTime
  low : m * sim.ball.pos.x + c - Rules.contactSlack ≤ sim.ball.pos.y
  high : sim.ball.pos.y - 67 / 1000 < m * sim.ball.pos.x + c + restOnLine m

namespace OnLine

variable {m c : ℝ} {graph : Graph ℝ} {sim : Simulator ℝ} (h : OnLine m c graph sim)

include h

theorem curve?_eq : sim.graphs.curve? graph.id = some graph.curve := by
  unfold GraphStore.curve? GraphStore.get?
  rw [h.graphs, List.find?_cons_of_pos (by exact decide_eq_true rfl), Option.map_some]

omit h in
theorem nextBall_x_of_none (hsupport : sim.ball.support = none) :
    sim.nextBall.pos.x = sim.ball.pos.x + Rules.ballSpeed * Rules.tickTime := by
  rw [nextBall_x, hsupport]
  rfl

theorem nextBall_x_of_some (hsupport : sim.ball.support = some graph.id) :
    sim.nextBall.pos.x =
      sim.ball.pos.x + (Rules.ballSpeed - 1 / 2 * max 0 m) * Rules.tickTime := by
  rw [nextBall_x, hsupport, Option.bind_some, h.curve?_eq, h.line.stride_eq]

/-- The ball does not roll back, and not faster than at full speed. -/
theorem stride_mem_Icc (hm : m ≤ 3) :
    sim.nextBall.pos.x - sim.ball.pos.x ∈ Set.Icc 0 (1 / 40) := by
  rcases h.support with hnone | hsome
  · rw [nextBall_x_of_none hnone, Rules.ballSpeed_real, Rules.tickTime_real, add_sub_cancel_left]
    norm_num
  · have hslow : max 0 m ≤ 3 := max_le (by norm_num) hm
    have hnonneg : 0 ≤ max 0 m := le_max_left 0 m
    rw [h.nextBall_x_of_some hsome, Rules.ballSpeed_real, Rules.tickTime_real, add_sub_cancel_left]
    constructor <;> linarith

/-- **The move.** The line holds the ball, above the place from which it rolls. -/
theorem nextBall_eq : sim.nextBall =
    { pos := ⟨sim.nextBall.pos.x, m * sim.ball.pos.x + c + restOnLine m⟩
      support := some graph.id
      lastContact := sim.time } := by
  have hcontact := h.line.contact?_eq h.low sim.time
  have hhigher : (falling sim.ball sim.time).height <
      m * sim.ball.pos.x + c + restOnLine m - Rules.ballRadius := by
    show sim.ball.pos.y - drop sim.ball sim.time - Rules.ballRadius < _
    rw [drop_of_recent h.recent]
    exact sub_lt_sub_right h.high _
  have hlanding : landing sim.solver sim.time sim.ball.pos sim.graphs.graphs
      (falling sim.ball sim.time) =
        ⟨m * sim.ball.pos.x + c + restOnLine m - Rules.ballRadius, some graph.id, sim.time⟩ := by
    rw [h.graphs, h.solver, landing_cons, landing_nil, hcontact]
    exact if_pos hhigher
  unfold nextBall
  rw [moveBall_eq, hlanding]
  dsimp only
  rw [sub_add_cancel]

/-- **A tick.** If the round goes on, the next move ends on the line again. -/
theorem tick (hm : -5 / 2 ≤ m) (hm' : m ≤ 3) {level : Level ℝ} :
    OnLine m c graph
      { sim with level := level, ball := sim.nextBall, time := sim.time + Rules.tickTime } := by
  obtain ⟨hforward, hfast⟩ := h.stride_mem_Icc hm'
  have hball := h.nextBall_eq
  have hrest := le_restOnLine (m := m) (abs_le.mpr ⟨by linarith, hm'⟩)
  -- Along the line the ball climbs by less than its radius and falls by less than in a fall.
  have hclimb : m * (sim.nextBall.pos.x - sim.ball.pos.x) ≤ 3 / 40 := by nlinarith
  have hfall : -1 / 16 ≤ m * (sim.nextBall.pos.x - sim.ball.pos.x) := by nlinarith
  refine ⟨h.solver, h.graphs, h.line, .inr ?_, ?_, ?_, ?_⟩
  · rw [hball]
  · dsimp only
    rw [hball, Rules.tickTime_real, Rules.minFallTime_real]
    norm_num
  · dsimp only
    rw [show sim.nextBall.pos.y = m * sim.ball.pos.x + c + restOnLine m by rw [hball],
      Rules.contactSlack_real]
    linarith
  · dsimp only
    rw [show sim.nextBall.pos.y = m * sim.ball.pos.x + c + restOnLine m by rw [hball]]
    linarith

end OnLine

/-! ## Whole rounds -/

theorem solver_make {α : Type} [Scalar α] (sim : Simulator α) (call : Call α) :
    (sim.make call).2.solver = sim.solver := by
  cases call with
  | edit e =>
    show (sim.edit e).solver = sim.solver
    rw [edit_eq]
  | control c =>
    cases c with
    | toggle =>
      show sim.toggle.solver = sim.solver
      unfold toggle
      split <;> rfl
    | tick => exact tick_keeps.2

theorem solver_after {α : Type} [Scalar α] (sim : Simulator α) (calls : List (Call α)) :
    (sim.after calls).solver = sim.solver := by
  induction calls using List.reverseRecOn with
  | nil => rfl
  | append_singleton calls call ih => rw [after_concat, solver_make, ih]

section Rounds

variable {m c x₀ : ℝ} {graph : Graph ℝ} {sim : Simulator ℝ}

/-- A round begins on the line if the start is on it. -/
theorem onLine_toggle (hstart : sim.level.start = ⟨x₀, m * x₀ + c⟩) (hp : sim.phase = .stopped)
    (hsolver : sim.solver = .ofRadius Rules.ballRadius) (hgraphs : sim.graphs.graphs = [graph])
    (hline : graph.curve.IsLine m c) (hm : |m| ≤ 3) : OnLine m c graph sim.toggle := by
  have hrest := le_restOnLine hm
  rw [toggle_stopped hp, hstart]
  refine ⟨hsolver, hgraphs, hline, .inl rfl, ?_, ?_, ?_⟩
  · show (0.0 - 0.0 : ℝ) ≤ Rules.minFallTime
    rw [Rules.minFallTime_real]
    norm_num
  · show m * x₀ + c - Rules.contactSlack ≤ m * x₀ + c + Rules.ballRadius
    rw [Rules.contactSlack_real, Rules.ballRadius_real]
    linarith
  · show m * x₀ + c + Rules.ballRadius - 67 / 1000 < m * x₀ + c + restOnLine m
    rw [Rules.ballRadius_real]
    linarith

/-- **A round.** As long as it goes on, every next move ends on the line, and after the first tick
the line holds the ball. -/
theorem OnLine.after (h : OnLine m c graph sim) (hm : -5 / 2 ≤ m) (hm' : m ≤ 3) (k : ℕ)
    (hp : (sim.after (List.replicate k (.control .tick))).phase = .running) :
    OnLine m c graph (sim.after (List.replicate k (.control .tick))) ∧
      (0 < k → (sim.after (List.replicate k (.control .tick))).ball.support = some graph.id) := by
  induction k with
  | zero => exact ⟨h, fun hk => absurd hk (Nat.lt_irrefl 0)⟩
  | succ k ih =>
    rw [List.replicate_succ', after_concat] at hp ⊢
    obtain ⟨e, hcall, -⟩ | ⟨hcall, -⟩ | ⟨-, hp', -, hnext⟩ := make_running hp
    · cases hcall
    · cases hcall
    · obtain ⟨hline, -⟩ := ih hp'
      rw [hnext]
      refine ⟨hline.tick hm hm', fun _ => ?_⟩
      dsimp only
      rw [hline.nextBall_eq]

end Rounds

/-- **Straight lines.** Let the start of a level lie on a line that is not too steep, and let the
line be the only graph when a round begins. In every tick of the round the line holds the ball. The
middle of the ball comes to rest above the line at the place it rolls from, by a height that depends
on the slope only and is the radius measured straight up, within a ten thousandth. The first tick
moves the ball on at full speed, every later one at the speed of the slope. -/
theorem ball_rolls_steadily {m : ℝ} (hm : -5 / 2 ≤ m) (hm' : m ≤ 3) :
    ∃ height : ℝ, |height - Rules.ballRadius * √(1 + m ^ 2)| ≤ 1 / 10000 ∧
      ∀ (c x₀ : ℝ) (level : Level ℝ) (calls : List (Call ℝ)) (graph : Graph ℝ) (k : ℕ),
        let sim := (ofLevel level).after calls
        let round := sim.toggle.after (List.replicate k (.control .tick))
        level.start = ⟨x₀, m * x₀ + c⟩ → sim.phase = .stopped → sim.graphs.graphs = [graph] →
        graph.curve.IsLine m c → round.phase = .running →
          round.nextBall.support = some graph.id ∧
          round.nextBall.pos.y = m * round.ball.pos.x + c + height ∧
          round.nextBall.pos.x = round.ball.pos.x +
            (if k = 0 then Rules.ballSpeed else Rules.ballSpeed - 1 / 2 * max 0 m) *
              Rules.tickTime ∧
          (round.tick.1 = none → round.tick.2.ball = round.nextBall) := by
  have hslope : |m| ≤ 3 := abs_le.mpr ⟨by linarith, hm'⟩
  refine ⟨restOnLine m, (abs_restOnLine_sub_le hslope).trans (by norm_num), ?_⟩
  intro c x₀ level calls graph k sim round hstart hp hgraphs hline hround
  have hstart' : sim.level.start = ⟨x₀, m * x₀ + c⟩ := (start_after _ calls).trans hstart
  have hsolver : sim.solver = .ofRadius Rules.ballRadius := solver_after _ calls
  have hbegin := onLine_toggle hstart' hp hsolver hgraphs hline hslope
  obtain ⟨honline, hheld⟩ := hbegin.after hm hm' k hround
  have hball := honline.nextBall_eq
  refine ⟨by rw [hball], by rw [hball], ?_, ?_⟩
  · by_cases hk : k = 0
    · have hnone : round.ball.support = none := by
        subst hk
        show sim.toggle.ball.support = none
        rw [toggle_stopped hp]
        rfl
      rw [if_pos hk]
      exact OnLine.nextBall_x_of_none hnone
    · rw [if_neg hk]
      exact honline.nextBall_x_of_some (hheld (Nat.pos_of_ne_zero hk))
  · intro hnone
    have hv : verdict round.nextLevel round.nextBall = none := by
      rwa [fst_tick_running hround, Option.map_eq_none_iff] at hnone
    rw [tick_continues hround hv]

/-- A level without obstacles whose flag is far away. -/
noncomputable def wideOpen : Level ℝ := .still ⟨0, 0⟩ ⟨10.0, 0⟩ []

theorem verdict_wideOpen {ball : Ball ℝ} (hx : ball.pos.x ≤ 9) (hy : |ball.pos.y| ≤ 9) :
    verdict wideOpen ball = none := by
  obtain ⟨hlow, hhigh⟩ := abs_le.mp hy
  have hbelow : (-Rules.levelHeight - 1.0 : ℝ) ≤ ball.pos.y := by
    rw [Rules.levelHeight_real]
    norm_num
    linarith
  have habove : ball.pos.y ≤ (Rules.levelHeight + 1.0 : ℝ) := by
    rw [Rules.levelHeight_real]
    norm_num
    linarith
  have hflag : ¬ (10.0 : ℝ) ≤ ball.pos.x + Rules.ballRadius := by
    rw [Rules.ballRadius_real]
    norm_num
    linarith
  have hlost : lost wideOpen ball = false := by
    unfold lost
    dsimp only
    rw [decide_eq_true hbelow, decide_eq_true habove]
    rfl
  have hmissed : atFlag wideOpen ball = false := by
    unfold atFlag wideOpen Level.still
    dsimp only
    rw [decide_eq_false hflag, Bool.false_and, Bool.false_and, Bool.false_and]
  unfold verdict
  rw [hlost, hmissed]
  rfl

theorem start_wideOpen (m : ℝ) : wideOpen.start = ⟨0, m * 0 + 0⟩ := by
  show (⟨0, 0⟩ : Point ℝ) = _
  rw [mul_zero, add_zero]

/-- A round on this level goes on after its first tick, if a line through the start holds the
ball. -/
theorem OnLine.first_tick {m : ℝ} {graph : Graph ℝ} {sim : Simulator ℝ}
    (h : OnLine m 0 graph sim) (hm : |m| ≤ 3) (hp : sim.phase = .running)
    (hlevel : sim.level = wideOpen) (hball : sim.ball = .atStart wideOpen.start) :
    sim.nextBall.support = some graph.id ∧ sim.nextBall.pos.x = 1 / 40 ∧
      sim.tick.2 = { sim with
        ball := sim.nextBall
        time := sim.time + Rules.tickTime } := by
  have hx : sim.nextBall.pos.x = 1 / 40 := by
    rw [nextBall_x_of_none (by rw [hball]; rfl), hball, Rules.ballSpeed_real, Rules.tickTime_real]
    show (0 : ℝ) + 3 / 2 * (1 / 60) = 1 / 40
    norm_num
  have hy : sim.nextBall.pos.y = restOnLine m := by
    rw [h.nextBall_eq, hball]
    show m * 0 + 0 + restOnLine m = restOnLine m
    ring
  have hnear : |sim.nextBall.pos.y| ≤ 9 := by
    have hlow := le_restOnLine hm
    have hhigh := restOnLine_le hm
    rw [hy, abs_le]
    constructor <;> linarith
  have hstill : sim.nextLevel = sim.level := by
    unfold nextLevel
    rw [hlevel]
    rfl
  have hv : verdict sim.nextLevel sim.nextBall = none := by
    rw [hstill, hlevel]
    exact verdict_wideOpen (hx.trans_le (by norm_num)) hnear
  refine ⟨by rw [h.nextBall_eq], hx, ?_⟩
  rw [tick_continues hp hv, hstill]

/-- A round with a line that climbs as far as it goes ahead. -/
noncomputable def uphill : Simulator ℝ :=
  ((ofLevel wideOpen).after [.edit (.add (.line 1 0))]).toggle

theorem ball_rolls_steadily_uphill :
    uphill.nextBall.support = some ⟨0⟩ ∧ uphill.nextBall.pos.x = 1 / 40 ∧
      (uphill.after [.control .tick]).phase = .running ∧
      (uphill.after [.control .tick]).nextBall.support = some ⟨0⟩ ∧
      (uphill.after [.control .tick]).nextBall.pos.x = 1 / 40 + 1 / 60 := by
  obtain ⟨height, -, hrolls⟩ := ball_rolls_steadily (m := 1) (by norm_num) (by norm_num)
  have hround := fun k => hrolls 0 0 wideOpen [.edit (.add (.line 1 0))]
    ⟨⟨0⟩, .line 1 0, (⟨0⟩ : GraphId).color ℝ⟩ k (start_wideOpen 1) rfl rfl (Curve.isLine_line 1 0)
  obtain ⟨hsupport, -⟩ := hround 0 rfl
  have hbegin : OnLine 1 0 _ uphill :=
    onLine_toggle (start_wideOpen 1) rfl rfl rfl (Curve.isLine_line 1 0) (by norm_num)
  obtain ⟨-, hx, htick⟩ := hbegin.first_tick (by norm_num) rfl rfl rfl
  have hnext : uphill.after [.control .tick] =
      { uphill with ball := uphill.nextBall, time := uphill.time + Rules.tickTime } := htick
  have hp : (uphill.after [.control .tick]).phase = .running := by rw [hnext]; rfl
  obtain ⟨hheld, -, hpace, -⟩ := hround 1 hp
  refine ⟨hsupport, hx, hp, hheld, hpace.trans ?_⟩
  have hrolled : (uphill.after [.control .tick]).ball.pos.x = 1 / 40 := by rw [hnext]; exact hx
  show (uphill.after [.control .tick]).ball.pos.x + _ = _
  rw [hrolled, if_neg one_ne_zero, Rules.ballSpeed_real, Rules.tickTime_real]
  norm_num

end Simulator

end RollingBall
