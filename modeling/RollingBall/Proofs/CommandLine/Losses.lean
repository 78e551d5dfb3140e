import RollingBall.Proofs.CommandLine.Outcomes
import RollingBall.Proofs.Rounds.Endings

/-!
# What is reported of a loss

The tick that ends a round judges the ball where its move has put it, and then returns the ball to
the start. The command line reads the place of the ball after that tick, so the place it prints for
a loss is always that of the start, wherever the ball was lost (`loss_reports_the_start`).

## Main definitions

* `CommandLine.roundAfter`: the round that the command line plays, after some ticks.
-/

namespace RollingBall

theorem Blueprint.start_instantiate {α : Type} [Scalar α] (b : Blueprint α) :
    b.instantiate.start = b.start := by
  unfold instantiate
  cases b.motion <;> rfl

/-- Between rounds ticks do nothing. -/
theorem Simulator.after_ticks_stopped {α : Type} [Scalar α] {sim : Simulator α}
    (h : sim.phase = .stopped) (k : Nat) :
    sim.after (List.replicate k (.control .tick)) = sim := by
  induction k with
  | zero => rfl
  | succ k ih =>
    have htick : (sim.make (.control .tick)).2 = sim := congrArg Prod.snd (tick_stopped h)
    rw [List.replicate_succ, after_cons, htick, ih]

namespace CommandLine

/-! ## The first end -/

/-- An end that a tick returns after some others is the first end, as no tick begins a round, and
the simulator is left as it is after that tick. -/
theorem firstEnd_of_tick {α : Type} [Scalar α] {sim : Simulator α} {k n : Nat}
    {roundEnd : RoundEnd α} (hk : k < n)
    (hend : (sim.after (List.replicate k (.control .tick))).tick.1 = some roundEnd) :
    firstEnd n sim =
      (some roundEnd, (sim.after (List.replicate k (.control .tick))).tick.2) := by
  induction k generalizing sim n with
  | zero =>
    obtain ⟨n, rfl⟩ := Nat.exists_eq_add_one_of_ne_zero (Nat.ne_of_gt hk)
    have htick : sim.tick = (some roundEnd, sim.tick.2) := Prod.ext hend rfl
    unfold firstEnd
    rw [htick]
    rfl
  | succ k ih =>
    obtain ⟨n, rfl⟩ := Nat.exists_eq_add_one_of_ne_zero (Nat.ne_of_gt (Nat.zero_lt_of_lt hk))
    have hlater : (sim.tick.2.after (List.replicate k (.control .tick))).tick.1 =
        some roundEnd := hend
    cases hfirst : sim.tick.1 with
    | none =>
      have htick : sim.tick = (none, sim.tick.2) := Prod.ext hfirst rfl
      unfold firstEnd
      rw [htick]
      exact ih (Nat.lt_of_succ_lt_succ hk) hlater
    | some earlier =>
      have hstopped := (Simulator.snd_tick_of_fst hfirst).1
      rw [Simulator.after_ticks_stopped hstopped, Simulator.tick_stopped hstopped] at hlater
      contradiction

/-! ## Curves -/

theorem Draws.unique {equation : String} {curve curve' : Curve Float} (h : Draws equation curve)
    (h' : Draws equation curve') : curve = curve' := by
  rw [draws_iff] at h h'
  exact Option.some.inj (Except.ok.inj (h.symm.trans h'))

theorem readEquations_of_draws {equations : List String} {curves : List (Curve Float)}
    (hdraws : List.Forall₂ Draws (written equations) curves)
    (hsound : ∀ e ∈ equations, ¬ Rejected e) : readEquations equations = .ok curves := by
  rcases readEquations_cases equations with ⟨curves', hread, hdraws', -⟩ | ⟨-, -, e, he, hrejected⟩
  · obtain rfl : curves = curves' :=
      List.right_unique_forall₂' (fun _ _ _ h h' => h.unique h') hdraws hdraws'
    exact hread
  · exact absurd hrejected (hsound e he)

/-! ## Losses -/

/-- The round of a level with some curves, after some ticks. -/
def roundAfter (b : Blueprint Float) (curves : List (Curve Float)) (k : Nat) : Simulator Float :=
  (Simulator.fresh b.instantiate curves).toggle.after (List.replicate k (.control .tick))

theorem start_roundAfter (b : Blueprint Float) (curves : List (Curve Float)) (k : Nat) :
    (roundAfter b curves k).level.start = b.start := by
  have hfresh : (Simulator.fresh b.instantiate curves).level = b.instantiate := by
    rw [Simulator.fresh_eq]
    rfl
  have htoggle : (Simulator.fresh b.instantiate curves).toggle.level.start =
      (Simulator.fresh b.instantiate curves).level.start := Simulator.start_make (.control .toggle)
  rw [roundAfter, Simulator.start_after, htoggle, hfresh, Blueprint.start_instantiate]

/-- **Where a loss is reported.** The round is lost in the tick after some others, within two
minutes. Its move left the ball outside the level, or in reach of a spike where the tick had placed
it; but the tick has returned the ball to the start, and the place printed is the start. -/
theorem loss_reports_the_start {files : Files} {level : String} {equations : List String}
    {b : Blueprint Float} {curves : List (Curve Float)} {k : Nat} {elapsed : Float}
    (hlevel : Names files level b) (hdraws : List.Forall₂ Draws (written equations) curves)
    (hsound : ∀ e ∈ equations, ¬ Rejected e) (hk : k < 7200)
    (hlost : (roundAfter b curves k).tick.1 = some ⟨false, elapsed⟩) :
    let last := roundAfter b curves k
    ¬ (last.nextBall.Inside ∧ last.nextLevel.Clear last.nextBall) ∧
      last.tick.2.ball.pos = ⟨b.start.x, b.start.y + Rules.ballRadius⟩ ∧
      run files (level :: equations) =
        ⟨1, "Lost after " ++ Decimal.fixed 2 elapsed ++ "s at (" ++ Decimal.fixed 2 b.start.x ++
          ", " ++ Decimal.fixed 2 (b.start.y + Rules.ballRadius) ++ ")\n", ""⟩ := by
  intro last
  obtain ⟨-, -, hverdict⟩ := Simulator.fst_tick_eq_some_iff.mp hlost
  have hplace : last.tick.2.ball.pos = ⟨b.start.x, b.start.y + Rules.ballRadius⟩ := by
    rw [(Simulator.snd_tick_of_fst hlost).2, start_roundAfter]
    rfl
  refine ⟨Simulator.verdict_eq_false_iff.mp hverdict, hplace, ?_⟩
  have hfirst : firstEnd maxTicks (roundAfter b curves 0) = (some ⟨false, elapsed⟩, last.tick.2) :=
    firstEnd_of_tick hk hlost
  unfold run
  dsimp only
  rw [loadLevel_eq_ok_iff.mpr hlevel, readEquations_of_draws hdraws hsound]
  dsimp only
  rw [show (prepare b curves).toggle = roundAfter b curves 0 from rfl, hfirst]
  unfold report
  dsimp only
  rw [hplace]

/-- On the first level nothing holds the ball, which falls out of the level at another place. -/
theorem loss_reports_the_start_unaided :
    let files : Files := fun _ => .error ""
    let last := roundAfter Blueprint.level1 [] 42
    ¬ (last.nextBall.Inside ∧ last.nextLevel.Clear last.nextBall) ∧
      Decimal.fixed 2 last.nextBall.pos.x = "-4.92" ∧
      Decimal.fixed 2 last.nextBall.pos.y = "-9.05" ∧
      run files ["0"] = ⟨1, "Lost after 0.70s at (-6.00, 0.40)\n", ""⟩ := by
  intro files last
  have hlevel : Names files "0" Blueprint.level1 := .builtin (by decide : levelId? "0" = some 0) rfl
  -- One evaluation of the whole round, which is what takes the time.
  obtain ⟨hlost, hx, hy, htime⟩ : last.tick.1 = some ⟨false, last.time⟩ ∧
      Decimal.fixed 2 last.nextBall.pos.x = "-4.92" ∧
      Decimal.fixed 2 last.nextBall.pos.y = "-9.05" ∧ Decimal.fixed 2 last.time = "0.70" := by
    decide +kernel
  have hsound : ∀ e ∈ ([] : List String), ¬ Rejected e := by simp
  obtain ⟨houtside, -, hrun⟩ := loss_reports_the_start hlevel .nil hsound (by decide) hlost
  refine ⟨houtside, hx, hy, hrun.trans ?_⟩
  rw [htime]
  decide +kernel

end CommandLine

end RollingBall
