import RollingBall.CommandLine
import RollingBall.Proofs.Reading.Words
import RollingBall.Proofs.Rounds.Reached
import RollingBall.Proofs.Rounds.Calls

/-!
# Outcomes of the command line

The command line refuses its arguments, or it plays the level with the curves of the equations that
are not blank. What it reports of a win is the first end that the simulator returns within two
minutes of ticks (`firstEnd_eq`). A blank equation draws no curve and is never refused, so nothing
changes if all of them are left out (`readEquations_written`).

## Main definitions

* `SplitAt`: an equation is a formula, or a formula and a condition after a semicolon.
* `isBlank`, `Draws`, `Rejected`: what an equation may be.
* `Names`: the level that an argument names.
* `Refused`: what the command line does not play.
* `run_plays_the_level`
-/

namespace RollingBall

/-! ## Blank formulas -/

theorem Text.removeBlanks_eq_nil_iff {cs : List Char} :
    removeBlanks cs = [] ↔ cs.all isBlank = true := by
  unfold removeBlanks
  simp [List.filter_eq_nil_iff]

theorem Parser.whole_eq_none_iff {ρ : Type} {p : Parser ρ} {s : List Char} :
    whole p s = .ok none ↔ s = [] := by
  unfold whole
  cases s with
  | nil => simp
  | cons c s =>
    rw [if_neg (by simp)]
    cases p (c :: s) with
    | error e => simp
    | ok parsed =>
      dsimp only
      split
      · simp
      · simp

/-- No curve is read if and only if the formula is blank, whatever the condition is. -/
theorem Curve.parse_eq_none_iff {α : Type} [Scalar α] {formula condition : String} :
    (parse formula condition : Except SyntaxError (Option (Curve α))) = .ok none ↔
      formula.toList.all Text.isBlank = true := by
  have hformula : (Formula.parse (Text.removeBlanks formula.toList) :
      Except SyntaxError (Option (Formula α))) = .ok none ↔
        formula.toList.all Text.isBlank = true :=
    Parser.whole_eq_none_iff.trans Text.removeBlanks_eq_nil_iff
  rw [← hformula]
  unfold parse
  constructor
  · intro h
    split at h
    · contradiction
    · assumption
    · split at h
      · contradiction
      · simp at h
      · simp at h
  · intro h
    rw [h]

namespace CommandLine

/-! ## Equations -/

/-- The formula ends at the first semicolon, and the condition is what comes after it. -/
inductive SplitAt : String → String → String → Prop where
  | formula {formula : String} : ';' ∉ formula.toList → SplitAt formula formula ""
  | condition {formula condition : String} : ';' ∉ formula.toList →
      SplitAt (formula ++ ";" ++ condition) formula condition

/-- The formula of the equation is empty or has only blanks. -/
def isBlank (equation : String) : Bool :=
  (equation.toList.takeWhile (· ≠ ';')).all Text.isBlank

/-- The equation is read as the curve. -/
def Draws (equation : String) (curve : Curve Float) : Prop :=
  ∃ formula condition, SplitAt equation formula condition ∧
    Curve.parse formula condition = .ok (some curve)

/-- The equation is a syntax error. -/
def Rejected (equation : String) : Prop :=
  ∃ formula condition, SplitAt equation formula condition ∧
    ∃ e, (Curve.parse formula condition : Except SyntaxError (Option (Curve Float))) = .error e

theorem splitAt_iff {equation formula condition : String} :
    SplitAt equation formula condition ↔ splitEquation equation = (formula, condition) := by
  have hstops : ∀ rest, Grammar.Stops (fun c => decide (c ≠ ';')) (';' :: rest) := by simp
  have hother : ∀ {formula : String}, ';' ∉ formula.toList →
      ∀ c ∈ formula.toList, decide (c ≠ ';') = true := by
    rintro formula hformula c hc
    rw [decide_eq_true_eq]
    rintro rfl
    exact hformula hc
  unfold splitEquation
  constructor
  · rintro (hformula | hformula)
    · dsimp only
      have htake := (Grammar.stops_nil _).takeWhile (hother hformula)
      have hdrop := (Grammar.stops_nil _).dropWhile (hother hformula)
      rw [List.append_nil] at htake hdrop
      rw [htake, hdrop, String.ofList_toList]
      rfl
    · have hcs : (formula ++ ";" ++ condition).toList =
          formula.toList ++ ';' :: condition.toList := by simp
      dsimp only
      rw [hcs, (hstops _).takeWhile (hother hformula), (hstops _).dropWhile (hother hformula),
        List.drop_one, List.tail_cons, String.ofList_toList, String.ofList_toList]
  · intro h
    obtain ⟨cs, rest, hcs, hformula, hrest⟩ :=
      Grammar.exists_run (fun c => decide (c ≠ ';')) equation.toList
    dsimp only at h
    rw [hcs, hrest.takeWhile hformula, hrest.dropWhile hformula] at h
    obtain ⟨rfl, rfl⟩ := Prod.mk.inj h
    have hnone : ';' ∉ (String.ofList cs).toList := by
      rw [String.toList_ofList]
      intro hmem
      exact absurd (hformula _ hmem) (by decide)
    cases rest with
    | nil =>
      obtain rfl : equation = String.ofList cs := by
        rw [← String.toList_inj, String.toList_ofList, hcs, List.append_nil]
      exact .formula hnone
    | cons c rest =>
      obtain rfl : c = ';' := by simpa using hrest
      obtain rfl : equation = String.ofList cs ++ ";" ++ String.ofList rest := by
        rw [← String.toList_inj, hcs]
        simp
      exact .condition hnone

section Equation

variable {equation : String}

theorem draws_iff {curve : Curve Float} : Draws equation curve ↔
    Curve.parse (splitEquation equation).1 (splitEquation equation).2 = .ok (some curve) := by
  unfold Draws
  simp only [splitAt_iff]
  constructor
  · rintro ⟨formula, condition, hsplit, h⟩
    rwa [hsplit]
  · intro h
    exact ⟨_, _, rfl, h⟩

theorem rejected_iff : Rejected equation ↔
    ∃ e, (Curve.parse (splitEquation equation).1 (splitEquation equation).2 :
      Except SyntaxError (Option (Curve Float))) = .error e := by
  unfold Rejected
  simp only [splitAt_iff]
  constructor
  · rintro ⟨formula, condition, hsplit, h⟩
    rwa [hsplit]
  · intro h
    exact ⟨_, _, rfl, h⟩

theorem isBlank_iff : isBlank equation = true ↔
    (Curve.parse (splitEquation equation).1 (splitEquation equation).2 :
      Except SyntaxError (Option (Curve Float))) = .ok none := by
  rw [Curve.parse_eq_none_iff]
  unfold splitEquation isBlank
  rw [String.toList_ofList]

end Equation

/-- The equations that are not blank. -/
def written (equations : List String) : List String := equations.filter fun e => !isBlank e

/-- Either every equation that is not blank draws its curve, or one of the equations is rejected. -/
theorem readEquations_cases (equations : List String) :
    (∃ curves, readEquations equations = .ok curves ∧
        List.Forall₂ Draws (written equations) curves ∧ ∀ e ∈ equations, ¬ Rejected e) ∨
      ∃ message, readEquations equations = .error message ∧ ∃ e ∈ equations, Rejected e := by
  induction equations with
  | nil => exact .inl ⟨[], rfl, .nil, by simp⟩
  | cons equation equations ih =>
    unfold readEquations written
    dsimp only
    cases hread : (Curve.parse (splitEquation equation).1 (splitEquation equation).2 :
        Except SyntaxError (Option (Curve Float))) with
    | error e =>
      exact .inr ⟨_, rfl, equation, .head _, rejected_iff.mpr ⟨e, hread⟩⟩
    | ok curve? =>
      have hsound : ¬ Rejected equation := by
        rw [rejected_iff, hread]
        simp
      cases curve? with
      | none =>
        rw [List.filter_cons_of_neg (by simp [isBlank_iff.mpr hread])]
        rcases ih with ⟨curves, hcurves, hdraws, hall⟩ | ⟨message, herror, e, he, hrejected⟩
        · exact .inl ⟨curves, hcurves, hdraws, List.forall_mem_cons.mpr ⟨hsound, hall⟩⟩
        · exact .inr ⟨message, herror, e, .tail _ he, hrejected⟩
      | some curve =>
        have hwritten : isBlank equation = false := by
          rw [← Bool.not_eq_true, isBlank_iff, hread]
          simp
        rw [List.filter_cons_of_pos (by simp [hwritten])]
        rcases ih with ⟨curves, hcurves, hdraws, hall⟩ | ⟨message, herror, e, he, hrejected⟩
        · refine .inl ⟨curve :: curves, ?_, .cons (draws_iff.mpr hread) hdraws,
            List.forall_mem_cons.mpr ⟨hsound, hall⟩⟩
          rw [hcurves]
          rfl
        · refine .inr ⟨message, ?_, e, .tail _ he, hrejected⟩
          rw [herror]
          rfl

/-- Blank equations change nothing. -/
theorem readEquations_written (equations : List String) :
    readEquations (written equations) = readEquations equations := by
  induction equations with
  | nil => rfl
  | cons equation equations ih =>
    unfold written at ih ⊢
    cases hblank : isBlank equation with
    | true =>
      rw [List.filter_cons_of_neg (by simp [hblank]), ih, readEquations]
      simp only [isBlank_iff.mp hblank]
    | false =>
      rw [List.filter_cons_of_pos (by simp [hblank]), readEquations, readEquations, ih]

/-! ## The level -/

/-- The level of an argument: the built-in one with this id if the argument is an id, and else the
one that the file with this name describes. -/
inductive Names (files : Files) : String → Blueprint Float → Prop where
  | builtin {arg : String} {id : Nat} {b : Blueprint Float} : levelId? arg = some id →
      Blueprint.byId? id = some b → Names files arg b
  | file {arg text : String} {b : Blueprint Float} : levelId? arg = none →
      files arg = .ok text → Blueprint.fromText? text = some b → Names files arg b

theorem loadLevel_eq_ok_iff {files : Files} {arg : String} {b : Blueprint Float} :
    loadLevel files arg = .ok b ↔ Names files arg b := by
  unfold loadLevel
  constructor
  · intro h
    split at h
    · rename_i id hid
      split at h
      · rename_i b' hb
        cases h
        exact .builtin hid hb
      · contradiction
    · rename_i hid
      split at h
      · contradiction
      · rename_i text htext
        split at h
        · rename_i b' hb
          cases h
          exact .file hid htext hb
        · contradiction
  · rintro (⟨hid, hb⟩ | ⟨hid, htext, hb⟩)
    · simp only [hid, hb]
    · simp only [hid, htext, hb]

/-! ## The round -/

/-- The first end within some ticks is the first that the ticks return, and the simulator is left as
it is after the tick that returns it. -/
theorem firstEnd_eq {α : Type} [Scalar α] (n : Nat) (sim : Simulator α) :
    (firstEnd n sim).1 = (sim.ends (List.replicate n (.control .tick))).head? ∧
      ∃ k ≤ n, (firstEnd n sim).2 = sim.after (List.replicate k (.control .tick)) ∧
        sim.ends (List.replicate k (.control .tick)) = (firstEnd n sim).1.toList ∧
        ((firstEnd n sim).1 = none → k = n) ∧
        ∀ j < k, sim.ends (List.replicate j (.control .tick)) = [] := by
  induction n generalizing sim with
  | zero => exact ⟨rfl, 0, Nat.le_refl 0, rfl, rfl, fun _ => rfl, by simp⟩
  | succ n ih =>
    have hends : ∀ j, sim.ends (List.replicate (j + 1) (.control .tick)) =
        sim.tick.1.toList ++ sim.tick.2.ends (List.replicate j (.control .tick)) := fun _ => rfl
    rw [hends, firstEnd]
    split
    · rename_i next htick
      obtain ⟨hfirst, k, hk, hafter, hreturned, hnone, hbefore⟩ := ih next
      rw [htick] at hends ⊢
      refine ⟨hfirst, k + 1, Nat.succ_le_succ hk, ?_, ?_, fun h => by rw [hnone h], ?_⟩
      · rw [hafter, List.replicate_succ, Simulator.after_cons]
        show _ = sim.tick.2.after _
        rw [htick]
      · rw [hends, hreturned]
        rfl
      · rintro (_ | j) hj
        · rfl
        · rw [hends, hbefore j (Nat.lt_of_succ_lt_succ hj)]
          rfl
    · rename_i roundEnd next htick
      rw [htick] at hends ⊢
      refine ⟨rfl, 1, Nat.succ_le_succ (Nat.zero_le n), ?_, ?_, nofun, ?_⟩
      · show _ = sim.tick.2
        rw [htick]
      · rw [hends]
        rfl
      · intro j hj
        obtain rfl := Nat.lt_one_iff.mp hj
        rfl

/-! ## The outcome -/

/-- What the command line does not play: no arguments, an argument that names no level, or a syntax
error. -/
def Refused (files : Files) : List String → Prop
  | [] => True
  | level :: equations => (¬ ∃ b, Names files level b) ∨ ∃ e ∈ equations, Rejected e

/-- What is printed about a round with these equations that has the first end with the ball at this
place. -/
def outcomeText (b : Blueprint Float) (equations : Nat) (first : Option (RoundEnd Float))
    (place : Point Float) : String :=
  match first with
  | some ⟨true, elapsed⟩ =>
    "Won in " ++ Decimal.fixed 2 elapsed ++ "s with " ++ toString equations ++
      " equation(s)\nScore: " ++ Decimal.fixed 0 (b.score equations elapsed * 100.0) ++ "%\n"
  | some ⟨false, elapsed⟩ =>
    "Lost after " ++ Decimal.fixed 2 elapsed ++ "s at (" ++ Decimal.fixed 2 place.x ++ ", " ++
      Decimal.fixed 2 place.y ++ ")\n"
  | none => "No result after 120s\n"

theorem code_report (b : Blueprint Float) (equations : Nat)
    (played : Option (RoundEnd Float) × Simulator Float) :
    (report b equations played).code ≠ 2 ∧
      ((report b equations played).code = 0 ↔ ∃ elapsed, played.1 = some ⟨true, elapsed⟩) := by
  obtain ⟨_ | ⟨_ | _, elapsed⟩, sim⟩ := played
  · simp [report]
  · simp [report]
  · simp [report]

theorem out_report (b : Blueprint Float) (equations : Nat)
    (played : Option (RoundEnd Float) × Simulator Float) :
    (report b equations played).out = outcomeText b equations played.1 played.2.ball.pos := by
  obtain ⟨_ | ⟨_ | _, elapsed⟩, sim⟩ := played
  · rfl
  · rfl
  · rfl

theorem run_of_refused {files : Files} {args : List String} (h : Refused files args) :
    (run files args).code = 2 ∧ (run files args).out = "" := by
  have hrefusal : ∀ message, (refusal message).code = 2 ∧ (refusal message).out = "" :=
    fun _ => ⟨rfl, rfl⟩
  cases args with
  | nil => exact hrefusal usage
  | cons level equations =>
    unfold run
    dsimp only
    cases hlevel : loadLevel files level with
    | error message => exact hrefusal message
    | ok b =>
      rcases readEquations_cases equations with ⟨curves, -, -, hall⟩ | ⟨message, herror, -⟩
      · rcases h with hnone | ⟨e, he, hrejected⟩
        · exact absurd ⟨b, loadLevel_eq_ok_iff.mp hlevel⟩ hnone
        · exact absurd hrejected (hall e he)
      · dsimp only
        rw [herror]
        exact hrefusal message

/-- Arguments that are not refused are played. -/
theorem run_of_not_refused {files : Files} {args : List String} (h : ¬ Refused files args) :
    ∃ level equations b curves, args = level :: equations ∧ Names files level b ∧
      List.Forall₂ Draws (written equations) curves ∧
      run files args = report b (written equations).length
        (firstEnd maxTicks (Simulator.fresh b.instantiate curves).toggle) := by
  cases args with
  | nil => exact absurd trivial h
  | cons level equations =>
    obtain ⟨hnames, hsound⟩ := not_or.mp h
    obtain ⟨b, hb⟩ := not_not.mp hnames
    rcases readEquations_cases equations with
      ⟨curves, hcurves, hdraws, -⟩ | ⟨message, -, hrejected⟩
    · refine ⟨level, equations, b, curves, rfl, hb, hdraws, ?_⟩
      unfold run
      rw [hdraws.length_eq]
      simp only [loadLevel_eq_ok_iff.mpr hb, hcurves]
      rfl
    · exact absurd hrejected hsound

/-- **The command line plays what the simulator plays.** It refuses its arguments, with nothing on
standard output, if and only if there are none, the first names no level, or one of the equations is
a syntax error. Otherwise it draws the curves of the equations that are not blank, starts the round,
and reports the first end within 7200 ticks: the exit code is zero if and only if that end is a win,
and the text is that of this end, with the ball where the tick that returned it has left it. If all
blank equations are left out, nothing changes. -/
theorem run_plays_the_level (files : Files) (args : List String) :
    ((run files args).code = 2 ↔ Refused files args) ∧
    (Refused files args → (run files args).out = "") ∧
    (¬ Refused files args → ∃ level equations b curves, args = level :: equations ∧
      Names files level b ∧ List.Forall₂ Draws (written equations) curves ∧
      let sim := (Simulator.fresh b.instantiate curves).toggle
      let first := (sim.ends (List.replicate 7200 (.control .tick))).head?
      ((run files args).code = 0 ↔ ∃ elapsed, first = some ⟨true, elapsed⟩) ∧
      ∃ k ≤ 7200, (∀ j < k, sim.ends (List.replicate j (.control .tick)) = []) ∧
        sim.ends (List.replicate k (.control .tick)) = first.toList ∧ (first = none → k = 7200) ∧
        (run files args).out = outcomeText b (written equations).length first
          (sim.after (List.replicate k (.control .tick))).ball.pos) ∧
    ∀ level equations, args = level :: equations →
      run files (level :: written equations) = run files args := by
  refine ⟨⟨fun hcode => ?_, fun h => (run_of_refused h).1⟩, fun h => (run_of_refused h).2,
    fun h => ?_, ?_⟩
  · by_contra h
    obtain ⟨level, equations, b, curves, -, -, -, hrun⟩ := run_of_not_refused h
    rw [hrun] at hcode
    exact (code_report ..).1 hcode
  · obtain ⟨level, equations, b, curves, hargs, hnames, hdraws, hrun⟩ := run_of_not_refused h
    refine ⟨level, equations, b, curves, hargs, hnames, hdraws, ?_⟩
    intro sim first
    obtain ⟨hfirst, k, hk, hafter, hends, hnone, hbefore⟩ := firstEnd_eq maxTicks sim
    rw [show (firstEnd maxTicks sim).1 = first from hfirst] at hends hnone
    refine ⟨?_, k, hk, hbefore, hends, hnone, ?_⟩
    · rw [hrun, (code_report ..).2, hfirst]
      rfl
    · rw [hrun, out_report, hfirst, hafter]
      rfl
  · rintro level equations rfl
    unfold run
    dsimp only
    rw [readEquations_written]

end CommandLine

end RollingBall
