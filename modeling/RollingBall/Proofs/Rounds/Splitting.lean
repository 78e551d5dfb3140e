import RollingBall.Proofs.Motion.Matching
import RollingBall.Proofs.Motion.Rolling
import RollingBall.Proofs.Numbers.Double
import RollingBall.Proofs.Rounds.Reached

/-!
# Splitting a track

A curve may be split at a coordinate into a left and a right half without a trace in any round. Of
the two halves exactly one exists where the ball is, because the coordinate of the ball stays
defined, and it offers what the whole curve does. So the footings stay at corresponding places
(`Simulator.landing_split`) through the whole list of graphs.
-/

namespace RollingBall

variable {α : Type}

/-! ## Halves -/

namespace Curve

/-- The part of a curve to the left of a coordinate. -/
def leftOf (formula : Formula α) (k : α) : Curve α :=
  ⟨formula, .compare .lt (.var .x) (.constant k)⟩

/-- The part of a curve from a coordinate on. -/
def rightFrom (formula : Formula α) (k : α) : Curve α :=
  ⟨formula, .compare .ge (.var .x) (.constant k)⟩

variable [Scalar α] [Scalar.Ieee α]

/-- At a defined coordinate exactly one half exists. -/
theorem admits_halves (formula : Formula α) {k x : α} (hk : Scalar.isNaN k = false)
    (hx : Scalar.isNaN x = false) (time : α) :
    ((leftOf formula k).admits ⟨time, x⟩ = true ∧ (rightFrom formula k).admits ⟨time, x⟩ = false) ∨
      ((leftOf formula k).admits ⟨time, x⟩ = false ∧
        (rightFrom formula k).admits ⟨time, x⟩ = true) := by
  have hleft : (leftOf formula k).admits ⟨time, x⟩ = decide (x < k) := rfl
  have hright : (rightFrom formula k).admits ⟨time, x⟩ = decide (k ≤ x) := rfl
  have hhalves := Scalar.Ieee.not_lt_iff hx hk
  rw [hleft, hright]
  by_cases hlt : x < k
  · have hle : ¬ k ≤ x := fun hle => hhalves.mpr hle hlt
    exact .inl ⟨decide_eq_true hlt, decide_eq_false hle⟩
  · exact .inr ⟨decide_eq_false hlt, decide_eq_true (hhalves.mp hlt)⟩

end Curve

/-! ## Places after a split -/

/-- The place that the graph at a place had before the one at place `n` was split. -/
def unsplit (n i : Nat) : Nat := if i ≤ n then i else i - 1

theorem unsplit_of_le {n i : Nat} (h : i ≤ n) : unsplit n i = i := if_pos h

theorem unsplit_of_lt {n i : Nat} (h : n < i) : unsplit n i = i - 1 := if_neg (Nat.not_le.mpr h)

theorem unsplit_succ (n i : Nat) : unsplit (n + 1) (i + 1) = unsplit n i + 1 := by
  unfold unsplit
  split
  · rw [if_pos (by omega)]
  · rw [if_neg (by omega)]
    omega

/-- The halves of a split element stand for it. -/
theorem getElem?_unsplit {β : Type} (before after : List β) (b : β) (i : Nat) :
    (before ++ b :: after)[unsplit before.length i]? = (before ++ b :: b :: after)[i]? := by
  induction before generalizing i with
  | nil =>
    cases i with
    | zero => rfl
    | succ i => rfl
  | cons c before ih =>
    cases i with
    | zero => rfl
    | succ i =>
      rw [List.length_cons, unsplit_succ, List.cons_append, List.cons_append,
        List.getElem?_cons_succ, List.getElem?_cons_succ, ih]

/-! ## Split stores -/

/-- The one list of graphs has a curve where the other has its halves. -/
structure GraphStore.Splits (s s' : GraphStore α) (before : List (Curve α)) (formula : Formula α)
    (k : α) (after : List (Curve α)) : Prop where
  whole : s.curves = before ++ .unconditional formula :: after
  halves : s'.curves = before ++ .leftOf formula k :: .rightFrom formula k :: after

variable {s s' : GraphStore α} {before after : List (Curve α)} {formula : Formula α} {k : α}

theorem GraphStore.Splits.formulas (h : s.Splits s' before formula k after) (i : Nat) :
    s.formulas[unsplit before.length i]? = s'.formulas[i]? := by
  have hwhole : s.formulas =
      before.map Curve.formula ++ formula :: after.map Curve.formula := by
    rw [GraphStore.formulas, h.whole, List.map_append, List.map_cons]
    rfl
  have hhalves : s'.formulas =
      before.map Curve.formula ++ formula :: formula :: after.map Curve.formula := by
    rw [GraphStore.formulas, h.halves, List.map_append, List.map_cons, List.map_cons]
    rfl
  rw [hwhole, hhalves, ← getElem?_unsplit, List.length_map]

/-- The graphs around the split one match one by one, and both halves stand for it. -/
theorem GraphStore.Splits.exists_parts (h : s.Splits s' before formula k after)
    (hs : s.Accounted) (hs' : s'.Accounted) :
    ∃ first whole last first' left right last',
      s.graphs = first ++ whole :: last ∧ s'.graphs = first' ++ left :: right :: last' ∧
      whole.curve = .unconditional formula ∧ left.curve = .leftOf formula k ∧
      right.curve = .rightFrom formula k ∧
      List.Forall₂ (s.Paired (unsplit before.length) s') first first' ∧
      List.Forall₂ (s.Paired (unsplit before.length) s') last last' ∧
      s.Renumbered (unsplit before.length) s' (some whole.id) (some left.id) ∧
      s.Renumbered (unsplit before.length) s' (some whole.id) (some right.id) := by
  obtain ⟨first, rest, hgraphs, rfl, hrest⟩ := List.map_eq_append_iff.mp h.whole
  obtain ⟨whole, last, rfl, hwhole, rfl⟩ := List.map_eq_cons_iff.mp hrest
  obtain ⟨first', rest', hgraphs', hfirst, hrest'⟩ := List.map_eq_append_iff.mp h.halves
  obtain ⟨left, rest', rfl, hleft, hrest'⟩ := List.map_eq_cons_iff.mp hrest'
  obtain ⟨right, last', rfl, hright, hlast⟩ := List.map_eq_cons_iff.mp hrest'
  have hlength : first'.length = first.length := by
    simpa only [List.length_map] using congrArg List.length hfirst
  have hplace : s.place whole.id = some first.length :=
    hs.place_of_getElem? (by simp [hgraphs])
  have hplaceLeft : s'.place left.id = some first.length :=
    hs'.place_of_getElem? (by simp [hgraphs', ← hlength])
  have hplaceRight : s'.place right.id = some (first.length + 1) :=
    hs'.place_of_getElem? (by simp [hgraphs', ← hlength])
  rw [List.length_map]
  refine ⟨first, whole, last, first', left, right, last', hgraphs, hgraphs', hwhole, hleft, hright,
    ?_, ?_, .some ?_ hplaceLeft, .some ?_ hplaceRight⟩
  · refine forall₂_renumbered _ hs hs'
      (show s.graphs = [] ++ (first ++ whole :: last) from hgraphs)
      (show s'.graphs = [] ++ (first' ++ left :: right :: last') from hgraphs') hfirst.symm ?_
    intro i hi
    rw [List.length_nil, Nat.zero_add, unsplit_of_le hi.le]
  · refine forall₂_renumbered _ hs hs'
      (show s.graphs = (first ++ [whole]) ++ (last ++ []) by simp [hgraphs])
      (show s'.graphs = (first' ++ [left, right]) ++ (last' ++ []) by simp [hgraphs']) hlast.symm ?_
    intro i hi
    simp only [List.length_append, List.length_cons, List.length_nil, hlength]
    rw [unsplit_of_lt (by omega)]
    omega
  · rw [unsplit_of_le (Nat.le_refl _)]
    exact hplace
  · rw [unsplit_of_lt (Nat.lt_succ_self _)]
    exact hplace

/-! ## Rounds over a split track -/

section Rounds

variable [Scalar α] [Scalar.Ieee α]

namespace Simulator

variable {solver : ContactSolver α} {time : α} {pos : Point α}

/-- The offers of the halves amount to that of the whole curve. -/
theorem Footing.Matches.consider_halves {Match : Option GraphId → Option GraphId → Prop}
    {footing footing' : Footing α} (h : footing.Matches Match footing')
    {id left right : GraphId} (hleft : Match (some id) (some left))
    (hright : Match (some id) (some right)) (formula : Formula α) (hk : Scalar.isNaN k = false)
    (hx : Scalar.isNaN pos.x = false) :
    (footing.consider time id ((Curve.unconditional formula).contact? solver time pos)).Matches
      Match ((footing'.consider time left ((Curve.leftOf formula k).contact? solver time pos)
        ).consider time right ((Curve.rightFrom formula k).contact? solver time pos)) := by
  have hoffer {half : Curve α} (hformula : half.formula = formula)
      (hadmits : half.admits ⟨time, pos.x⟩ = true) :
      (Curve.unconditional formula).contact? solver time pos = half.contact? solver time pos := by
    refine Curve.contact?_congr hformula.symm ?_ solver
    rw [hadmits]
    rfl
  rcases Curve.admits_halves formula hk hx time with ⟨hin, hout⟩ | ⟨hout, hin⟩
  · rw [hoffer rfl hin, Curve.contact?_of_not_admits hout]
    exact h.consider hleft _
  · rw [hoffer rfl hin, Curve.contact?_of_not_admits hout]
    exact h.consider hright _

theorem landing_split (hs : s.Accounted) (hs' : s'.Accounted)
    (h : s.Splits s' before formula k after) (hk : Scalar.isNaN k = false)
    (hx : Scalar.isNaN pos.x = false) {footing footing' : Footing α}
    (hf : footing.Matches (s.Renumbered (unsplit before.length) s') footing') :
    (landing solver time pos s.graphs footing).Matches
      (s.Renumbered (unsplit before.length) s') (landing solver time pos s'.graphs footing') := by
  obtain ⟨first, whole, last, first', left, right, last', hgraphs, hgraphs', hwhole, hleft, hright,
    hfirst, hlast, hwholeLeft, hwholeRight⟩ := h.exists_parts hs hs'
  rw [hgraphs, hgraphs', landing_append, landing_append, landing_cons, landing_cons, landing_cons,
    hwhole, hleft, hright]
  refine landing_matches hlast ?_
  -- The graphs before the split match one by one, and so do those after it.
  refine Footing.Matches.consider_halves ?_ hwholeLeft hwholeRight formula hk hx
  exact landing_matches hfirst hf

end Simulator

/-- Balls on matching supports whose coordinate is defined stay so over a split track. -/
theorem lockstep_of_splits (hs : s.Accounted) (hs' : s'.Accounted)
    (h : s.Splits s' before formula k after) (hk : Scalar.isNaN k = false)
    (solver : ContactSolver α) {start : Point α} (hstart : Scalar.isNaN start.x = false) :
    Lockstep solver s s' Simulator.supportPlace
      (fun sim => sim.supportPlace.map (Option.map (unsplit before.length))) start
      fun ball ball' => ball.Matches (s.Renumbered (unsplit before.length) s') ball' ∧
        Scalar.isNaN ball.pos.x = false where
  start := ⟨⟨rfl, rfl, .none⟩, hstart⟩
  move time hball := by
    obtain ⟨hmatch, hx⟩ := hball
    refine ⟨?_, ?_⟩
    · exact Simulator.moveBall_matches hmatch .none (hmatch.support.formula? h.formulas)
        (Simulator.landing_split hs hs' h hk hx)
    · rw [Simulator.moveBall_eq]
      exact Curve.isNaN_add_stride time hx _
  pos hball := hball.1.pos
  lastContact hball := hball.1.lastContact
  support hgraphs hgraphs' hball := by
    unfold Simulator.supportPlace
    rw [hgraphs, hgraphs']
    exact hball.1.support.map_place

/-- **Splitting changes nothing.** Two simulators between rounds, of which one has a curve where the
other has its left and right half, show the same in every run, each half being seen as the whole. -/
theorem rounds_keep_over_split {level : Level α} (hstart : Scalar.isNaN level.start.x = false)
    {k : α} (hk : Scalar.isNaN k = false) (formula : Formula α) {before after : List (Curve α)}
    {sim sim' : Simulator α} (hsim : sim.Reached level) (hsim' : sim'.Reached level)
    (hstopped : sim.phase = .stopped) (hstopped' : sim'.phase = .stopped)
    (hlevel : sim.level = sim'.level)
    (hwhole : sim.graphs.curves = before ++ .unconditional formula :: after)
    (hhalves : sim'.graphs.curves = before ++ .leftOf formula k :: .rightFrom formula k :: after)
    (calls : List Control) :
    sim.watch Simulator.supportPlace calls =
      sim'.watch (fun sim => sim.supportPlace.map (Option.map (unsplit before.length))) calls := by
  have hlockstep := lockstep_of_splits hsim.kept.graphs hsim'.kept.graphs ⟨hwhole, hhalves⟩ hk
    sim.solver hstart
  refine hlockstep.watch_eq (hsim.alike hsim' hstopped hstopped' ?_ hlockstep.start) calls
  intro time
  rw [hlevel]

end Rounds

/-! ## A split parabola -/

/-- A level without obstacles. -/
def meadow : Level Float := .still ⟨1.0, 2.0⟩ ⟨3.0, 0.0⟩ []

/-- A parabola that is open at the top. -/
def parabola : Formula Float := .binary .mul (.var .x) (.var .x)

/-- A simulator of the meadow with a line that rises with time, some curves and a line. -/
def Simulator.onMeadow (curves : List (Curve Float)) : Simulator Float :=
  fresh meadow ([.unconditional (.var .t)] ++ (curves ++ [.unconditional (.var .x)]))

theorem Simulator.reached_onMeadow (curves : List (Curve Float)) (h : curves.length ≤ 2) :
    (onMeadow curves).Reached meadow := by
  refine reached_fresh _ ?_
  rw [List.length_append, List.length_append, List.length_singleton, List.length_singleton]
  exact Nat.le_trans (Nat.add_le_add_left (Nat.add_le_add_right h 1) 1) (by decide)

theorem Simulator.curves_onMeadow (curves : List (Curve Float)) :
    (onMeadow curves).graphs.curves =
      [.unconditional (.var .t)] ++ (curves ++ [.unconditional (.var .x)]) :=
  curves_fresh _ _

/-- A parabola is split where the ball starts. -/
theorem rounds_keep_over_split_parabola :
    Scalar.isNaN meadow.start.x = false ∧ Scalar.isNaN (1.0 : Float) = false ∧
      (Simulator.onMeadow [.unconditional parabola]).watch Simulator.supportPlace
          [.toggle, .tick, .tick] =
        (Simulator.onMeadow [.leftOf parabola 1.0, .rightFrom parabola 1.0]).watch
          (fun sim => sim.supportPlace.map (Option.map (unsplit 1))) [.toggle, .tick, .tick] := by
  have hdefined : Scalar.isNaN (1.0 : Float) = false := by decide +kernel
  refine ⟨hdefined, hdefined, ?_⟩
  have hwhole := Simulator.reached_onMeadow [.unconditional parabola] (by simp)
  have hhalves := Simulator.reached_onMeadow [.leftOf parabola 1.0, .rightFrom parabola 1.0]
    (by simp)
  exact rounds_keep_over_split hdefined hdefined parabola hwhole hhalves rfl rfl rfl
    (Simulator.curves_onMeadow _) (Simulator.curves_onMeadow _) _

end RollingBall
