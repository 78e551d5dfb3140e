import RollingBall.Proofs.Motion.Rolling
import RollingBall.Proofs.Numbers.Order

/-!
# Where the ball falls and lands

A ball falls by at most one in a tick, whatever its height (`Simulator.value_drop`). A curve holds
it only if its contact is higher than the fall, which no undefined contact is. So the height of the
ball stays defined, though it may be infinite (`Simulator.defined_moveBall`).

## Main definitions

* `Ball.Defined`: the place of a ball is defined and the time of its last contact is real.
-/

namespace RollingBall

open Scalar Scalar.Ieee

variable {α : Type} [Scalar α] [Ieee α]

/-- A defined number is moved into every interval that holds both bounds. -/
theorem value_clamp {low high a : α} {l h p q : ℝ} (hlow : value low = some (l : EReal))
    (hhigh : value high = some (h : EReal)) (hl : p ≤ l ∧ l ≤ q) (hh : p ≤ h ∧ h ≤ q)
    (ha : isNaN a = false) :
    ∃ r : ℝ, p ≤ r ∧ r ≤ q ∧ value (clamp low high a) = some (r : EReal) := by
  unfold clamp
  by_cases hbelow : a < low
  · rw [if_pos hbelow]
    exact ⟨l, hl.1, hl.2, hlow⟩
  rw [if_neg hbelow]
  by_cases habove : high < a
  · rw [if_pos habove]
    exact ⟨h, hh.1, hh.2, hhigh⟩
  rw [if_neg habove]
  obtain ⟨x, hx⟩ := not_isNaN_iff.mp ha
  have hlx : (l : EReal) ≤ x := by
    have hle := (not_lt_iff ha (isNaN_of_value hlow)).mp hbelow
    simpa [le_iff, hlow, hx] using hle
  have hxh : x ≤ (h : EReal) := by
    have hle := (not_lt_iff (isNaN_of_value hhigh) ha).mp habove
    simpa [le_iff, hhigh, hx] using hle
  lift x to ℝ using ⟨ne_top_of_le_ne_top (EReal.coe_ne_top _) hxh,
    ne_bot_of_le_ne_bot (EReal.coe_ne_bot _) hlx⟩ with r
  exact ⟨r, hl.1.trans (EReal.coe_le_coe_iff.mp hlx), (EReal.coe_le_coe_iff.mp hxh).trans hh.2, hx⟩

/-! ## Falling -/

/-- The place of the ball is defined, and it touched a curve a real time ago. -/
structure Ball.Defined (ball : Ball α) : Prop where
  x : isNaN ball.pos.x = false
  y : isNaN ball.pos.y = false
  lastContact : IsReal ball.lastContact

theorem Ball.defined_atStart {start : Point α} (hx : isNaN start.x = false)
    (hy : isNaN start.y = false) : (Ball.atStart start).Defined where
  x := hx
  y := by
    obtain ⟨y, hy⟩ := not_isNaN_iff.mp hy
    obtain ⟨r, -, -, hr⟩ := Rules.value_ballRadius (α := α)
    exact isNaN_of_value (add_of_real_right hy hr)
  lastContact := ⟨0, value_zero⟩

namespace Simulator

variable {ball : Ball α} {time : α}

/-- A ball falls down and by at most one. -/
theorem value_drop (ht : IsReal time) (hc : IsReal ball.lastContact) :
    ∃ d : ℝ, 0 ≤ d ∧ d ≤ 1 ∧ value (drop ball time) = some (d : EReal) := by
  obtain ⟨t, ht⟩ := ht
  obtain ⟨c, hc⟩ := hc
  obtain ⟨l, hl, hl', hlow⟩ : ∃ l : ℝ, 0 ≤ l ∧ l ≤ 1 ∧
      value (Rules.minFallTime : α) = some (l : EReal) :=
    value_literal_unit α (m := 1) (e := 1) (by norm_num)
  obtain ⟨h, hh, hh', hhigh⟩ : ∃ h : ℝ, 0 ≤ h ∧ h ≤ 1 ∧
      value (Rules.maxFallTime : α) = some (h : EReal) :=
    value_literal_unit α (m := 5) (e := 1) (by norm_num)
  obtain ⟨g, hg, hg', hgravity⟩ : ∃ g : ℝ, 0 ≤ g ∧ g ≤ 1 ∧
      value (Rules.gravity : α) = some (g : EReal) :=
    value_literal_unit α (m := 67) (e := 2) (by norm_num)
  obtain ⟨f, hf, hf', hfall⟩ := value_clamp hlow hhigh ⟨hl, hl'⟩ ⟨hh, hh'⟩
    (isNaN_of_value (sub_of_real_right ht hc))
  obtain ⟨d, hd, hd', hround⟩ := exists_round_unit α (mul_nonneg hf hg)
    (mul_le_one₀ hf' hg hg')
  refine ⟨d, hd, hd', ?_⟩
  unfold drop
  rw [mul_of_reals hfall hgravity, hround]

/-! ## Landing -/

/-- The height of the footing is defined, and the ball touched a curve a real time ago. -/
structure Footing.Defined (footing : Footing α) : Prop where
  height : isNaN footing.height = false
  lastContact : IsReal footing.lastContact

theorem defined_falling (h : ball.Defined) (ht : IsReal time) : (falling ball time).Defined where
  height := by
    obtain ⟨y, hy⟩ := not_isNaN_iff.mp h.y
    obtain ⟨d, -, -, hd⟩ := value_drop ht h.lastContact
    obtain ⟨r, -, -, hr⟩ := Rules.value_ballRadius (α := α)
    exact isNaN_of_value (sub_of_real_right (sub_of_real_right hy hd) hr)
  lastContact := h.lastContact

/-- A contact that is higher than something is defined. -/
theorem Footing.Defined.consider {footing : Footing α} (h : footing.Defined) (ht : IsReal time)
    (id : GraphId) (contact? : Option α) : (footing.consider time id contact?).Defined := by
  cases contact? with
  | none => exact h
  | some contact =>
    unfold Footing.consider
    dsimp only
    split
    · rename_i hhigher
      obtain ⟨-, -, y, hy, -⟩ := (lt_iff _ _).mp hhigher
      exact ⟨isNaN_of_value hy, ht⟩
    · exact h

theorem Footing.Defined.landing {footing : Footing α} (h : footing.Defined) (ht : IsReal time)
    (solver : ContactSolver α) (pos : Point α) (graphs : List (Graph α)) :
    (landing solver time pos graphs footing).Defined := by
  induction graphs generalizing footing with
  | nil => exact h
  | cons graph graphs ih =>
    rw [landing_cons]
    exact ih (h.consider ht graph.id _)

/-- **The move keeps the ball defined**, whatever the graphs are. -/
theorem defined_moveBall (h : ball.Defined) (ht : IsReal time) (solver : ContactSolver α)
    (graphs : GraphStore α) : (moveBall solver graphs ball time).Defined := by
  have hlanding := (defined_falling h ht).landing ht solver ball.pos graphs.graphs
  rw [moveBall_eq]
  refine ⟨Curve.isNaN_add_stride time h.x _, ?_, hlanding.lastContact⟩
  obtain ⟨y, hy⟩ := not_isNaN_iff.mp hlanding.height
  obtain ⟨r, -, -, hr⟩ := Rules.value_ballRadius (α := α)
  exact isNaN_of_value (add_of_real_right hy hr)

end Simulator

end RollingBall
