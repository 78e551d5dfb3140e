import Mathlib.Order.Defs.Unbundled
import RollingBall.Proofs.Numbers.Ieee
import RollingBall.Rules

/-!
# The order of numbers

Numbers are compared with `<`, which orders those that are defined, the two zeros counting as one,
and fails for the others. Where only this matters no other law of arithmetic is assumed
(`Scalar.Ordered`). It follows from the rules of IEEE arithmetic.
-/

namespace RollingBall

open Scalar

/-- The defined numbers are strictly and totally ordered, up to `==`, and an undefined one compares
with none. Taking the radius of the ball off a number leaves it defined or undefined, and putting it
on keeps `==`. -/
class Scalar.Ordered (α : Type) [Scalar α] : Prop extends IsStrictOrder α (· < ·) where
  defined_of_lt {a b : α} : a < b → isNaN a = false ∧ isNaN b = false
  /-- Of two numbers the less is below or the greater is above any defined third. -/
  lt_or_lt {a b c : α} : isNaN b = false → a < c → a < b ∨ b < c
  beq_of_not_lt {a b : α} : isNaN a = false → isNaN b = false → ¬ a < b → ¬ b < a → a == b
  isNaN_sub_ballRadius (a : α) : isNaN (a - Rules.ballRadius) = isNaN a
  beq_add_ballRadius {a b : α} : a == b → a + Rules.ballRadius == b + Rules.ballRadius

variable {α : Type} [Scalar α] [Ieee α]

open Scalar.Ieee

theorem Rules.value_ballRadius :
    ∃ r : ℝ, 0 ≤ r ∧ r ≤ 1 ∧ value (Rules.ballRadius : α) = some (r : EReal) :=
  value_literal_unit α (m := 4) (e := 1) (by norm_num)

namespace Scalar.Ieee

instance isStrictOrder : IsStrictOrder α (· < ·) where
  irrefl a h := by
    obtain ⟨x, hx, y, hy, hlt⟩ := (lt_iff a a).mp h
    obtain rfl : x = y := Option.some.inj (hx.symm.trans hy)
    exact lt_irrefl x hlt
  trans a b c hab hbc := by
    obtain ⟨x, hx, y, hy, hxy⟩ := (lt_iff a b).mp hab
    obtain ⟨y', hy', z, hz, hyz⟩ := (lt_iff b c).mp hbc
    obtain rfl : y = y' := Option.some.inj (hy.symm.trans hy')
    exact (lt_iff a c).mpr ⟨x, hx, z, hz, hxy.trans hyz⟩

instance ordered : Ordered α where
  defined_of_lt h := by
    obtain ⟨x, hx, y, hy, -⟩ := (lt_iff _ _).mp h
    exact ⟨isNaN_of_value hx, isNaN_of_value hy⟩
  lt_or_lt hb h := by
    obtain ⟨x, hx, z, hz, hlt⟩ := (lt_iff _ _).mp h
    obtain ⟨y, hy⟩ := not_isNaN_iff.mp hb
    rcases lt_or_ge x y with hxy | hyx
    · exact .inl ((lt_iff _ _).mpr ⟨x, hx, y, hy, hxy⟩)
    · exact .inr ((lt_iff _ _).mpr ⟨y, hy, z, hz, hyx.trans_lt hlt⟩)
  beq_of_not_lt ha hb hab hba := by
    obtain ⟨x, hx⟩ := not_isNaN_iff.mp ha
    obtain ⟨y, hy⟩ := not_isNaN_iff.mp hb
    have hle : x ≤ y := by simpa [le_iff, hx, hy] using (not_lt_iff hb ha).mp hba
    have hge : y ≤ x := by simpa [le_iff, hx, hy] using (not_lt_iff ha hb).mp hab
    exact (beq_iff _ _).mpr ⟨x, hx, y, hy, le_antisymm hle hge⟩
  isNaN_sub_ballRadius a := by
    obtain ⟨r, -, -, hr⟩ := Rules.value_ballRadius (α := α)
    cases ha : isNaN a with
    | true =>
      refine isNaN_iff.mpr ?_
      rw [value_sub, isNaN_iff.mp ha]
      rfl
    | false =>
      obtain ⟨x, hx⟩ := not_isNaN_iff.mp ha
      exact isNaN_of_value (sub_of_real_right hx hr)
  beq_add_ballRadius h := by
    obtain ⟨r, -, -, hr⟩ := Rules.value_ballRadius (α := α)
    obtain ⟨x, hx, y, hy, rfl⟩ := (beq_iff _ _).mp h
    exact (beq_iff _ _).mpr ⟨_, add_of_real_right hx hr, _, add_of_real_right hy hr, rfl⟩

end Scalar.Ieee

end RollingBall
