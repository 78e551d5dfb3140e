import RollingBall.Proofs.Numbers.Real

/-!
# Exact arithmetic with any functions

Numbers may be real numbers on which arithmetic is exact, while their constants and elementary
functions are any (`Scalar.Unrounded`). What is proved of them depends on the four operations and on
comparisons only. The reals with the constants and functions of analysis are one case.

## Main definitions

* `Scalar.Unrounded`: numbers with exact arithmetic.
-/

namespace RollingBall

/-- Every number is a real number, and arithmetic, decimal literals and comparisons are exact. -/
class Scalar.Unrounded (α : Type) [Scalar α] where
  value : α → ℝ
  value_injective : Function.Injective value
  value_add (a b : α) : value (a + b) = value a + value b
  value_sub (a b : α) : value (a - b) = value a - value b
  value_mul (a b : α) : value (a * b) = value a * value b
  value_div (a b : α) : value b ≠ 0 → value (a / b) = value a / value b
  value_ofScientific (m : ℕ) (negative : Bool) (e : ℕ) :
    value (OfScientific.ofScientific m negative e) = OfScientific.ofScientific m negative e
  lt_iff (a b : α) : a < b ↔ value a < value b

namespace Reals

noncomputable scoped instance : Scalar.Unrounded ℝ where
  value := id
  value_injective := Function.injective_id
  value_add _ _ := rfl
  value_sub _ _ := rfl
  value_mul _ _ := rfl
  value_div _ _ _ := rfl
  value_ofScientific _ _ _ := rfl
  lt_iff _ _ := Iff.rfl

end Reals

namespace Scalar.Unrounded

attribute [simp] value_add value_sub

variable {α : Type} [Scalar α] [Unrounded α]

@[simp] theorem value_zero : value (0.0 : α) = 0 := by
  rw [value_ofScientific]
  norm_num

@[simp] theorem value_half (a : α) : value (a / 2.0) = value a / 2 := by
  have htwo : value (2.0 : α) = 2 := by
    rw [value_ofScientific]
    norm_num
  rw [value_div _ _ (by rw [htwo]; norm_num), htwo]

/-! ## Sums and differences -/

variable (a b c : α)

theorem add_zero_eq : a + 0.0 = a := value_injective (by rw [value_add, value_zero, add_zero])

theorem add_swap : a + b + c = a + c + b :=
  value_injective (by simp only [value_add]; ring)

theorem sub_add_swap : a - b + c = a + c - b :=
  value_injective (by simp only [value_add, value_sub]; ring)

theorem add_sub_back : a + b - b = a :=
  value_injective (by simp only [value_add, value_sub]; ring)

theorem add_sub_move : a + b - c = a - (c - b) :=
  value_injective (by simp only [value_add, value_sub]; ring)

theorem shift_sub_shift : a + c - (b + c) = a - b :=
  value_injective (by simp only [value_add, value_sub]; ring)

end Scalar.Unrounded

end RollingBall
