import Mathlib.Data.EReal.Inv
import RollingBall.Scalar

/-!
# The rules of IEEE arithmetic

A number is undefined or has a value on the extended real line. The four operations round the exact
result, and a few have none: infinities that cancel, and zero times infinity. Comparisons are those
of the values, so they fail for undefined numbers. Nothing is said of the elementary functions, of
the sign of a zero, or of division by zero. The doubles of `Float` follow these rules.

## Main definitions

* `Extended.sum?`, `Extended.product?`: the exact results, where there are any.
* `Scalar.Ieee`: the rules.
* `Scalar.Ieee.Roomy`: negation is exact, and no finite number is too great to add one to it.
* `Scalar.Ieee.IsReal`: a number is neither infinite nor undefined.
-/

namespace RollingBall

namespace Extended

/-- The sum of two extended reals, none if they are opposite infinities. -/
noncomputable def sum? (x y : EReal) : Option EReal :=
  if x = ⊤ ∧ y = ⊥ ∨ x = ⊥ ∧ y = ⊤ then none else some (x + y)

/-- The product of two extended reals, none for zero and an infinity. -/
noncomputable def product? (x y : EReal) : Option EReal :=
  if x = 0 ∧ (y = ⊤ ∨ y = ⊥) ∨ (x = ⊤ ∨ x = ⊥) ∧ y = 0 then none else some (x * y)

theorem sum?_of_real_left (r : ℝ) (y : EReal) : sum? r y = some (r + y) := by
  unfold sum?
  rw [if_neg]
  simp

theorem sum?_of_real_right (x : EReal) (r : ℝ) : sum? x r = some (x + r) := by
  unfold sum?
  rw [if_neg]
  simp

theorem sum?_of_ne_top {x y : EReal} (hx : x ≠ ⊤) (hy : y ≠ ⊤) : sum? x y = some (x + y) := by
  unfold sum?
  rw [if_neg]
  simp [hx, hy]

theorem product?_of_real_left {r : ℝ} (hr : r ≠ 0) (y : EReal) :
    product? r y = some (r * y) := by
  unfold product?
  rw [if_neg]
  simp [hr]

theorem product?_of_real_right (x : EReal) {r : ℝ} (hr : r ≠ 0) :
    product? x r = some (x * r) := by
  unfold product?
  rw [if_neg]
  simp [hr]

theorem product?_of_reals (r s : ℝ) : product? r s = some ((r * s : ℝ) : EReal) := by
  unfold product?
  rw [if_neg (by simp), EReal.coe_mul]

@[simp] theorem sum?_zero_left (y : EReal) : sum? 0 y = some y :=
  (sum?_of_real_left 0 y).trans (by rw [EReal.coe_zero, zero_add])

@[simp] theorem sum?_zero_right (x : EReal) : sum? x 0 = some x :=
  (sum?_of_real_right x 0).trans (by rw [EReal.coe_zero, add_zero])

@[simp] theorem product?_zero_left (r : ℝ) : product? 0 r = some 0 := by
  unfold product?
  rw [if_neg (by simp), zero_mul]

@[simp] theorem product?_zero_right (r : ℝ) : product? r 0 = some 0 := by
  unfold product?
  rw [if_neg (by simp), mul_zero]

end Extended

/-- The rules of IEEE arithmetic, with some rounding. -/
class Scalar.Ieee (α : Type) [Scalar α] where
  /-- The value of a number, none if it is undefined. -/
  value : α → Option EReal
  round : EReal → EReal
  round_mono : Monotone round
  round_top : round ⊤ = ⊤
  round_bot : round ⊥ = ⊥
  /-- Multiples of a power of two that is not too small are numbers if they are not too great. -/
  round_dyadic (n : ℤ) (k : ℕ) : |n| ≤ 2 ^ 53 → k ≤ 1074 →
    round ((n / 2 ^ k : ℝ) : EReal) = ((n / 2 ^ k : ℝ) : EReal)
  /-- There is one number for each infinity. -/
  eq_of_infinite {a b : α} {x : EReal} : value a = some x → value b = some x → x = ⊤ ∨ x = ⊥ →
    a = b
  value_add (a b : α) : value (a + b) =
    ((value a).bind fun x => (value b).bind fun y => Extended.sum? x y).map round
  value_sub (a b : α) : value (a - b) =
    ((value a).bind fun x => (value b).bind fun y => Extended.sum? x (-y)).map round
  value_mul (a b : α) : value (a * b) =
    ((value a).bind fun x => (value b).bind fun y => Extended.product? x y).map round
  value_div (a b : α) {r : ℝ} : value b = some ↑r → r ≠ 0 →
    value (a / b) = (value a).map fun x => round (x / r)
  value_ofScientific (m : ℕ) (negative : Bool) (e : ℕ) :
    value (OfScientific.ofScientific m negative e) =
      some (round ((if negative then m / 10 ^ e else m * 10 ^ e : ℝ) : EReal))
  beq_iff (a b : α) : a == b ↔ ∃ x ∈ value a, ∃ y ∈ value b, x = y
  lt_iff (a b : α) : a < b ↔ ∃ x ∈ value a, ∃ y ∈ value b, x < y
  le_iff (a b : α) : a ≤ b ↔ ∃ x ∈ value a, ∃ y ∈ value b, x ≤ y

/-- Numbers with exact opposites and with room above: one more than a finite number is finite. -/
class Scalar.Ieee.Roomy (α : Type) [Scalar α] [Scalar.Ieee α] : Prop where
  value_neg (a : α) : Scalar.Ieee.value (-a) = (Scalar.Ieee.value a).map fun x => -x
  round_add_le_one {a : α} {x r : ℝ} : Scalar.Ieee.value a = some (x : EReal) → 0 ≤ r → r ≤ 1 →
    ∃ s : ℝ, Scalar.Ieee.round α ((x + r : ℝ) : EReal) = (s : EReal)

namespace Scalar.Ieee

variable {α : Type} [Scalar α] [Ieee α] {a b : α}

theorem isNaN_iff : isNaN a ↔ value a = none := by
  unfold isNaN
  rw [Bool.not_eq_true', ← Bool.not_eq_true, beq_iff]
  cases value a <;> simp

theorem not_isNaN_iff : isNaN a = false ↔ ∃ x, value a = some x := by
  rw [← Bool.not_eq_true, isNaN_iff, ← ne_eq, Option.ne_none_iff_exists']

/-- The number is neither infinite nor undefined. -/
def IsReal (a : α) : Prop := ∃ r : ℝ, value a = some (r : EReal)

theorem isNaN_of_value {x : EReal} (h : value a = some x) : isNaN a = false :=
  not_isNaN_iff.mpr ⟨x, h⟩

/-- Of two defined numbers either the first is less or it is not. -/
theorem not_lt_iff (ha : isNaN a = false) (hb : isNaN b = false) : ¬ a < b ↔ b ≤ a := by
  obtain ⟨x, hx⟩ := not_isNaN_iff.mp ha
  obtain ⟨y, hy⟩ := not_isNaN_iff.mp hb
  rw [lt_iff, le_iff]
  simp [hx, hy]

/-! ## Rounding and literals -/

section Rounding

variable (α)

theorem round_zero : round α 0 = 0 := by
  have h := round_dyadic (α := α) 0 0 (by norm_num) (by norm_num)
  simpa using h

/-- A real between two multiples of powers of two is rounded to one between them. -/
theorem exists_round_eq {r : ℝ} {n m : ℤ} {k l : ℕ} (hlow : n / 2 ^ k ≤ r)
    (hhigh : r ≤ m / 2 ^ l) (hn : |n| ≤ 2 ^ 53) (hk : k ≤ 1074) (hm : |m| ≤ 2 ^ 53)
    (hl : l ≤ 1074) :
    ∃ s : ℝ, n / 2 ^ k ≤ s ∧ s ≤ m / 2 ^ l ∧ round α r = (s : EReal) := by
  have hge : ((n / 2 ^ k : ℝ) : EReal) ≤ round α r := by
    rw [← round_dyadic (α := α) n k hn hk]
    exact round_mono (EReal.coe_le_coe_iff.mpr hlow)
  have hle : round α r ≤ ((m / 2 ^ l : ℝ) : EReal) := by
    rw [← round_dyadic (α := α) m l hm hl]
    exact round_mono (EReal.coe_le_coe_iff.mpr hhigh)
  lift round α r to ℝ using ⟨ne_top_of_le_ne_top (EReal.coe_ne_top _) hle,
    ne_bot_of_le_ne_bot (EReal.coe_ne_bot _) hge⟩ with s
  exact ⟨s, EReal.coe_le_coe_iff.mp hge, EReal.coe_le_coe_iff.mp hle, rfl⟩

theorem exists_round_unit {r : ℝ} (hr : 0 ≤ r) (hone : r ≤ 1) :
    ∃ s : ℝ, 0 ≤ s ∧ s ≤ 1 ∧ round α (r : EReal) = (s : EReal) := by
  have h := exists_round_eq α (r := r) (n := 0) (k := 0) (m := 1) (l := 0) (by simpa using hr)
    (by simpa using hone) (by norm_num) (by norm_num) (by norm_num) (by norm_num)
  simpa using h

/-- A decimal literal between zero and one has a value between them. -/
theorem value_literal_unit {m e : ℕ} (h : m ≤ 10 ^ e) :
    ∃ r : ℝ, 0 ≤ r ∧ r ≤ 1 ∧
      value (OfScientific.ofScientific m true e : α) = some (r : EReal) := by
  have hle : (m / 10 ^ e : ℝ) ≤ 1 := (div_le_one (by positivity)).mpr (by exact_mod_cast h)
  obtain ⟨r, hr, hone, hround⟩ := exists_round_unit α (by positivity) hle
  exact ⟨r, hr, hone, by rw [value_ofScientific, if_pos rfl, hround]⟩

/-- A decimal literal that is a multiple of a power of two has its exact value. -/
theorem value_literal {m e : ℕ} {n : ℤ} {k : ℕ} (h : (m / 10 ^ e : ℝ) = n / 2 ^ k)
    (hn : |n| ≤ 2 ^ 53) (hk : k ≤ 1074) :
    value (OfScientific.ofScientific m true e : α) = some ((n / 2 ^ k : ℝ) : EReal) := by
  rw [value_ofScientific, if_pos rfl, h, round_dyadic n k hn hk]

/-- A natural number of at most 53 bits has its exact value. -/
theorem value_ofNat {n : ℕ} (h : n ≤ 2 ^ 53) :
    value (Scalar.ofNat n : α) = some ((n : ℝ) : EReal) := by
  have hexact := round_dyadic (α := α) n 0 (by rw [Nat.abs_cast]; exact_mod_cast h) (Nat.zero_le _)
  rw [pow_zero, div_one, Int.cast_natCast] at hexact
  unfold Scalar.ofNat
  rw [value_ofScientific, if_neg Bool.false_ne_true, pow_zero, mul_one, hexact]

end Rounding

/-! ## Results of operations -/

section Operations

variable {x y : EReal} {r : ℝ}

theorem add_of_real_right (ha : value a = some x) (hb : value b = some (r : EReal)) :
    value (a + b) = some (round α (x + r)) := by
  rw [value_add, ha, hb, Option.bind_some, Option.bind_some, Extended.sum?_of_real_right,
    Option.map_some]

theorem add_of_ne_top (ha : value a = some x) (hb : value b = some y) (hx : x ≠ ⊤) (hy : y ≠ ⊤) :
    value (a + b) = some (round α (x + y)) := by
  rw [value_add, ha, hb, Option.bind_some, Option.bind_some, Extended.sum?_of_ne_top hx hy,
    Option.map_some]

theorem sub_of_real_left (ha : value a = some (r : EReal)) (hb : value b = some y) :
    value (a - b) = some (round α (r - y)) := by
  rw [value_sub, ha, hb, Option.bind_some, Option.bind_some, Extended.sum?_of_real_left,
    Option.map_some, sub_eq_add_neg]

theorem sub_of_real_right (ha : value a = some x) (hb : value b = some (r : EReal)) :
    value (a - b) = some (round α (x - r)) := by
  rw [value_sub, ha, hb, Option.bind_some, Option.bind_some, ← EReal.coe_neg,
    Extended.sum?_of_real_right, Option.map_some, EReal.coe_neg, sub_eq_add_neg]

theorem mul_of_real_left (hr : r ≠ 0) (ha : value a = some (r : EReal)) (hb : value b = some y) :
    value (a * b) = some (round α (r * y)) := by
  rw [value_mul, ha, hb, Option.bind_some, Option.bind_some,
    Extended.product?_of_real_left hr, Option.map_some]

theorem mul_of_real_right (hr : r ≠ 0) (ha : value a = some x) (hb : value b = some (r : EReal)) :
    value (a * b) = some (round α (x * r)) := by
  rw [value_mul, ha, hb, Option.bind_some, Option.bind_some,
    Extended.product?_of_real_right x hr, Option.map_some]

theorem mul_of_reals {s : ℝ} (ha : value a = some (r : EReal)) (hb : value b = some (s : EReal)) :
    value (a * b) = some (round α ((r * s : ℝ) : EReal)) := by
  rw [value_mul, ha, hb, Option.bind_some, Option.bind_some, Extended.product?_of_reals,
    Option.map_some]

/-- The difference of a number and itself is zero if it is defined. -/
theorem sub_self_eq : value (a - a) = none ∨ value (a - a) = some 0 := by
  rw [value_sub]
  cases ha : value a with
  | none => exact .inl rfl
  | some x =>
    rw [Option.bind_some, Option.bind_some]
    induction x using EReal.rec with
    | bot => exact .inl (by simp [Extended.sum?])
    | top => exact .inl (by simp [Extended.sum?])
    | coe r =>
      refine .inr ?_
      rw [Extended.sum?_of_real_left, Option.map_some, ← sub_eq_add_neg, ← EReal.coe_sub, sub_self]
      exact congrArg some (round_zero α)

end Operations

end Scalar.Ieee

end RollingBall
