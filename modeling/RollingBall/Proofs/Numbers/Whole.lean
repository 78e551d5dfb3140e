import RollingBall.Proofs.Numbers.Unrounded

/-!
# Whole numbers in exact arithmetic

Exact arithmetic may also have exact absolute values, whole parts and remainders
(`Scalar.Unrounded.Whole`). Colors are computed from these and the four operations, so they are
those that the reals give. The reals are one case, and the rational numbers are another one, which
can be evaluated.

## Main definitions

* `Scalar.Unrounded.Whole`: absolute values, whole parts and remainders are exact.
* `Rationals`: the scope within which the rational numbers are an instance of `Scalar`.
-/

namespace RollingBall

open scoped Reals

/-! ## Whole parts of reals -/

theorem wholePart_of_nonneg {x : ℝ} (h : 0 ≤ x) : wholePart x = ⌊x⌋ := by
  unfold wholePart
  rw [abs_of_nonneg h]
  rcases h.eq_or_lt with rfl | hpos
  · simp
  · rw [sign_pos hpos, SignType.coe_one, one_mul]

theorem wholePart_of_neg {x : ℝ} (h : x < 0) : wholePart x = ⌈x⌉ := by
  unfold wholePart
  rw [abs_of_neg h, sign_neg h, SignType.coe_neg_one, Int.floor_neg]
  push_cast
  ring

/-- What lies beyond a whole number stays beyond what that number leaves. -/
theorem mul_fract_natCast_add {n : ℕ} (hn : 0 < n) (m : ℕ) {p : ℝ} (hp : 0 ≤ p) (hlt : p < 1) :
    n * Int.fract ((m + p) / n) = (m % n : ℕ) + p := by
  have hpos : (0 : ℝ) < n := Nat.cast_pos.mpr hn
  have hless : ((m % n : ℕ) : ℝ) + 1 ≤ n := by exact_mod_cast Nat.mod_lt m hn
  have hwhole : (m + p) / n = ((m % n : ℕ) + p) / n + ((m / n : ℕ) : ℤ) := by
    have hm : ((m % n + n * (m / n) : ℕ) : ℝ) = m := by rw [Nat.mod_add_div]
    rw [Int.cast_natCast, div_add' _ _ _ hpos.ne', ← hm]
    push_cast
    ring
  have hself : Int.fract (((m % n : ℕ) + p) / n) = ((m % n : ℕ) + p) / n :=
    Int.fract_eq_self.mpr ⟨by positivity, (div_lt_one hpos).mpr (by linarith)⟩
  rw [hwhole, Int.fract_add_intCast, hself, mul_div_cancel₀ _ hpos.ne']

/-- Where no number is negative, a half always goes up. -/
theorem scalarRound_of_nonneg {x : ℝ} (h : 0 ≤ x) : Scalar.round x = round x := by
  show SignType.sign x * (round |x| : ℝ) = _
  rw [abs_of_nonneg h]
  rcases h.eq_or_lt with rfl | hpos
  · simp
  · rw [sign_pos hpos, SignType.coe_one, one_mul]

namespace Scalar

theorem remainder_real_of_nonneg {x y : ℝ} (hx : 0 ≤ x) (hy : 0 < y) :
    remainder x y = y * Int.fract (x / y) := by
  show x - y * wholePart (x / y) = _
  rw [wholePart_of_nonneg (div_nonneg hx hy.le), Int.fract, mul_sub, mul_div_cancel₀ x hy.ne']

/-- A negative number leaves a part of the interval, too, unless it leaves nothing. -/
theorem remainder_real_of_neg {x y : ℝ} (hx : x < 0) (hy : 0 < y) :
    remainder x y = if Int.fract (x / y) = 0 then 0 else y * Int.fract (x / y) - y := by
  show x - y * wholePart (x / y) = _
  rw [wholePart_of_neg (div_neg_of_neg_of_pos hx hy)]
  split
  · rename_i hfract
    obtain ⟨n, hn⟩ := Int.fract_eq_zero_iff.mp hfract
    rw [← hn, Int.ceil_intCast, hn, mul_div_cancel₀ x hy.ne', sub_self]
  · rename_i hfract
    rw [Int.ceil_eq_add_one_sub_fract hfract, mul_sub, mul_add, mul_div_cancel₀ x hy.ne']
    ring

/-- What a number leaves of an interval, whether it is negative or not. -/
theorem modulo_real (x : ℝ) {y : ℝ} (hy : 0 < y) : modulo x y = y * Int.fract (x / y) := by
  have hzero : (0.0 : ℝ) = 0 := by norm_num
  have hnonneg : 0 ≤ y * Int.fract (x / y) := mul_nonneg hy.le (Int.fract_nonneg _)
  unfold modulo
  rw [hzero]
  rcases le_or_gt 0 x with hx | hx
  · rw [remainder_real_of_nonneg hx hy]
    exact if_neg (not_lt.mpr hnonneg)
  · rw [remainder_real_of_neg hx hy]
    by_cases hfract : Int.fract (x / y) = 0
    · simp [hfract]
    · have hlt : y * Int.fract (x / y) - y < 0 := by
        rw [sub_neg]
        exact mul_lt_of_lt_one_right hy (Int.fract_lt_one _)
      rw [if_neg hfract]
      show (if _ < 0 then y * Int.fract (x / y) - y + |y| else _) = _
      rw [if_pos hlt, abs_of_pos hy, sub_add_cancel]

end Scalar

/-! ## Exact whole numbers -/

/-- Absolute values, roundings, whole parts and remainders are those of the reals. -/
class Scalar.Unrounded.Whole (α : Type) [Scalar α] [Scalar.Unrounded α] : Prop where
  value_abs (a : α) : value (abs a) = abs (value a)
  value_round (a : α) : value (round a) = round (value a)
  truncate_value (bound : ℕ) (a : α) : truncate bound (value a) = truncate bound a
  value_remainder (a b : α) : value b ≠ 0 → value (remainder a b) = remainder (value a) (value b)

namespace Reals

scoped instance : Scalar.Unrounded.Whole ℝ where
  value_abs _ := rfl
  value_round _ := rfl
  truncate_value _ _ := rfl
  value_remainder _ _ _ := rfl

end Reals

namespace Scalar.Unrounded

variable {α : Type} [Scalar α] [Unrounded α]

theorem value_clamp (low high a : α) :
    value (clamp low high a) = clamp (value low) (value high) (value a) := by
  unfold clamp
  simp only [← lt_iff]
  split
  · rfl
  · split <;> rfl

theorem value_modulo [Whole α] (a b : α) (hb : value b ≠ 0) :
    value (modulo a b) = modulo (value a) (value b) := by
  have hzero : (0.0 : ℝ) = value (0.0 : α) := (value_ofScientific ..).symm
  unfold modulo
  simp only [← Whole.value_remainder a b hb, hzero, ← lt_iff]
  split
  · rw [value_add, Whole.value_abs]
  · rfl

end Scalar.Unrounded

/-! ## Rational numbers -/

namespace Rationals

/-- Exact arithmetic on fractions. The constants and the elementary functions, whose values are
seldom fractions, are all zero. -/
scoped instance : Scalar ℚ where
  toAdd := inferInstance
  toSub := inferInstance
  toMul := inferInstance
  toDiv := inferInstance
  toNeg := inferInstance
  toLT := inferInstance
  toLE := inferInstance
  toBEq := inferInstance
  toOfScientific := inferInstance
  decidableLT := inferInstance
  decidableLE := inferInstance
  nan := 0
  pi := 0
  turn := 0
  euler := 0
  golden := 0
  isFinite _ := true
  abs x := |x|
  floor x := ⌊x⌋
  ceil x := ⌈x⌉
  round x := SignType.sign x * round |x|
  truncate bound x := min bound ⌊x⌋₊
  remainder x y := x - y * (SignType.sign (x / y) * ⌊|x / y|⌋)
  sqrt := 0
  cbrt := 0
  exp := 0
  ln := 0
  log10 := 0
  sin := 0
  cos := 0
  tan := 0
  asin := 0
  acos := 0
  atan := 0
  sinh := 0
  cosh := 0
  tanh := 0
  pow := 0
  atan2 := 0
  hypot := 0

theorem cast_sign (q : ℚ) : ((SignType.sign q : ℚ) : ℝ) = SignType.sign (q : ℝ) := by
  have hsign : SignType.sign (q : ℝ) = SignType.sign q :=
    Rat.cast_strictMono.sign_comp (f := Rat.castHom ℝ) q
  rw [hsign]
  cases SignType.sign q <;> simp

noncomputable scoped instance : Scalar.Unrounded ℚ where
  value q := q
  value_injective := Rat.cast_injective
  value_add := Rat.cast_add
  value_sub := Rat.cast_sub
  value_mul := Rat.cast_mul
  value_div a b _ := Rat.cast_div a b
  value_ofScientific := Rat.cast_ofScientific
  lt_iff _ _ := Rat.cast_lt.symm

/-- **Rational numbers.** Their arithmetic is exact, and so are their whole parts. -/
scoped instance : Scalar.Unrounded.Whole ℚ where
  value_abs := Rat.cast_abs
  value_round a := by
    show ((SignType.sign a * round |a| : ℚ) : ℝ) = SignType.sign (a : ℝ) * round |(a : ℝ)|
    rw [Rat.cast_mul, cast_sign, Rat.cast_intCast, ← Rat.cast_abs, Rat.round_cast]
  truncate_value bound a := by
    show min bound ⌊(a : ℝ)⌋₊ = min bound ⌊a⌋₊
    rw [← Int.floor_toNat, ← Int.floor_toNat, Rat.floor_cast]
  value_remainder a b _ := by
    show ((a - b * (SignType.sign (a / b) * ⌊|a / b|⌋) : ℚ) : ℝ) =
      (a : ℝ) - (b : ℝ) * (SignType.sign ((a : ℝ) / b) * ⌊|(a : ℝ) / b|⌋)
    rw [← Rat.cast_div, ← cast_sign, ← Rat.cast_abs, Rat.floor_cast]
    push_cast
    rfl

end Rationals

end RollingBall
