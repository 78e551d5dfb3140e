import Mathlib.Analysis.SpecialFunctions.Complex.Arg
import Mathlib.Analysis.SpecialFunctions.Log.Base
import Mathlib.Analysis.SpecialFunctions.Pow.Real
import Mathlib.Analysis.SpecialFunctions.Trigonometric.Arctan
import Mathlib.NumberTheory.Real.GoldenRatio
import RollingBall.Rules

/-!
# Exact arithmetic

The real numbers are an instance of `Scalar`, within the scope `Reals`: nothing is rounded, and the
constants and functions are those of analysis. Every number is defined and finite. Where an
operation has no value it gives what it gives in Mathlib, such as zero for a division by zero.
-/

namespace RollingBall

/-- The integer part of a real, towards zero. -/
noncomputable def wholePart (x : ℝ) : ℝ := SignType.sign x * ⌊|x|⌋

namespace Reals

noncomputable scoped instance : Scalar ℝ where
  toAdd := inferInstance
  toSub := inferInstance
  toMul := inferInstance
  toDiv := inferInstance
  toNeg := inferInstance
  toLT := inferInstance
  toLE := inferInstance
  toBEq := inferInstance
  toOfScientific := inferInstance
  decidableLT := inferInstance
  decidableLE := inferInstance
  nan := 0
  pi := Real.pi
  turn := Real.pi + Real.pi
  euler := Real.exp 1
  golden := Real.goldenRatio
  isFinite _ := true
  abs x := |x|
  floor x := ⌊x⌋
  ceil x := ⌈x⌉
  round x := SignType.sign x * round |x|
  truncate bound x := min bound ⌊x⌋₊
  remainder x y := x - y * wholePart (x / y)
  sqrt := Real.sqrt
  cbrt x := SignType.sign x * |x| ^ (1 / 3 : ℝ)
  exp := Real.exp
  ln := Real.log
  log10 := Real.logb 10.0
  sin := Real.sin
  cos := Real.cos
  tan := Real.tan
  asin := Real.arcsin
  acos := Real.arccos
  atan := Real.arctan
  sinh := Real.sinh
  cosh := Real.cosh
  tanh := Real.tanh
  pow x y := x ^ y
  atan2 y x := Complex.arg ⟨x, y⟩
  hypot x y := Real.sqrt (x ^ 2 + y ^ 2)

end Reals

open scoped Reals

namespace Scalar

theorem isNaN_real (x : ℝ) : isNaN x = false := by simp [isNaN]

theorem larger_real (x y : ℝ) : larger x y = max x y := by
  unfold larger
  rw [isNaN_real, Bool.false_or]
  split
  · rename_i h
    exact (max_eq_right (of_decide_eq_true h)).symm
  · rename_i h
    exact (max_eq_left (le_of_not_ge (mt decide_eq_true h))).symm

theorem clamp_real {low high : ℝ} (h : low ≤ high) (x : ℝ) :
    clamp low high x = max low (min high x) := by
  unfold clamp
  split
  · rename_i hlow
    rw [min_eq_right (hlow.le.trans h), max_eq_left hlow.le]
  · rename_i hlow
    split
    · rename_i hhigh
      rw [min_eq_left hhigh.le, max_eq_right h]
    · rename_i hhigh
      rw [min_eq_right (not_lt.mp hhigh), max_eq_right (not_lt.mp hlow)]

end Scalar

/-! ## The constants -/

namespace Rules

theorem tickTime_real : (tickTime : ℝ) = 1 / 60 := by
  unfold tickTime ticksPerSecond Scalar.ofNat
  norm_num

theorem levelHeight_real : (levelHeight : ℝ) = 8 := by
  unfold levelHeight
  norm_num

theorem ballRadius_real : (ballRadius : ℝ) = 2 / 5 := by
  unfold ballRadius
  norm_num

theorem ballSpeed_real : (ballSpeed : ℝ) = 3 / 2 := by
  unfold ballSpeed
  norm_num

theorem gravity_real : (gravity : ℝ) = 67 / 100 := by
  unfold gravity
  norm_num

theorem minFallTime_real : (minFallTime : ℝ) = 1 / 10 := by
  unfold minFallTime
  norm_num

theorem maxFallTime_real : (maxFallTime : ℝ) = 1 / 2 := by
  unfold maxFallTime
  norm_num

theorem contactSlack_real : (contactSlack : ℝ) = 1 / 200 := by
  unfold contactSlack
  norm_num

theorem slopeWidth_real : (slopeWidth : ℝ) = 1 / 100 := by
  unfold slopeWidth
  norm_num

end Rules

end RollingBall
