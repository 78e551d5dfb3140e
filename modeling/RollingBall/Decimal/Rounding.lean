import RollingBall.Decimal.Digits

/-!
# Rounding to a decimal grid

Positive numbers are given as fractions of naturals. `roundHalfEven` is the nearest integer to a
fraction, and `leadingExponent` the place of its first decimal digit.
-/

namespace RollingBall.Decimal

/-- The integer nearest to a fraction; of two as near, the even one. -/
def roundHalfEven (num den : Nat) : Nat :=
  let q := num / den
  let r := num % den
  if 2 * r < den then q
  else if den < 2 * r then q + 1
  else q + q % 2

/-- The number of decimal digits. -/
def length (n : Nat) : Nat := (digits n).length

/-- The exponent of the greatest power of ten that is at most the positive fraction. -/
def leadingExponent (num den : Nat) : Int :=
  if den ≤ num then (length (num / den) : Int) - 1
  else -(length ((den - 1) / num) : Int)

/-- The fraction divided by a power of ten, rounded. -/
def roundAt (num den : Nat) (exponent : Int) : Nat :=
  roundHalfEven (num * Nat.pow 10 (-exponent).toNat) (den * Nat.pow 10 exponent.toNat)

end RollingBall.Decimal
