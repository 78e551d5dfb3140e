/-!
# Numbers

The game computes with one kind of number, and `Scalar` lists what it asks of it: the four
operations, comparisons, decimal literals, rounding and the elementary functions. The class assumes
no law, so every definition built on it can be run with `Float` and read with any numbers.

## Main definitions

* `Scalar`: the operations.
* `Scalar.isNaN`, `Scalar.smaller`, `Scalar.larger`, `Scalar.clamp`, `Scalar.modulo`: what follows
  from them.
-/

namespace RollingBall

/-- The operations on numbers that formulas, contact, levels and the simulation use. -/
class Scalar (α : Type) extends Add α, Sub α, Mul α, Div α, Neg α, LT α, LE α, BEq α,
    OfScientific α where
  decidableLT : DecidableLT α
  decidableLE : DecidableLE α
  /-- The value of an operation that has none. -/
  nan : α
  pi : α
  /-- A full turn, in radians. -/
  turn : α
  euler : α
  golden : α
  /-- Neither infinite nor undefined. -/
  isFinite : α → Bool
  abs : α → α
  floor : α → α
  ceil : α → α
  /-- The nearest integer, a half going away from zero. -/
  round : α → α
  /-- The integer part as a number from zero to the bound; an undefined value gives zero. -/
  truncate : (bound : Nat) → α → Nat
  /-- What division by the second number leaves, with the sign of the first. -/
  remainder : α → α → α
  sqrt : α → α
  cbrt : α → α
  exp : α → α
  ln : α → α
  log10 : α → α
  sin : α → α
  cos : α → α
  tan : α → α
  asin : α → α
  acos : α → α
  atan : α → α
  sinh : α → α
  cosh : α → α
  tanh : α → α
  pow : α → α → α
  /-- The angle of the point whose height comes first. -/
  atan2 : α → α → α
  hypot : α → α → α

namespace Scalar

variable {α : Type} [Scalar α]

instance : DecidableLT α := decidableLT

instance : DecidableLE α := decidableLE

/-- A natural number as a scalar. -/
def ofNat (n : Nat) : α := OfScientific.ofScientific n false 0

/-- An undefined value is the one that differs from itself. -/
def isNaN (a : α) : Bool := !(a == a)

/-- The smaller of two numbers, the second if they are equal; an undefined one gives way to the
other. -/
def smaller (a b : α) : α := if isNaN a || decide (b ≤ a) then b else a

/-- The larger of two numbers, the second if they are equal; an undefined one gives way to the
other. -/
def larger (a b : α) : α := if isNaN a || decide (a ≤ b) then b else a

/-- The number in the interval that is nearest; an undefined one stays. -/
def clamp (low high a : α) : α := if a < low then low else if high < a then high else a

/-- The remainder moved into the interval from zero to `b`. -/
def modulo (a b : α) : α :=
  let r := remainder a b
  if r < 0.0 then r + abs b else r

end Scalar

end RollingBall
