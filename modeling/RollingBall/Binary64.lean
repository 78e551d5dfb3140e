import RollingBall.Scalar

/-!
# Double precision

A finite `Float` is a sign and a natural multiple of a power of two (`Binary64.decode`). The exact
remainder is read off these parts, and `Float` becomes a `Scalar`.
-/

namespace RollingBall

/-- A finite double: its sign, and its size `mantissa * 2 ^ exponent`. -/
structure Binary64 where
  negative : Bool
  mantissa : Nat
  exponent : Int
deriving DecidableEq, Repr

namespace Binary64

/-- The parts of a finite double. The exponent field `0` marks the subnormal numbers, whose
mantissa has no implicit bit. -/
def decode (x : Float) : Binary64 :=
  let bits := x.toBits.toNat
  let fraction := bits % Nat.pow 2 52
  let field := bits / Nat.pow 2 52 % Nat.pow 2 11
  { negative := bits / Nat.pow 2 63 == 1
    mantissa := if field = 0 then fraction else fraction + Nat.pow 2 52
    exponent := (max field 1 : Nat) - 1075 }

/-- The numerator of the size of a double. -/
def numerator (x : Binary64) : Nat := x.mantissa * Nat.pow 2 x.exponent.toNat

/-- The denominator of the size of a double. -/
def denominator (x : Binary64) : Nat := Nat.pow 2 (-x.exponent).toNat

/-- The sign bit of a double, finite or not. -/
def isNegative (x : Float) : Bool := x.toBits.toNat / Nat.pow 2 63 == 1

/-- What division of `x` by `y` leaves, computed on the integers both are multiples of. The result
is a double again, with the sign of `x`. -/
def remainder (x y : Float) : Float :=
  if !x.isFinite || y.isNaN || y == 0.0 then 0.0 / 0.0
  else if y.isInf then x
  else
    let a := decode x
    let b := decode y
    let unit := min a.exponent b.exponent
    let rest := (a.mantissa * Nat.pow 2 (a.exponent - unit).toNat) %
      (b.mantissa * Nat.pow 2 (b.exponent - unit).toNat)
    let size := rest.toUInt64.toFloat.scaleB unit
    if a.negative then -size else size

/-- The hypotenuse. Lengths whose squares would leave the range are scaled by a power of two. -/
def hypot (x y : Float) : Float :=
  if x.isInf || y.isInf then 1.0 / 0.0
  else
    let a := x.abs
    let b := y.abs
    let longer := if a < b then b else a
    let power : Int := if longer > 1e150 then -600 else if longer < 1e-150 then 600 else 0
    let a := a.scaleB power
    let b := b.scaleB power
    (a * a + b * b).sqrt.scaleB (-power)

end Binary64

instance : Scalar Float where
  toOfScientific := inferInstance
  decidableLT := inferInstance
  decidableLE := inferInstance
  nan := 0.0 / 0.0
  pi := 3.141592653589793
  turn := 6.283185307179586
  euler := 2.718281828459045
  golden := 1.618033988749895
  isFinite := Float.isFinite
  abs := Float.abs
  floor := Float.floor
  ceil := Float.ceil
  round := Float.round
  truncate bound x := min bound x.toUInt64.toNat
  remainder := Binary64.remainder
  sqrt := Float.sqrt
  cbrt := Float.cbrt
  exp := Float.exp
  ln := Float.log
  log10 := Float.log10
  sin := Float.sin
  cos := Float.cos
  tan := Float.tan
  asin := Float.asin
  acos := Float.acos
  atan := Float.atan
  sinh := Float.sinh
  cosh := Float.cosh
  tanh := Float.tanh
  pow := Float.pow
  atan2 := Float.atan2
  hypot := Binary64.hypot

end RollingBall
