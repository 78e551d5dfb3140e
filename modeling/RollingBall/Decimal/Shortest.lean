import RollingBall.Binary64
import RollingBall.Decimal.Rounding

/-!
# Shortest decimals

The shortest decimal of a double has as few digits as any decimal that is read back as the same
double and, of those, is nearest to it. The reals that are read back form an interval around the
double, half way to its neighbours, ends included if the last bit of the double is zero.

For one digit, two digits and so on, the two neighbours of the double on the grid of that many
digits are tried; seventeen digits always suffice.
-/

namespace RollingBall.Decimal

/-- The decimal `digits * 10 ^ exponent`. -/
structure Shortest where
  digits : Nat
  exponent : Int
deriving DecidableEq, Repr

namespace Shortest

/-- The interval of reals read back as a double, in quarters of its last bit, around
`4 * mantissa`. Below a power of two the neighbour is half as far. -/
def interval (x : Binary64) : Nat × Nat :=
  let below := if x.mantissa = Nat.pow 2 52 ∧ -1074 < x.exponent then 1 else 2
  (4 * x.mantissa - below, 4 * x.mantissa + 2)

/-- A number of quarters of the last bit and a number of steps of the decimal grid, as naturals in
the same unit. -/
def scales (x : Binary64) (exponent : Int) : Nat × Nat :=
  let quarter := x.exponent - 2
  (Nat.pow 2 quarter.toNat * Nat.pow 10 (-exponent).toNat,
    Nat.pow 2 (-quarter).toNat * Nat.pow 10 exponent.toNat)

/-- The decimal on the grid is read back as the double. -/
def readsBack (x : Binary64) (candidate : Nat) (exponent : Int) : Bool :=
  let (quarter, step) := scales x exponent
  let (low, high) := interval x
  let place := candidate * step
  if x.mantissa % 2 = 0 then low * quarter ≤ place && place ≤ high * quarter
  else low * quarter < place && place < high * quarter

/-- The nearer neighbour of the double on the grid that is read back; of two as near, the even
one. -/
def onGrid? (x : Binary64) (exponent : Int) : Option Shortest :=
  let (quarter, step) := scales x exponent
  let value := 4 * x.mantissa * quarter
  let lower := value / step
  let upper := lower + 1
  match readsBack x lower exponent, readsBack x upper exponent with
  | false, false => none
  | true, false => some ⟨lower, exponent⟩
  | false, true => some ⟨upper, exponent⟩
  | true, true =>
    let down := value - lower * step
    let up := upper * step - value
    if down < up ∨ (down = up ∧ lower % 2 = 0) then some ⟨lower, exponent⟩
    else some ⟨upper, exponent⟩

/-- The first grid with a hit, from the given exponent down. -/
def search (x : Binary64) : Nat → Int → Shortest
  | 0, exponent => ⟨roundAt x.numerator x.denominator exponent, exponent⟩
  | n + 1, exponent => (onGrid? x exponent).getD (search x n (exponent - 1))

/-- The shortest decimal of a finite double other than zero. -/
def ofBinary64 (x : Binary64) : Shortest :=
  search x 17 (leadingExponent x.numerator x.denominator)

end Shortest

end RollingBall.Decimal
