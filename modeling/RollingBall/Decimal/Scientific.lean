import RollingBall.Binary64
import RollingBall.Decimal.Rounding

/-!
# Scientific and fixed notation

A finite double is an exact fraction, which is rounded once to the digits that are asked for, a half
going to the even neighbour.
-/

namespace RollingBall

namespace Decimal

/-- The digits with a point after a number of them. -/
def withPoint (whole : Nat) (ds : List Char) : List Char :=
  if ds.length ≤ whole then ds else ds.take whole ++ '.' :: ds.drop whole

/-- A double with one digit before the point, the given number after it, and an exponent. -/
def scientific (places : Nat) (x : Float) : String :=
  if x.isNaN then "nan"
  else
    let sign := if Binary64.isNegative x then "-" else ""
    if x.isInf then sign ++ "inf"
    else
      let parts := Binary64.decode x
      if parts.mantissa = 0 then sign ++ "0"
      else
        let exponent := leadingExponent parts.numerator parts.denominator
        let rounded := roundAt parts.numerator parts.denominator (exponent - places)
        -- Rounding may carry into one digit more, all zeros after the first.
        let (rounded, exponent) :=
          if rounded = Nat.pow 10 (places + 1) then (Nat.pow 10 places, exponent + 1)
          else (rounded, exponent)
        sign ++ String.ofList (withPoint 1 (digits rounded)) ++ "e" ++ toString exponent

/-- Digits with zeros in front, to a given number. -/
def padded (width : Nat) (ds : List Char) : List Char :=
  List.replicate (width - ds.length) '0' ++ ds

/-- A double with the given number of digits after the point. -/
def fixed (places : Nat) (x : Float) : String :=
  if x.isNaN then "NaN"
  else
    let sign := if Binary64.isNegative x then "-" else ""
    if x.isInf then sign ++ "inf"
    else
      let parts := Binary64.decode x
      let ds := padded (places + 1)
        (digits (roundAt parts.numerator parts.denominator (-places)))
      sign ++ String.ofList (withPoint (ds.length - places) ds)

end Decimal

end RollingBall
