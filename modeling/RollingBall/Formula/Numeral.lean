import RollingBall.Decimal.Digits
import RollingBall.Scalar

/-!
# Numerals

A numeral is a run of decimal digits with at most one point and at least one digit; it has neither
sign nor exponent. `Numeral.scan` cuts the longest run that could be one off a text, and
`Numeral.read?` is the number it stands for.
-/

namespace RollingBall.Numeral

/-- The longest run of digits with at most one point, and the text after it. -/
def scan (s : List Char) : List Char × List Char :=
  let whole := s.takeWhile Char.isDigit
  match s.dropWhile Char.isDigit with
  | '.' :: tail =>
    (whole ++ '.' :: tail.takeWhile Char.isDigit, tail.dropWhile Char.isDigit)
  | rest => (whole, rest)

theorem scan_append (s : List Char) : (scan s).1 ++ (scan s).2 = s := by
  have h : s.takeWhile Char.isDigit ++ s.dropWhile Char.isDigit = s :=
    List.takeWhile_append_dropWhile
  unfold scan
  split
  · rename_i tail htail
    have h' : tail.takeWhile Char.isDigit ++ tail.dropWhile Char.isDigit = tail :=
      List.takeWhile_append_dropWhile
    rw [htail] at h
    simp only [List.append_assoc, List.cons_append, h', h]
  · exact h

theorem length_scan_lt {s : List Char} (h : (scan s).1.any Char.isDigit) :
    (scan s).2.length < s.length := by
  have hlen := congrArg List.length (scan_append s)
  rw [List.length_append] at hlen
  cases hscan : (scan s).1 with
  | nil => simp [hscan] at h
  | cons c cs =>
    rw [hscan, List.length_cons] at hlen
    omega

/-- The number a text stands for, if it is a numeral. -/
def read? {α : Type} [Scalar α] (text : List Char) : Option α :=
  let whole := text.takeWhile Char.isDigit
  match text.dropWhile Char.isDigit with
  | [] =>
    if whole.isEmpty then none
    else some (OfScientific.ofScientific (Decimal.ofDigits whole) true 0)
  | '.' :: fraction =>
    if fraction.all Char.isDigit && !(whole ++ fraction).isEmpty then
      some (OfScientific.ofScientific (Decimal.ofDigits (whole ++ fraction)) true fraction.length)
    else none
  | _ => none

end RollingBall.Numeral
