/-!
# Decimal digits

Naturals and their decimal digits, most significant first. Writing a number and reading its digits
gives it back (`ofDigits_digits`).
-/

namespace RollingBall.Decimal

/-- The decimal digits of a number. -/
def digits (n : Nat) : List Char := Nat.toDigits 10 n

/-- The number that decimal digits write. -/
def ofDigits (text : List Char) : Nat := Nat.ofDigitChars 10 text 0

theorem ofDigits_digits (n : Nat) : ofDigits (digits n) = n := Nat.ofDigitChars_ten_toDigits

end RollingBall.Decimal
