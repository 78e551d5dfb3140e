import RollingBall.Scalar

/-!
# Variables, operators and relations

The symbols of formulas and conditions and what each computes.
-/

namespace RollingBall

variable {α : Type}

/-- What a formula may read: the horizontal coordinate `x`, and the seconds `t` since the round
began. -/
inductive Variable where
  | x
  | t
deriving DecidableEq, Repr

/-- The arithmetic operators. -/
inductive BinaryOp where
  | add
  | sub
  | mul
  | div
  | pow
deriving DecidableEq, Repr

namespace BinaryOp

/-- The operator with the higher number binds tighter. -/
def precedence : BinaryOp → Nat
  | add | sub => 1
  | mul | div => 2
  | pow => 3

/-- The value of the operator at two numbers. -/
def apply [Scalar α] : BinaryOp → α → α → α
  | add, a, b => a + b
  | sub, a, b => a - b
  | mul, a, b => a * b
  | div, a, b => a / b
  | pow, a, b => Scalar.pow a b

end BinaryOp

/-- The relations a condition compares with. All bind equally. -/
inductive Relation where
  | lt
  | le
  | gt
  | ge
  | eq
  | ne
deriving DecidableEq, Repr

/-- Two numbers stand in the relation. An undefined one differs from all and is related no other
way. -/
def Relation.holds [Scalar α] : Relation → α → α → Bool
  | lt, a, b => decide (a < b)
  | le, a, b => decide (a ≤ b)
  | gt, a, b => decide (b < a)
  | ge, a, b => decide (b ≤ a)
  | eq, a, b => a == b
  | ne, a, b => !(a == b)

end RollingBall
