import RollingBall.Formula.Basic

/-!
# Folding constants

A node whose operands are constant is replaced by its value when it is built. `Builder` is a way of
building nodes, which the reader of formulas takes as a parameter: `Builder.folding` folds and
`Builder.plain` keeps every node. `Formula.fold` rebuilds a tree with the folding nodes.
-/

namespace RollingBall

/-- How the nodes of a formula over the numbers `α` are built. -/
structure Builder (α ρ : Type) where
  constant : α → ρ
  var : Variable → ρ
  negate : ρ → ρ
  binary : BinaryOp → ρ → ρ → ρ
  call : Builtin → List ρ → ρ

variable {α : Type}

namespace Formula

variable [Scalar α]

/-- The opposite of a formula, computed if the formula is constant. -/
def foldNegate (operand : Formula α) : Formula α :=
  match operand.constant? with
  | some a => constant (-a)
  | none => negate operand

/-- Two formulas joined by an operator, computed if both are constant. -/
def foldBinary (op : BinaryOp) (lhs rhs : Formula α) : Formula α :=
  match lhs.constant?, rhs.constant? with
  | some a, some b => constant (op.apply a b)
  | _, _ => binary op lhs rhs

/-- A call, computed if every argument is constant. -/
def foldCall (fn : Builtin) (args : List (Formula α)) : Formula α :=
  match constants? args with
  | some values => constant (fn.apply values)
  | none => call fn args

mutual

/-- The formula rebuilt from the leaves with the folding nodes. -/
def fold : Formula α → Formula α
  | constant value => constant value
  | var v => var v
  | negate operand => foldNegate operand.fold
  | binary op lhs rhs => foldBinary op lhs.fold rhs.fold
  | call fn args => foldCall fn (foldAll args)

/-- The arguments rebuilt, in order. -/
def foldAll : List (Formula α) → List (Formula α)
  | [] => []
  | arg :: args => arg.fold :: foldAll args

end

theorem foldAll_eq_map (args : List (Formula α)) : foldAll args = args.map fold := by
  induction args with
  | nil => rfl
  | cons arg args ih => rw [foldAll, ih, List.map_cons]

end Formula

namespace Builder

/-- Every node is kept. -/
def plain : Builder α (Formula α) where
  constant := .constant
  var := .var
  negate := .negate
  binary := .binary
  call := .call

/-- Constant nodes are folded. -/
def folding [Scalar α] : Builder α (Formula α) where
  constant := .constant
  var := .var
  negate := .foldNegate
  binary := .foldBinary
  call := .foldCall

end Builder

end RollingBall
