import RollingBall.Formula.Operator
import RollingBall.Formula.Builtin

/-!
# Formulas

A formula is a tree over the variables `x` and `t`. `Formula.eval` is its value in a context, and
`Formula.constant?` its value without one, if it reads no variable.
-/

namespace RollingBall

variable {α : Type}

/-- What the variables stand for. -/
structure Context (α : Type) where
  /-- The seconds since the round began. -/
  t : α
  /-- The horizontal coordinate at which a formula is read, not that of the ball. -/
  x : α

namespace Context

/-- The context of a moment, at coordinate zero. -/
def atTime [Scalar α] (t : α) : Context α := ⟨t, 0.0⟩

/-- The value of a variable. -/
def lookup (ctx : Context α) : Variable → α
  | .x => ctx.x
  | .t => ctx.t

end Context

/-- A numeric expression. A call may carry any number of arguments. -/
inductive Formula (α : Type) where
  | constant (value : α)
  | var (v : Variable)
  | negate (operand : Formula α)
  | binary (op : BinaryOp) (lhs rhs : Formula α)
  | call (fn : Builtin) (args : List (Formula α))

namespace Formula

variable [Scalar α]

mutual

/-- The value of a formula in a context. -/
def eval (ctx : Context α) : Formula α → α
  | constant value => value
  | var v => ctx.lookup v
  | negate operand => -operand.eval ctx
  | binary op lhs rhs => op.apply (lhs.eval ctx) (rhs.eval ctx)
  | call fn [arg] => fn.apply [arg.eval ctx]
  | call fn [first, second] => fn.apply [first.eval ctx, second.eval ctx]
  | call fn args => fn.apply (evalAll ctx args)

/-- The values of the arguments, in order. -/
def evalAll (ctx : Context α) : List (Formula α) → List α
  | [] => []
  | arg :: args => arg.eval ctx :: evalAll ctx args

end

theorem evalAll_eq_map (ctx : Context α) (args : List (Formula α)) :
    evalAll ctx args = args.map (eval ctx) := by
  induction args with
  | nil => rw [evalAll, List.map_nil]
  | cons arg args ih => rw [evalAll, ih, List.map_cons]

/-- However many arguments a call has, it is the function at their values. -/
theorem eval_call (ctx : Context α) (fn : Builtin) (args : List (Formula α)) :
    (call fn args).eval ctx = fn.apply (args.map (eval ctx)) := by
  match args with
  | [] => rw [eval, evalAll, List.map_nil] <;> simp
  | [arg] => rw [eval, List.map_cons, List.map_nil]
  | [first, second] => rw [eval, List.map_cons, List.map_cons, List.map_nil]
  | first :: second :: third :: args => rw [eval, evalAll_eq_map] <;> simp

mutual

/-- The value of a formula that reads no variable. -/
def constant? : Formula α → Option α
  | constant value => some value
  | var _ => none
  | negate operand => operand.constant?.map (-·)
  | binary op lhs rhs =>
    match lhs.constant?, rhs.constant? with
    | some a, some b => some (op.apply a b)
    | _, _ => none
  | call fn args => (constants? args).map fn.apply

/-- The values of the arguments, if none reads a variable. -/
def constants? : List (Formula α) → Option (List α)
  | [] => some []
  | arg :: args =>
    match arg.constant?, constants? args with
    | some a, some as => some (a :: as)
    | _, _ => none

end

end Formula

end RollingBall
