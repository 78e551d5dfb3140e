import RollingBall.Formula.Operator

/-!
# Chains of operators

A chain `a + b * c - …` is joined with two stacks. An operator that comes in first makes room: the
operators on the stack that bind at least as tight are joined to their operands. So equal operators
group to the left, and a tighter one is joined before a looser one.

## Main definitions

* `Stacks.mergeTop`: joins the two topmost operands with the topmost operator.
* `Stacks.push`: takes in the next operator and operand.
* `Chain.join?`: the whole chain as one operand.
-/

namespace RollingBall

/-- Operands joined by operators, in the order of the text: a first operand, and each operator with
the operand after it. -/
structure Chain (ρ : Type) where
  first : ρ
  links : List (BinaryOp × ρ)

/-- The operands and operators that wait to be joined, topmost first. -/
structure Stacks (ρ : Type) where
  operands : List ρ
  operators : List BinaryOp

variable {ρ : Type}

namespace Stacks

/-- Joins the two topmost operands with the topmost operator. An operator with fewer operands would
be dropped with them. -/
def mergeTop (join : BinaryOp → ρ → ρ → ρ) (s : Stacks ρ) : Stacks ρ :=
  match s.operators with
  | [] => s
  | op :: operators =>
    match s.operands with
    | rhs :: lhs :: operands => ⟨join op lhs rhs :: operands, operators⟩
    | _ => ⟨[], operators⟩

theorem operators_mergeTop (join : BinaryOp → ρ → ρ → ρ) (s : Stacks ρ) :
    (s.mergeTop join).operators = s.operators.tail := by
  unfold mergeTop
  split
  · simp_all
  · split <;> simp_all

@[simp] theorem mergeTop_nil (join : BinaryOp → ρ → ρ → ρ) (operands : List ρ) :
    mergeTop join ⟨operands, []⟩ = ⟨operands, []⟩ := rfl

@[simp] theorem mergeTop_cons (join : BinaryOp → ρ → ρ → ρ) (op : BinaryOp) (lhs rhs : ρ)
    (operands : List ρ) (operators : List BinaryOp) :
    mergeTop join ⟨rhs :: lhs :: operands, op :: operators⟩ =
      ⟨join op lhs rhs :: operands, operators⟩ := rfl

/-- Joins what binds at least as tight as the incoming operator. -/
def makeRoom (join : BinaryOp → ρ → ρ → ρ) (op : BinaryOp) (s : Stacks ρ) : Stacks ρ :=
  match _h : s.operators with
  | [] => s
  | top :: _ =>
    if op.precedence ≤ top.precedence then makeRoom join op (s.mergeTop join) else s
termination_by s.operators.length
decreasing_by simp [operators_mergeTop, *]

@[simp] theorem makeRoom_nil (join : BinaryOp → ρ → ρ → ρ) (op : BinaryOp) (operands : List ρ) :
    makeRoom join op ⟨operands, []⟩ = ⟨operands, []⟩ := by
  rw [makeRoom]

theorem makeRoom_cons (join : BinaryOp → ρ → ρ → ρ) (op top : BinaryOp) (operands : List ρ)
    (operators : List BinaryOp) :
    makeRoom join op ⟨operands, top :: operators⟩ =
      if op.precedence ≤ top.precedence then
        makeRoom join op (mergeTop join ⟨operands, top :: operators⟩)
      else ⟨operands, top :: operators⟩ := by
  rw [makeRoom]

/-- Takes in the next operator and the operand after it. -/
def push (join : BinaryOp → ρ → ρ → ρ) (s : Stacks ρ) (link : BinaryOp × ρ) : Stacks ρ :=
  let s := s.makeRoom join link.1
  ⟨link.2 :: s.operands, link.1 :: s.operators⟩

/-- Joins until no operator waits. -/
def mergeAll (join : BinaryOp → ρ → ρ → ρ) (s : Stacks ρ) : Stacks ρ :=
  match _h : s.operators with
  | [] => s
  | _ :: _ => mergeAll join (s.mergeTop join)
termination_by s.operators.length
decreasing_by simp [operators_mergeTop, *]

@[simp] theorem mergeAll_nil (join : BinaryOp → ρ → ρ → ρ) (operands : List ρ) :
    mergeAll join ⟨operands, []⟩ = ⟨operands, []⟩ := by
  rw [mergeAll]

theorem mergeAll_cons (join : BinaryOp → ρ → ρ → ρ) (op : BinaryOp) (operands : List ρ)
    (operators : List BinaryOp) :
    mergeAll join ⟨operands, op :: operators⟩ =
      mergeAll join (mergeTop join ⟨operands, op :: operators⟩) := by
  rw [mergeAll]

end Stacks

/-- The chain joined to one operand. -/
def Chain.join? (join : BinaryOp → ρ → ρ → ρ) (chain : Chain ρ) : Option ρ :=
  let s := chain.links.foldl (Stacks.push join) ⟨[chain.first], []⟩
  (s.mergeAll join).operands.head?

end RollingBall
