import RollingBall.Formula.Chain

/-!
# Chains by precedence

What a chain of sums and products means, said without stacks: each maximal run of products and
quotients is joined from the left to a term (`Chain.terms`), and then the terms are joined from the
left (`Chain.byPrecedence`). The two stacks compute the same (`Chain.join?_eq`): a product on top of
the stacks is as good as joined (`Stacks.run_product`), so at most one sum ever waits
(`Stacks.run_sum`).
-/

namespace RollingBall

variable {ρ : Type}

namespace BinaryOp

/-- The operators that stand in chains: sums and products, not powers. -/
def IsLink (op : BinaryOp) : Prop := op.precedence ≤ 2

theorem precedence_eq_one {op : BinaryOp} (h : op.IsLink) (hne : op.precedence ≠ 2) :
    op.precedence = 1 := by
  cases op <;> simp_all [IsLink, precedence]

end BinaryOp

namespace Chain

/-- The terms of a chain, each maximal run of products and quotients joined from the left. `term`
is what has been joined of the first run. -/
def terms (join : BinaryOp → ρ → ρ → ρ) : (term : ρ) → List (BinaryOp × ρ) → Chain ρ
  | term, [] => ⟨term, []⟩
  | term, (op, operand) :: links =>
    if op.precedence = 2 then terms join (join op term operand) links
    else
      let rest := terms join operand links
      ⟨term, (op, rest.first) :: rest.links⟩

/-- The operands of a chain joined from the left, whatever the operators. -/
def fromLeft (join : BinaryOp → ρ → ρ → ρ) (c : Chain ρ) : ρ :=
  c.links.foldl (fun sum link => join link.1 sum link.2) c.first

/-- The value of a chain: first the products and quotients, then the sums and differences, each
from the left. -/
def byPrecedence (join : BinaryOp → ρ → ρ → ρ) (c : Chain ρ) : ρ :=
  (terms join c.first c.links).fromLeft join

end Chain

namespace Stacks

variable {join : BinaryOp → ρ → ρ → ρ}

/-- What comes of the stacks when they take in the links and are then joined. -/
def run (join : BinaryOp → ρ → ρ → ρ) (s : Stacks ρ) (links : List (BinaryOp × ρ)) : Option ρ :=
  ((links.foldl (push join) s).mergeAll join).operands.head?

theorem run_nil (s : Stacks ρ) : run join s [] = (s.mergeAll join).operands.head? := rfl

theorem run_cons (s : Stacks ρ) (link : BinaryOp × ρ) (links : List (BinaryOp × ρ)) :
    run join s (link :: links) = run join (s.push join link) links := rfl

/-- An operator that binds tighter than the topmost one goes on top of it. -/
theorem push_tighter {op top : BinaryOp} (h : ¬ op.precedence ≤ top.precedence) (operand : ρ)
    (operands : List ρ) (operators : List BinaryOp) :
    push join ⟨operands, top :: operators⟩ (op, operand) =
      ⟨operand :: operands, op :: top :: operators⟩ := by
  rw [push, makeRoom_cons, if_neg h]

/-- An operator that binds no tighter than the topmost one lets that one join first. -/
theorem push_looser {op top : BinaryOp} (h : op.precedence ≤ top.precedence) (operand lhs rhs : ρ)
    (operands : List ρ) (operators : List BinaryOp) :
    push join ⟨rhs :: lhs :: operands, top :: operators⟩ (op, operand) =
      push join ⟨join top lhs rhs :: operands, operators⟩ (op, operand) := by
  rw [push, push, makeRoom_cons, if_pos h, mergeTop_cons]

/-- A product on top of the stacks is as good as joined: whatever comes joins it first. -/
theorem run_product {op : BinaryOp} (hop : op.precedence = 2) (lhs rhs : ρ) (operands : List ρ)
    (operators : List BinaryOp) {links : List (BinaryOp × ρ)} (h : ∀ link ∈ links, link.1.IsLink) :
    run join ⟨rhs :: lhs :: operands, op :: operators⟩ links =
      run join ⟨join op lhs rhs :: operands, operators⟩ links := by
  cases links with
  | nil => rw [run_nil, run_nil, mergeAll_cons, mergeTop_cons]
  | cons link links =>
    have hlink : link.1.precedence ≤ op.precedence := hop ▸ h link List.mem_cons_self
    rw [run_cons, run_cons, push_looser hlink]

/-- While a sum waits, its right side gathers products and the next sum joins it. -/
theorem run_sum {op : BinaryOp} (hop : op.precedence = 1) (lhs rhs : ρ)
    {links : List (BinaryOp × ρ)} (h : ∀ link ∈ links, link.1.IsLink) :
    run join ⟨[rhs, lhs], [op]⟩ links =
      some (Chain.fromLeft join ⟨lhs, (op, (Chain.terms join rhs links).first) ::
        (Chain.terms join rhs links).links⟩) := by
  induction links generalizing op lhs rhs with
  | nil => rw [run_nil, mergeAll_cons, mergeTop_cons, mergeAll_nil]; rfl
  | cons link links ih =>
    obtain ⟨next, operand⟩ := link
    have hnext : next.IsLink := h (next, operand) List.mem_cons_self
    have hlinks : ∀ link ∈ links, link.1.IsLink := fun link hl => h link (List.mem_cons_of_mem _ hl)
    rw [run_cons, Chain.terms]
    by_cases hproduct : next.precedence = 2
    · rw [push_tighter (by omega), run_product hproduct _ _ _ _ hlinks, ih hop _ _ hlinks,
        if_pos hproduct]
    · have hsum := BinaryOp.precedence_eq_one hnext hproduct
      rw [push_looser (by omega), push, makeRoom_nil, ih hsum _ _ hlinks, if_neg hproduct]
      rfl

/-- From a single operand, the stacks compute the terms and then their sum. -/
theorem run_single (operand : ρ) {links : List (BinaryOp × ρ)}
    (h : ∀ link ∈ links, link.1.IsLink) :
    run join ⟨[operand], []⟩ links = some (Chain.byPrecedence join ⟨operand, links⟩) := by
  induction links generalizing operand with
  | nil => rw [run_nil, mergeAll_nil]; rfl
  | cons link links ih =>
    obtain ⟨op, next⟩ := link
    have hop : op.IsLink := h (op, next) List.mem_cons_self
    have hlinks : ∀ link ∈ links, link.1.IsLink := fun link hl => h link (List.mem_cons_of_mem _ hl)
    rw [run_cons, push, makeRoom_nil, Chain.byPrecedence, Chain.terms]
    by_cases hproduct : op.precedence = 2
    · rw [run_product hproduct _ _ _ _ hlinks, ih _ hlinks, if_pos hproduct, Chain.byPrecedence]
    · rw [run_sum (BinaryOp.precedence_eq_one hop hproduct) _ _ hlinks, if_neg hproduct]

end Stacks

/-- **Precedence.** The two stacks join a chain of sums and products by precedence, and never fail
to. -/
theorem Chain.join?_eq (join : BinaryOp → ρ → ρ → ρ) (c : Chain ρ)
    (h : ∀ link ∈ c.links, link.1.IsLink) :
    c.join? join = some (c.byPrecedence join) :=
  Stacks.run_single c.first h

end RollingBall
