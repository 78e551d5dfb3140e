import RollingBall.Proofs.Reading.Merging

/-!
# Nothing of a chain is lost

An operator that lacks an operand would be dropped with what is left of its operands. It never comes
to that: the operands that wait are made of the parts of the chain between the operators that wait
(`Stacks.Hold`), which a merge keeps, since it joins two neighbouring parts, and a push keeps, since
it adds a part. When no operator waits any more, one operand waits, and it is made of the whole
chain (`Chain.exists_join?_makesUp`).

## Main definitions

* `Chain.MakesUp`: a value is made of all operands and operators of a chain, in their order.
* `Stacks.Hold`: two stacks hold all that was taken in.
-/

namespace RollingBall

variable {α ρ : Type} {join : BinaryOp → ρ → ρ → ρ}

namespace Chain

/-- A chain, an operator and a second chain. -/
def append (c : Chain ρ) (op : BinaryOp) (c' : Chain ρ) : Chain ρ :=
  ⟨c.first, c.links ++ (op, c'.first) :: c'.links⟩

theorem append_assoc (c c' c'' : Chain ρ) (op op' : BinaryOp) :
    (c.append op c').append op' c'' = c.append op (c'.append op' c'') := by
  simp only [append, List.append_assoc, List.cons_append]

/-- All operands and operators of the chain, in their order, are joined to the value. -/
inductive MakesUp (join : BinaryOp → ρ → ρ → ρ) : Chain ρ → ρ → Prop where
  | single (operand : ρ) : MakesUp join ⟨operand, []⟩ operand
  | joined {c c' : Chain ρ} {op : BinaryOp} {lhs rhs : ρ} : MakesUp join c lhs →
      MakesUp join c' rhs → MakesUp join (c.append op c') (join op lhs rhs)

end Chain

namespace Stacks

/-- The operands that wait are made of the parts of the chain between the operators that wait. -/
inductive Hold (join : BinaryOp → ρ → ρ → ρ) : Chain ρ → Stacks ρ → Prop where
  | bottom {c : Chain ρ} {value : ρ} : c.MakesUp join value → Hold join c ⟨[value], []⟩
  | top {c c' : Chain ρ} {op : BinaryOp} {value : ρ} {operands : List ρ}
      {operators : List BinaryOp} : Hold join c ⟨operands, operators⟩ → c'.MakesUp join value →
      Hold join (c.append op c') ⟨value :: operands, op :: operators⟩

theorem operators_mergeAll (join : BinaryOp → ρ → ρ → ρ) (s : Stacks ρ) :
    (s.mergeAll join).operators = [] := by
  fun_induction Stacks.mergeAll join s with
  | case1 s h => exact h
  | case2 s _ _ _ ih => exact ih

namespace Hold

variable {c : Chain ρ} {s : Stacks ρ}

/-- Two neighbouring parts become one. -/
theorem mergeTop (h : Hold join c s) : Hold join c (s.mergeTop join) := by
  cases h with
  | bottom hvalue => exact .bottom hvalue
  | top hbelow hrhs =>
    cases hbelow with
    | bottom hlhs => exact .bottom (hlhs.joined hrhs)
    | top hbelow hlhs =>
      rw [Chain.append_assoc]
      exact .top hbelow (hlhs.joined hrhs)

theorem makeRoom (h : Hold join c s) (op : BinaryOp) : Hold join c (s.makeRoom join op) := by
  fun_induction Stacks.makeRoom join op s with
  | case1 => exact h
  | case2 _ _ _ _ _ ih => exact ih h.mergeTop
  | case3 => exact h

theorem mergeAll (h : Hold join c s) : Hold join c (s.mergeAll join) := by
  fun_induction Stacks.mergeAll join s with
  | case1 => exact h
  | case2 _ _ _ _ ih => exact ih h.mergeTop

theorem push (h : Hold join c s) (link : BinaryOp × ρ) :
    Hold join (c.append link.1 ⟨link.2, []⟩) (s.push join link) :=
  .top (h.makeRoom link.1) (.single link.2)

theorem foldl_push (h : Hold join c s) (links : List (BinaryOp × ρ)) :
    Hold join ⟨c.first, c.links ++ links⟩ (links.foldl (Stacks.push join) s) := by
  induction links generalizing c s with
  | nil =>
    rw [List.append_nil]
    exact h
  | cons link links ih =>
    have hrest := ih (h.push link)
    rwa [Chain.append, List.append_assoc] at hrest

/-- The last operand is made of the whole chain. -/
theorem exists_makesUp (h : Hold join c s) (hnone : s.operators = []) :
    ∃ value, s.operands = [value] ∧ c.MakesUp join value := by
  cases h with
  | bottom hvalue => exact ⟨_, rfl, hvalue⟩
  | top hbelow hvalue => contradiction

end Hold

end Stacks

/-- Every chain is joined, and to a value that is made of all of it. -/
theorem Chain.exists_join?_makesUp (join : BinaryOp → ρ → ρ → ρ) (c : Chain ρ) :
    ∃ value, c.join? join = some value ∧ c.MakesUp join value := by
  have hfirst : Stacks.Hold join ⟨c.first, []⟩ ⟨[c.first], []⟩ := .bottom (.single c.first)
  obtain ⟨value, hvalue, hmade⟩ :=
    (hfirst.foldl_push c.links).mergeAll.exists_makesUp (Stacks.operators_mergeAll join _)
  exact ⟨value, by rw [Chain.join?, hvalue]; rfl, hmade⟩

/-- The value of a formula is made of the whole chain that was read. -/
theorem Parser.makesUp_of_expression {B : Builder α ρ} {p : Parser ρ} {s r : List Char} {value : ρ}
    (h : (expression B p).Yields s value r) :
    ∃ c, (chain p).Yields s c r ∧ c.MakesUp B.binary value := by
  obtain ⟨hlt, h⟩ := h
  unfold expression at h
  split at h
  · contradiction
  · rename_i parsed hchain
    obtain ⟨value', hvalue, hmade⟩ := parsed.value.exists_join?_makesUp B.binary
    rw [hvalue] at h
    obtain ⟨⟩ := h
    exact ⟨parsed.value, yields_of_eq_ok hchain, hmade⟩

end RollingBall
