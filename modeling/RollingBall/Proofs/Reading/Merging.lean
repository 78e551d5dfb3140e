import RollingBall.Binary64
import RollingBall.Proofs.Folding.Building
import RollingBall.Proofs.Reading.Readers

/-!
# The two stacks at every turn

While a chain is joined, its stacks are in order (`Stacks.InOrder`): one operand more waits than
there are operators, so that no operator ever lacks an operand, and each operator binds tighter than
the one below it. This holds wherever one of the loops begins a turn (`Chain.Turn`), since a merge
takes an operator with its two operands, and an operator is pushed only when what is below it binds
less tight. Each turn leaves what comes of the chain as it was, which is the chain joined by
precedence (`stacks_join_by_precedence`).

## Main definitions

* `Stacks.InOrder`: the stacks fit one another, and the tighter operators are on top.
* `Chain.Turn`: the links left and the stacks, where a loop begins a turn.
-/

namespace RollingBall

variable {α ρ : Type} {join : BinaryOp → ρ → ρ → ρ}

/-! ## Order -/

/-- There is an operand on either side of each operator, and the operators bind tighter from the
bottom to the top. -/
structure Stacks.InOrder (s : Stacks ρ) : Prop where
  length_operands : s.operands.length = s.operators.length + 1
  tighter : s.operators.Pairwise fun upper lower => lower.precedence < upper.precedence

namespace Stacks.InOrder

variable {s : Stacks ρ} {operands : List ρ} {top : BinaryOp} {operators : List BinaryOp}

theorem single (operand : ρ) : InOrder ⟨[operand], []⟩ := ⟨rfl, .nil⟩

/-- An operator that waits has its two operands. -/
theorem exists_operands (h : InOrder ⟨operands, top :: operators⟩) :
    ∃ rhs lhs rest, operands = rhs :: lhs :: rest := by
  match operands, h.length_operands with
  | rhs :: lhs :: rest, _ => exact ⟨rhs, lhs, rest, rfl⟩

theorem mergeTop (h : s.InOrder) (hne : s.operators ≠ []) : (s.mergeTop join).InOrder := by
  obtain ⟨operands, operators⟩ := s
  obtain ⟨top, operators, rfl⟩ := List.exists_cons_of_ne_nil hne
  obtain ⟨rhs, lhs, rest, rfl⟩ := h.exists_operands
  have hlength := h.length_operands
  simp only [List.length_cons] at hlength
  rw [mergeTop_cons]
  refine ⟨?_, (List.pairwise_cons.mp h.tighter).2⟩
  simp only [List.length_cons]
  omega

/-- If the topmost operator binds less tight than another, so do all below it. -/
theorem cons (h : s.InOrder) {op : BinaryOp} (operand : ρ)
    (hop : ∀ top ∈ s.operators.head?, top.precedence < op.precedence) :
    InOrder ⟨operand :: s.operands, op :: s.operators⟩ := by
  obtain ⟨operands, operators⟩ := s
  refine ⟨congrArg Nat.succ h.length_operands, List.pairwise_cons.mpr ⟨?_, h.tighter⟩⟩
  cases operators with
  | nil => exact List.forall_mem_nil _
  | cons top operators =>
    have htop : top.precedence < op.precedence := hop top rfl
    have hbelow := (List.pairwise_cons.mp h.tighter).1
    exact List.forall_mem_cons.mpr ⟨htop, fun lower hl => Nat.lt_trans (hbelow lower hl) htop⟩

end Stacks.InOrder

/-! ## Turns -/

/-- Where the loops over a chain begin a turn: with these links left, the first of which is being
taken in, and these stacks. -/
inductive Chain.Turn (join : BinaryOp → ρ → ρ → ρ) (c : Chain ρ) :
    List (BinaryOp × ρ) → Stacks ρ → Prop where
  | start : Turn join c c.links ⟨[c.first], []⟩
  | merge {op top : BinaryOp} {next : ρ} {links : List (BinaryOp × ρ)} {s : Stacks ρ} :
      Turn join c ((op, next) :: links) s → top ∈ s.operators.head? →
      op.precedence ≤ top.precedence → Turn join c ((op, next) :: links) (s.mergeTop join)
  | push {op : BinaryOp} {next : ρ} {links : List (BinaryOp × ρ)} {s : Stacks ρ} :
      Turn join c ((op, next) :: links) s →
      (∀ top ∈ s.operators.head?, top.precedence < op.precedence) →
      Turn join c links ⟨next :: s.operands, op :: s.operators⟩
  | finish {s : Stacks ρ} :
      Turn join c [] s → s.operators ≠ [] → Turn join c [] (s.mergeTop join)

namespace Stacks

/-- An operator that binds tighter than all on the stack needs no room. -/
theorem makeRoom_of_tighter {s : Stacks ρ} {op : BinaryOp}
    (h : ∀ top ∈ s.operators.head?, top.precedence < op.precedence) : s.makeRoom join op = s := by
  obtain ⟨operands, operators⟩ := s
  cases operators with
  | nil => exact makeRoom_nil join op operands
  | cons top operators =>
    have htop : top.precedence < op.precedence := h top rfl
    rw [makeRoom_cons, if_neg (Nat.not_le.mpr htop)]

theorem makeRoom_of_looser {s : Stacks ρ} {op top : BinaryOp} (htop : top ∈ s.operators.head?)
    (h : op.precedence ≤ top.precedence) :
    s.makeRoom join op = (s.mergeTop join).makeRoom join op := by
  obtain ⟨operands, operators⟩ := s
  cases operators with
  | nil => contradiction
  | cons head operators =>
    obtain rfl : head = top := Option.some.inj htop
    rw [makeRoom_cons, if_pos h]

end Stacks

namespace Stacks.InOrder

variable {s : Stacks ρ}

/-- What is left below an operator for which room was made binds less tight. -/
theorem makeRoom (h : s.InOrder) (op : BinaryOp) : (s.makeRoom join op).InOrder ∧
    ∀ top ∈ (s.makeRoom join op).operators.head?, top.precedence < op.precedence := by
  obtain ⟨operands, operators⟩ := s
  induction operators generalizing operands with
  | nil =>
    rw [makeRoom_nil]
    exact ⟨h, by simp⟩
  | cons top operators ih =>
    by_cases hle : op.precedence ≤ top.precedence
    · obtain ⟨rhs, lhs, rest, rfl⟩ := h.exists_operands
      rw [makeRoom_of_looser rfl hle]
      exact ih _ (h.mergeTop (List.cons_ne_nil _ _))
    · have htop : ∀ t ∈ (top :: operators).head?, t.precedence < op.precedence := by
        simpa using hle
      rw [makeRoom_of_tighter htop]
      exact ⟨h, htop⟩

theorem push (h : s.InOrder) (link : BinaryOp × ρ) : (s.push join link).InOrder :=
  (h.makeRoom link.1).1.cons link.2 (h.makeRoom link.1).2

/-- When no operator waits any more, one operand is left. -/
theorem mergeAll (h : s.InOrder) : ∃ value, s.mergeAll join = ⟨[value], []⟩ := by
  obtain ⟨operands, operators⟩ := s
  induction operators generalizing operands with
  | nil =>
    obtain ⟨value, rfl⟩ := List.length_eq_one_iff.mp h.length_operands
    exact ⟨value, mergeAll_nil join [value]⟩
  | cons top operators ih =>
    obtain ⟨rhs, lhs, rest, rfl⟩ := h.exists_operands
    rw [mergeAll_cons]
    exact ih _ (h.mergeTop (List.cons_ne_nil _ _))

end Stacks.InOrder

namespace Chain.Turn

variable {c : Chain ρ} {links : List (BinaryOp × ρ)} {s : Stacks ρ}

theorem inOrder (h : c.Turn join links s) : s.InOrder := by
  induction h with
  | start => exact .single c.first
  | merge _ htop _ ih => exact ih.mergeTop (List.ne_nil_of_mem (List.mem_of_mem_head? htop))
  | push _ htop ih => exact ih.cons _ htop
  | finish _ hne ih => exact ih.mergeTop hne

/-- What comes of the chain is the same after each turn. -/
theorem run_eq (h : c.Turn join links s) : s.run join links = c.join? join := by
  induction h with
  | start => rfl
  | merge _ htop hle ih =>
    rw [← ih, Stacks.run_cons, Stacks.run_cons, Stacks.push, Stacks.push,
      Stacks.makeRoom_of_looser htop hle]
  | push _ htop ih =>
    rw [← ih, Stacks.run_cons, Stacks.push, Stacks.makeRoom_of_tighter htop]
  | @finish s _ hne ih =>
    obtain ⟨operands, operators⟩ := s
    obtain ⟨top, operators, rfl⟩ := List.exists_cons_of_ne_nil hne
    rw [← ih, Stacks.run_nil, Stacks.run_nil, ← Stacks.mergeAll_cons]

/-- Making room for an operator is a number of turns, after which it is pushed. -/
theorem pushed {link : BinaryOp × ρ} (h : c.Turn join (link :: links) s) :
    c.Turn join links (s.push join link) := by
  obtain ⟨op, next⟩ := link
  obtain ⟨operands, operators⟩ := s
  rw [Stacks.push]
  induction operators generalizing operands with
  | nil =>
    rw [Stacks.makeRoom_nil]
    exact .push h (by simp)
  | cons top operators ih =>
    by_cases hle : op.precedence ≤ top.precedence
    · have hmerged := h.merge rfl hle
      obtain ⟨rhs, lhs, rest, rfl⟩ := h.inOrder.exists_operands
      rw [Stacks.makeRoom_of_looser rfl hle]
      exact ih _ hmerged
    · have htop : ∀ t ∈ (top :: operators).head?, t.precedence < op.precedence := by
        simpa using hle
      rw [Stacks.makeRoom_of_tighter htop]
      exact .push h htop

/-- The outer loop begins a turn after every link it has taken in. -/
theorem foldl_push {taken : List (BinaryOp × ρ)} (h : c.Turn join (taken ++ links) s) :
    c.Turn join links (taken.foldl (Stacks.push join) s) := by
  induction taken generalizing s with
  | nil => exact h
  | cons link taken ih => exact ih h.pushed

end Chain.Turn

/-! ## Reading -/

theorem BinaryOp.isLink_of_mem {op : BinaryOp} (h : op ∈ [BinaryOp.add, .sub, .mul, .div]) :
    op.IsLink := by
  cases op <;> simp_all [BinaryOp.IsLink, BinaryOp.precedence]

/-- The reader of formulas joins the chain it reads by precedence and refuses none. -/
theorem Parser.expression_eq (B : Builder α ρ) (operand : Parser ρ) (s : List Char) :
    expression B operand s =
      (chain operand s).map (Parsed.map (Chain.byPrecedence B.binary)) := by
  unfold expression
  cases hchain : chain operand s with
  | error e => rfl
  | ok parsed =>
    obtain ⟨s', -, hlinks⟩ := chain_yields_iff.mp (yields_of_eq_ok hchain)
    dsimp only
    rw [Chain.join?_eq B.binary parsed.value (isLink_of_links hlinks)]
    rfl

/-- **The two stacks.** A chain of sums and products is joined to what comes of joining each run of
products and quotients from the left and then these terms from the left. Wherever a loop begins a
turn, one operand more waits than there are operators, the operators bind tighter from the bottom to
the top, and the turns that are left give the same; the outer loop begins a turn after each link. So
the reader of formulas joins every chain it reads by precedence. -/
theorem stacks_join_by_precedence (B : Builder α ρ) :
    (∀ c : Chain ρ, (∀ link ∈ c.links, link.1 ∈ [BinaryOp.add, .sub, .mul, .div]) →
      c.join? B.binary = some (c.byPrecedence B.binary)) ∧
    (∀ (c : Chain ρ) (links : List (BinaryOp × ρ)) (s : Stacks ρ), c.Turn B.binary links s →
      s.operands.length = s.operators.length + 1 ∧
      s.operators.Pairwise (fun upper lower => lower.precedence < upper.precedence) ∧
      s.run B.binary links = c.join? B.binary) ∧
    (∀ (first : ρ) (taken links : List (BinaryOp × ρ)),
      Chain.Turn B.binary ⟨first, taken ++ links⟩ links
        (taken.foldl (Stacks.push B.binary) ⟨[first], []⟩)) ∧
    ∀ (operand : Parser ρ) (s : List Char), Parser.expression B operand s =
      (Parser.chain operand s).map (Parsed.map (Chain.byPrecedence B.binary)) := by
  refine ⟨fun c hops => ?_, fun c links s hturn => ?_, fun first taken links => ?_,
    Parser.expression_eq B⟩
  · exact c.join?_eq B.binary fun link hl => BinaryOp.isLink_of_mem (hops link hl)
  · exact ⟨hturn.inOrder.length_operands, hturn.inOrder.tighter, hturn.run_eq⟩
  · exact Chain.Turn.foldl_push .start

/-- In `x - 6 / 2 t + 1` the quotient is computed, then multiplied, and the sums are joined last. -/
theorem stacks_join_quotient_in_sums :
    let chain : Chain (Formula Float) := ⟨.var .x, [(.sub, .constant 6.0), (.div, .constant 2.0),
      (.mul, .var .t), (.add, .constant 1.0)]⟩
    (∀ link ∈ chain.links, link.1 ∈ [BinaryOp.add, .sub, .mul, .div]) ∧
      chain.join? Formula.foldBinary = some (.binary .add
        (.binary .sub (.var .x) (.binary .mul (.constant (6.0 / 2.0)) (.var .t)))
        (.constant 1.0)) := by
  intro chain
  have hops : ∀ link ∈ chain.links, link.1 ∈ [BinaryOp.add, .sub, .mul, .div] := by
    simp [chain]
  exact ⟨hops, (stacks_join_by_precedence Builder.folding).1 chain hops⟩

end RollingBall
