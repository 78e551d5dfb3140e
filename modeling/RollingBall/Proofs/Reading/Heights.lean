import RollingBall.Binary64
import RollingBall.Proofs.Folding.Walks
import RollingBall.Proofs.Reading.Grades

/-!
# How high trees grow

The limit on nesting counts the operands within one another, and a chain adds to the height of its
tree with each link. So the height of what is read is bounded by the nesting and by the longest
chain together, and so is the depth to which evaluation goes (`height_le_of_chains`); a condition
adds one for each of its comparisons. There is no bound without the chains: a text of `k` signs has
a tree of more than `k` nodes on a path (`heights_unbounded`).

## Main definitions

* `Condition.comparisons`: how many comparisons a condition consists of.
* `repeated`: the texts with long chains.
-/

namespace RollingBall

open Grammar

variable {α : Type}

/-! ## Every node adds one -/

namespace Formula

variable [Scalar α] {f g : Formula α} {w : Nat}

theorem height_foldNegate_le (hf : f.height ≤ w) : (foldNegate f).height ≤ w + 1 := by
  unfold foldNegate
  split
  · exact Nat.le_add_left 1 w
  · exact Nat.succ_le_succ hf

theorem height_foldBinary_le (op : BinaryOp) (hf : f.height ≤ w) (hg : g.height ≤ w) :
    (foldBinary op f g).height ≤ w + 1 := by
  unfold foldBinary
  split
  · exact Nat.le_add_left 1 w
  · exact Nat.succ_le_succ (Nat.max_le.mpr ⟨hf, hg⟩)

theorem height_foldCall_le {fn : Builtin} {args : List (Formula α)}
    (hargs : ∀ arg ∈ args, arg.height ≤ w) : (foldCall fn args).height ≤ w + 1 := by
  unfold foldCall
  split
  · exact Nat.le_add_left 1 w
  · exact Nat.succ_le_succ (heightAll_le_iff.mpr hargs)

/-- Every node is one higher than the highest of its operands, unless it is folded. -/
theorem grades_height :
    (Builder.folding : Builder α (Formula α)).Grades fun w f => f.height ≤ w where
  mono hw h := Nat.le_trans h hw
  constant _ := Nat.le_refl 1
  var _ := Nat.le_refl 1
  negate := height_foldNegate_le
  binary op _ _ hf hg := height_foldBinary_le op hf hg
  call hargs _ := height_foldCall_le hargs

end Formula

namespace Condition

/-- The number of comparisons that the condition consists of; a constant counts as one. -/
def comparisons : Condition α → Nat
  | constant _ => 1
  | compare _ _ _ => 1
  | both first second => first.comparisons + second.comparisons

theorem comparisons_pos (c : Condition α) : 1 ≤ c.comparisons := by
  induction c with
  | constant => exact Nat.le_refl 1
  | compare => exact Nat.le_refl 1
  | both first second ihFirst => exact Nat.le_add_right_of_le ihFirst

/-- Above its formulas, a condition is no higher than the number of its comparisons. -/
theorem height_le {c : Condition α} {w : Nat} (h : ∀ f ∈ c.operands, f.height ≤ w) :
    c.height ≤ w + c.comparisons := by
  induction c with
  | constant => exact Nat.le_add_left 1 w
  | compare relation lhs rhs =>
    have hlhs := h lhs List.mem_cons_self
    have hrhs := h rhs (List.mem_cons_of_mem _ List.mem_cons_self)
    exact Nat.succ_le_succ (Nat.max_le.mpr ⟨hlhs, hrhs⟩)
  | both first second ihFirst ihSecond =>
    have hfirst := ihFirst fun f hf => h f (List.mem_append_left _ hf)
    have hsecond := ihSecond fun f hf => h f (List.mem_append_right _ hf)
    have hposFirst := first.comparisons_pos
    have hposSecond := second.comparisons_pos
    simp only [height, comparisons]
    omega

/-- Each further relation makes the tree of a chain higher. -/
theorem height_extend (c : Condition α) (last : Formula α)
    (links : List (Relation × Formula α)) :
    c.height + links.length ≤ (extend c last links).height := by
  induction links generalizing c last with
  | nil => exact Nat.le_refl _
  | cons link links ih =>
    have hrest := ih (both c (compare link.1 last link.2)) link.2
    rw [height] at hrest
    simp only [extend, List.length_cons]
    omega

theorem lt_height_ofChain (chain : Comparisons (Formula α)) :
    chain.links.length < (ofChain chain).height := by
  have h := height_extend (compare chain.link.1 chain.first chain.link.2) chain.link.2 chain.links
  rw [height] at h
  rw [ofChain]
  omega

end Condition

/-! ## Texts with long chains -/

section Long

variable [Scalar α]

/-- The variable `x` again and again, with the same text in between `k` times. -/
def repeated (between : List Char) : Nat → List Char
  | 0 => ['x']
  | k + 1 => 'x' :: (between ++ repeated between k)

/-- A text `x + x + … + x` is an operand and as many links as it has signs. -/
theorem exists_links_repeated {ρ : Type} (B : Builder α ρ) (n k : Nat) :
    ∃ s, Operand B (n + 1) (repeated ['+'] k) (B.var .x) s ∧
      Links B (n + 1) s (List.replicate k (.add, B.var .x)) [] := by
  induction k with
  | zero => exact ⟨[], .x (stops_nil _) (stops_nil _), .done⟩
  | succ k ih =>
    obtain ⟨s, hfirst, hlinks⟩ := ih
    refine ⟨'+' :: repeated ['+'] k, ?_, .sign .add hfirst hlinks⟩
    exact .x (stops_cons.mpr (by decide)) (stops_cons.mpr (by decide))

/-- Without products, every operand is a term. -/
theorem Chain.terms_sums {ρ : Type} (join : BinaryOp → ρ → ρ → ρ) (term : ρ)
    {links : List (BinaryOp × ρ)} (h : ∀ link ∈ links, link.1.precedence ≠ 2) :
    terms join term links = ⟨term, links⟩ := by
  induction links generalizing term with
  | nil => rfl
  | cons link links ih =>
    have hrest := ih link.2 fun link hl => h link (List.mem_cons_of_mem _ hl)
    rw [terms, if_neg (h link List.mem_cons_self), hrest]

theorem Formula.foldBinary_var (op : BinaryOp) (f : Formula α) (v : Variable) :
    foldBinary op f (var v) = binary op f (var v) := by
  unfold foldBinary
  split
  · rename_i h
    exact absurd h (by simp [constant?])
  · rfl

/-- Each sign makes the tree of a sum higher. -/
theorem Formula.height_sum (f : Formula α) (k : Nat) :
    (Chain.fromLeft foldBinary ⟨f, List.replicate k (.add, var .x)⟩).height = f.height + k := by
  induction k generalizing f with
  | zero => rfl
  | succ k ih =>
    have hpos := f.height_pos
    have hnode : (foldBinary .add f (var .x)).height = f.height + 1 := by
      rw [foldBinary_var, height, height, Nat.max_eq_left hpos]
    have hrest := ih (foldBinary .add f (var .x))
    rw [hnode] at hrest
    exact hrest.trans (by omega)

/-- A sum with `k` signs is read, as a tree of height `k + 1`. -/
theorem exists_parse_sum (k : Nat) :
    ∃ f : Formula α, Formula.parse (repeated ['+'] k) = .ok (some f) ∧ f.height = k + 1 := by
  obtain ⟨s, hfirst, hlinks⟩ :=
    exists_links_repeated (Builder.folding : Builder α (Formula α)) (maxNesting - 1) k
  refine ⟨_, Formula.parseWith_eq_some_iff.mpr (.chain hfirst hlinks), ?_⟩
  have hsums : ∀ link ∈ List.replicate k (BinaryOp.add, (Formula.var .x : Formula α)),
      link.1.precedence ≠ 2 := by
    intro link hl
    rw [List.eq_of_mem_replicate hl]
    exact (by decide : BinaryOp.add.precedence ≠ 2)
  have hterms := Chain.terms_sums Formula.foldBinary (.var .x) hsums
  have hsum := Formula.height_sum (.var .x : Formula α) k
  rw [← hterms, Formula.height, Nat.add_comm 1 k] at hsum
  exact hsum

/-- A text `x < x < … < x` is a chain with as many relations. -/
theorem chained_repeated (k : Nat) :
    Chained (repeated ['<'] k) (.var .x : Formula α) (List.replicate k (.lt, .var .x)) := by
  induction k with
  | zero => exact .last Formula.parse_x
  | succ k ih =>
    have hstops : Stops (· == '=') (repeated ['<'] k) := by cases k <;> simp [repeated]
    have hlongest : Relation.lt.Longest (Relation.lt.text ++ repeated ['<'] k) :=
      Relation.longest_iff.mpr (.inr hstops)
    exact .link Formula.parse_x hlongest ih

/-- A chain with `k + 1` relations is read, as a tree of more than `k` nodes on a path. -/
theorem exists_parse_relations (k : Nat) :
    ∃ c : Condition α, Condition.parse (repeated ['<'] (k + 1)) = .ok (some c) ∧ k < c.height := by
  refine ⟨_, Condition.parse_eq_some_iff.mpr
    ⟨⟨.var .x, (.lt, .var .x), List.replicate k (.lt, .var .x)⟩, chained_repeated (k + 1), rfl⟩, ?_⟩
  have hlt := Condition.lt_height_ofChain
    (⟨.var .x, (.lt, .var .x), List.replicate k (.lt, .var .x)⟩ : Comparisons (Formula α))
  rwa [List.length_replicate] at hlt

end Long

/-! ## The bound -/

/-- **Heights.** If no chain of operands in the text has more than `k` links, then the tree of a
formula is at most `heightLimit k` high, and that of a condition at most as much higher as it has
comparisons. Evaluation with or without a context goes no deeper. -/
theorem height_le_of_chains [Scalar α] {k : Nat} {s : List Char}
    (hs : ChainsWithin (α := α) .folding k s) :
    (∀ f : Formula α, Formula.parse s = .ok (some f) →
      f.height ≤ heightLimit k ∧
      (∀ ctx, f.walk? (.values ctx) (heightLimit k) = some (f.eval ctx)) ∧
      f.walk? .constants (heightLimit k) = some f.constant?) ∧
    ∀ c : Condition α, Condition.parse s = .ok (some c) →
      c.height ≤ heightLimit k + c.comparisons ∧
      (∀ ctx, c.walk? (.values ctx) .values (heightLimit k + c.comparisons) = some (c.eval ctx)) ∧
      c.walk? .constants .constants (heightLimit k + c.comparisons) = some c.constant? := by
  constructor
  · intro f hparse
    have hheight := Formula.graded_of_parse Formula.grades_height hs hparse
    refine ⟨hheight, fun ctx => ?_, ?_⟩
    · exact Formula.walk?_eq (Builder.computes_eval ctx) hheight
    · exact Formula.walk?_eq Builder.computes_constant? hheight
  · intro c hparse
    have hoperands := Condition.graded_of_parse Formula.grades_height hs hparse
    have hheight := Condition.height_le hoperands
    refine ⟨hheight, fun ctx => ?_, ?_⟩
    · exact Condition.walk?_eq (Builder.computes_eval ctx)
        (Condition.Joiner.computes_eval ctx) hheight
    · exact Condition.walk?_eq Builder.computes_constant? Condition.Joiner.computes_constant?
        hheight

theorem height_le_of_chains_sum : ∃ f : Formula Float,
    ChainsWithin (α := Float) .folding 5 (repeated ['+'] 2) ∧
      Formula.parse (repeated ['+'] 2) = .ok (some f) ∧ f.height = 3 ∧
      f.height ≤ heightLimit 5 ∧
      ∀ ctx, f.walk? (.values ctx) (heightLimit 5) = some (f.eval ctx) := by
  obtain ⟨f, hparse, hheight⟩ := exists_parse_sum (α := Float) 2
  have hs : ChainsWithin (α := Float) .folding 5 (repeated ['+'] 2) :=
    chainsWithin_length .folding (repeated ['+'] 2)
  obtain ⟨hle, hvalue, -⟩ := (height_le_of_chains hs).1 f hparse
  exact ⟨f, hs, hparse, hheight, hle, hvalue⟩

/-- No bound holds of the heights of all that is read, be it formulas or conditions. -/
theorem heights_unbounded :
    (¬ ∃ H, ∀ (s : List Char) (f : Formula Float),
      Formula.parse s = .ok (some f) → f.height ≤ H) ∧
    ¬ ∃ H, ∀ (s : List Char) (c : Condition Float),
      Condition.parse s = .ok (some c) → c.height ≤ H := by
  constructor
  · rintro ⟨H, hH⟩
    obtain ⟨f, hparse, hheight⟩ := exists_parse_sum (α := Float) H
    have hle := hH _ f hparse
    omega
  · rintro ⟨H, hH⟩
    obtain ⟨c, hparse, hlt⟩ := exists_parse_relations (α := Float) H
    exact absurd (hH _ c hparse) (Nat.not_le_of_lt hlt)

end RollingBall
