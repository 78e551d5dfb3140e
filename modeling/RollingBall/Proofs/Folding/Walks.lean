import RollingBall.Condition

/-!
# Going over a tree

`Formula.eval` and `Formula.constant?` both go over a tree and put together what they find at its
nodes: there is a builder whose nodes they compute (`Builder.Computes`). With a limit on how many
calls may lie within one another, the same is found if the limit is the height of the tree
(`Formula.walk?_eq`). The same holds of conditions (`Condition.walk?_eq`).

## Main definitions

* `Formula.height`, `Condition.height`: the most nodes on a path.
* `Formula.walk?`, `Condition.walk?`: going over a tree with a limit on the depth.
-/

namespace RollingBall

variable {α ρ σ : Type}

namespace Formula

/-! ## The height of a formula -/

mutual

/-- The most nodes on a path from the root. -/
def height : Formula α → Nat
  | constant _ => 1
  | var _ => 1
  | negate operand => operand.height + 1
  | binary _ lhs rhs => max lhs.height rhs.height + 1
  | call _ args => heightAll args + 1

/-- The height of the highest argument. -/
def heightAll : List (Formula α) → Nat
  | [] => 0
  | arg :: args => max arg.height (heightAll args)

end

theorem heightAll_le_iff {args : List (Formula α)} {w : Nat} :
    heightAll args ≤ w ↔ ∀ arg ∈ args, arg.height ≤ w := by
  induction args with
  | nil => simp [heightAll]
  | cons arg args ih => rw [heightAll, Nat.max_le, ih, List.forall_mem_cons]

theorem height_pos (f : Formula α) : 1 ≤ f.height := by
  cases f <;> simp [height]

end Formula

/-! ## Going over a formula -/

/-- The function puts together what it finds at the nodes as the builder does. -/
structure Builder.Computes (B : Builder α ρ) (g : Formula α → ρ) : Prop where
  constant (a : α) : g (.constant a) = B.constant a
  var (v : Variable) : g (.var v) = B.var v
  negate (f : Formula α) : g (.negate f) = B.negate (g f)
  binary (op : BinaryOp) (f₁ f₂ : Formula α) : g (.binary op f₁ f₂) = B.binary op (g f₁) (g f₂)
  call (fn : Builtin) (args : List (Formula α)) : g (.call fn args) = B.call fn (args.map g)

namespace Formula

/-- What the builder makes of the tree, found with at most so many calls within one another. -/
def walk? (B : Builder α ρ) : Nat → Formula α → Option ρ
  | 0, _ => none
  | _ + 1, constant a => some (B.constant a)
  | _ + 1, var v => some (B.var v)
  | n + 1, negate operand => (walk? B n operand).map B.negate
  | n + 1, binary op lhs rhs =>
    match walk? B n lhs, walk? B n rhs with
    | some l, some r => some (B.binary op l r)
    | _, _ => none
  | n + 1, call fn args => (args.mapM (walk? B n)).map (B.call fn)

theorem mapM_eq_some_map {f : Formula α → Option ρ} {g : Formula α → ρ} {args : List (Formula α)}
    (h : ∀ arg ∈ args, f arg = some (g arg)) : args.mapM f = some (args.map g) := by
  induction args with
  | nil => rfl
  | cons arg args ih =>
    rw [List.mapM_cons, h arg List.mem_cons_self,
      ih fun arg harg => h arg (List.mem_cons_of_mem _ harg)]
    rfl

/-- **Depth.** A function that goes over a formula needs no more calls within one another than the
formula has nodes on a path. -/
theorem walk?_eq {B : Builder α ρ} {g : Formula α → ρ} (hg : B.Computes g) {n : Nat} :
    ∀ {f : Formula α}, f.height ≤ n → f.walk? B n = some (g f) := by
  induction n with
  | zero =>
    intro f hf
    have hpos := f.height_pos
    omega
  | succ n ih =>
    intro f hf
    cases f with
    | constant a => rw [walk?, hg.constant]
    | var v => rw [walk?, hg.var]
    | negate operand =>
      rw [walk?, ih (Nat.le_of_succ_le_succ hf), Option.map_some, hg.negate]
    | binary op lhs rhs =>
      obtain ⟨hlhs, hrhs⟩ := Nat.max_le.mp (Nat.le_of_succ_le_succ hf)
      rw [walk?, ih hlhs, ih hrhs, hg.binary]
    | call fn args =>
      have hargs := heightAll_le_iff.mp (Nat.le_of_succ_le_succ hf)
      rw [walk?, mapM_eq_some_map fun arg harg => ih (hargs arg harg), Option.map_some, hg.call]

end Formula

namespace Builder

variable [Scalar α]

/-- The nodes of the values in a context. -/
def values (ctx : Context α) : Builder α α where
  constant a := a
  var := ctx.lookup
  negate a := -a
  binary := BinaryOp.apply
  call := Builtin.apply

/-- The nodes of the values without a context. -/
def constants : Builder α (Option α) where
  constant a := some a
  var _ := none
  negate a := a.map (-·)
  binary op a b :=
    match a, b with
    | some a, some b => some (op.apply a b)
    | _, _ => none
  call fn args := (args.mapM id).map fn.apply

theorem computes_eval (ctx : Context α) : (values ctx).Computes (Formula.eval ctx) where
  constant _ := by rw [Formula.eval]; rfl
  var _ := by rw [Formula.eval]; rfl
  negate _ := by rw [Formula.eval]; rfl
  binary _ _ _ := by rw [Formula.eval]; rfl
  call fn args := Formula.eval_call ctx fn args

theorem constants?_eq_mapM (args : List (Formula α)) :
    Formula.constants? args = (args.map Formula.constant?).mapM id := by
  induction args with
  | nil => rw [Formula.constants?]; rfl
  | cons arg args ih =>
    rw [Formula.constants?, ih, List.map_cons, List.mapM_cons]
    cases arg.constant? with
    | none => rfl
    | some a => cases (args.map Formula.constant?).mapM id <;> rfl

theorem computes_constant? : (constants : Builder α (Option α)).Computes Formula.constant? where
  constant _ := by rw [Formula.constant?]; rfl
  var _ := by rw [Formula.constant?]; rfl
  negate _ := by rw [Formula.constant?]; rfl
  binary _ _ _ := by rw [Formula.constant?]; rfl
  call fn args := by rw [Formula.constant?, constants?_eq_mapM]; rfl

end Builder

/-! ## Conditions -/

namespace Condition

/-- The most nodes on a path from the root, those of the formulas included. -/
def height : Condition α → Nat
  | constant _ => 1
  | compare _ lhs rhs => max lhs.height rhs.height + 1
  | both first second => max first.height second.height + 1

/-- How comparisons are made and put together. -/
structure Joiner (ρ σ : Type) where
  constant : Bool → σ
  compare : Relation → ρ → ρ → σ
  both : σ → σ → σ

/-- The function puts together what it finds at the nodes as the joiner does, if `g` is what was
made of the formulas. -/
structure Joiner.Computes (J : Joiner ρ σ) (g : Formula α → ρ) (h : Condition α → σ) : Prop where
  constant (value : Bool) : h (.constant value) = J.constant value
  compare (relation : Relation) (f₁ f₂ : Formula α) :
    h (.compare relation f₁ f₂) = J.compare relation (g f₁) (g f₂)
  both (c₁ c₂ : Condition α) : h (.both c₁ c₂) = J.both (h c₁) (h c₂)

/-- What the joiner makes of a condition on what the builder makes of its formulas, found with at
most so many calls within one another. -/
def walk? (B : Builder α ρ) (J : Joiner ρ σ) : Nat → Condition α → Option σ
  | 0, _ => none
  | _ + 1, constant value => some (J.constant value)
  | n + 1, compare relation lhs rhs =>
    match lhs.walk? B n, rhs.walk? B n with
    | some l, some r => some (J.compare relation l r)
    | _, _ => none
  | n + 1, both first second =>
    match walk? B J n first, walk? B J n second with
    | some a, some b => some (J.both a b)
    | _, _ => none

theorem walk?_eq {B : Builder α ρ} {g : Formula α → ρ} (hg : B.Computes g) {J : Joiner ρ σ}
    {h : Condition α → σ} (hh : J.Computes g h) {n : Nat} :
    ∀ {c : Condition α}, c.height ≤ n → c.walk? B J n = some (h c) := by
  induction n with
  | zero =>
    intro c hc
    cases c <;> exact absurd hc (by simp [height])
  | succ n ih =>
    intro c hc
    cases c with
    | constant value => rw [walk?, hh.constant]
    | compare relation lhs rhs =>
      obtain ⟨hlhs, hrhs⟩ := Nat.max_le.mp (Nat.le_of_succ_le_succ hc)
      rw [walk?, Formula.walk?_eq hg hlhs, Formula.walk?_eq hg hrhs, hh.compare]
    | both first second =>
      obtain ⟨hfirst, hsecond⟩ := Nat.max_le.mp (Nat.le_of_succ_le_succ hc)
      rw [walk?, ih hfirst, ih hsecond, hh.both]

namespace Joiner

variable [Scalar α]

/-- Conditions in a context. -/
def values : Joiner α Bool where
  constant value := value
  compare := Relation.holds
  both a b := a && b

/-- Conditions without a context. A refuted first part makes the second one needless. -/
def constants : Joiner (Option α) (Option Bool) where
  constant value := some value
  compare relation a b :=
    match a, b with
    | some a, some b => some (relation.holds a b)
    | _, _ => none
  both a b :=
    match a with
    | some true => b
    | other => other

theorem computes_eval (ctx : Context α) :
    (values : Joiner α Bool).Computes (Formula.eval ctx) (Condition.eval ctx) where
  constant _ := rfl
  compare _ _ _ := rfl
  both _ _ := rfl

theorem computes_constant? :
    (constants : Joiner (Option α) (Option Bool)).Computes Formula.constant?
      Condition.constant? where
  constant _ := rfl
  compare _ _ _ := rfl
  both _ _ := rfl

end Joiner

end Condition

end RollingBall
