import RollingBall.Condition

/-!
# Folding keeps the meaning

A folding node has the value and the constant of the node it stands for (`eval_foldBinary`,
`constant?_foldBinary` and their like), because the value of a formula that reads no variable is
its value in every context (`eval_of_constant?`). So a formula rebuilt with folding nodes evaluates
like the raw one (`eval_fold`, `constant?_fold`), however deep it is and however many arguments its
calls have. A condition on folded formulas is met where the raw one is (`Condition.eval_fold`).
-/

namespace RollingBall

variable {α : Type} [Scalar α]

namespace Formula

/-! ## Constants -/

mutual

/-- A formula that reads no variable has its constant as value in every context. -/
theorem eval_of_constant? (ctx : Context α) :
    ∀ {f : Formula α} {a : α}, f.constant? = some a → f.eval ctx = a
  | constant value, a, h => by
    rw [constant?, Option.some.injEq] at h
    rw [eval, h]
  | var v, a, h => by
    rw [constant?] at h
    cases h
  | negate operand, a, h => by
    rw [constant?, Option.map_eq_some_iff] at h
    obtain ⟨b, hb, rfl⟩ := h
    rw [eval, eval_of_constant? ctx hb]
  | binary op lhs rhs, a, h => by
    rw [constant?] at h
    split at h
    · rename_i b c hb hc
      cases h
      rw [eval, eval_of_constant? ctx hb, eval_of_constant? ctx hc]
    · cases h
  | call fn args, a, h => by
    rw [constant?, Option.map_eq_some_iff] at h
    obtain ⟨values, hvalues, rfl⟩ := h
    rw [eval_call, map_eval_of_constants? ctx hvalues]

/-- Arguments that read no variable have their constants as values. -/
theorem map_eval_of_constants? (ctx : Context α) :
    ∀ {args : List (Formula α)} {values : List α},
      constants? args = some values → args.map (eval ctx) = values
  | [], values, h => by
    rw [constants?, Option.some.injEq] at h
    rw [List.map_nil, h]
  | arg :: args, values, h => by
    rw [constants?] at h
    split at h
    · rename_i a as ha has
      cases h
      rw [List.map_cons, eval_of_constant? ctx ha, map_eval_of_constants? ctx has]
    · cases h

end

/-! ## The folding nodes -/

theorem eval_foldNegate (ctx : Context α) (f : Formula α) :
    (foldNegate f).eval ctx = -f.eval ctx := by
  unfold foldNegate
  split
  · rename_i a ha
    rw [eval, eval_of_constant? ctx ha]
  · rw [eval]

theorem constant?_foldNegate (f : Formula α) :
    (foldNegate f).constant? = (negate f).constant? := by
  unfold foldNegate
  split
  · rename_i a ha
    rw [constant?, constant?, ha, Option.map_some]
  · rfl

theorem eval_foldBinary (ctx : Context α) (op : BinaryOp) (f g : Formula α) :
    (foldBinary op f g).eval ctx = op.apply (f.eval ctx) (g.eval ctx) := by
  unfold foldBinary
  split
  · rename_i a b ha hb
    rw [eval, eval_of_constant? ctx ha, eval_of_constant? ctx hb]
  · rw [eval]

theorem constant?_foldBinary (op : BinaryOp) (f g : Formula α) :
    (foldBinary op f g).constant? = (binary op f g).constant? := by
  unfold foldBinary
  split
  · rename_i a b ha hb
    rw [constant?, constant?, ha, hb]
  · rfl

theorem eval_foldCall (ctx : Context α) (fn : Builtin) (args : List (Formula α)) :
    (foldCall fn args).eval ctx = fn.apply (args.map (eval ctx)) := by
  unfold foldCall
  split
  · rename_i values hvalues
    rw [eval, map_eval_of_constants? ctx hvalues]
  · rw [eval_call]

theorem constant?_foldCall (fn : Builtin) (args : List (Formula α)) :
    (foldCall fn args).constant? = (call fn args).constant? := by
  unfold foldCall
  split
  · rename_i values hvalues
    rw [constant?, constant?, hvalues, Option.map_some]
  · rfl

/-! ## Whole formulas -/

mutual

/-- **Values.** A formula rebuilt with folding nodes has the same value in every context. -/
theorem eval_fold (ctx : Context α) : ∀ f : Formula α, f.fold.eval ctx = f.eval ctx
  | constant value => by rw [fold]
  | var v => by rw [fold]
  | negate operand => by rw [fold, eval_foldNegate, eval_fold ctx operand, eval]
  | binary op lhs rhs => by
    rw [fold, eval_foldBinary, eval_fold ctx lhs, eval_fold ctx rhs, eval]
  | call fn args => by rw [fold, eval_foldCall, map_eval_foldAll ctx args, eval_call]

theorem map_eval_foldAll (ctx : Context α) :
    ∀ args : List (Formula α), (foldAll args).map (eval ctx) = args.map (eval ctx)
  | [] => by rw [foldAll]
  | arg :: args => by
    rw [foldAll, List.map_cons, List.map_cons, eval_fold ctx arg, map_eval_foldAll ctx args]

end

mutual

/-- **Constants.** A formula rebuilt with folding nodes is constant when it was, with the same
value. -/
theorem constant?_fold : ∀ f : Formula α, f.fold.constant? = f.constant?
  | constant value => by rw [fold]
  | var v => by rw [fold]
  | negate operand => by
    rw [fold, constant?_foldNegate, constant?, constant?, constant?_fold operand]
  | binary op lhs rhs => by
    rw [fold, constant?_foldBinary, constant?, constant?, constant?_fold lhs, constant?_fold rhs]
  | call fn args => by
    rw [fold, constant?_foldCall, constant?, constant?, constants?_foldAll args]

theorem constants?_foldAll : ∀ args : List (Formula α), constants? (foldAll args) = constants? args
  | [] => by rw [foldAll]
  | arg :: args => by
    rw [foldAll, constants?, constants?, constant?_fold arg, constants?_foldAll args]

end

end Formula

/-! ## Conditions -/

namespace Condition

theorem eval_fold (ctx : Context α) (c : Condition α) : c.fold.eval ctx = c.eval ctx := by
  induction c with
  | constant value => rw [fold]
  | compare relation lhs rhs =>
    rw [fold, eval, eval, Formula.eval_fold, Formula.eval_fold]
  | both first second hfirst hsecond => rw [fold, eval, eval, hfirst, hsecond]

theorem fold_extend (links : List (Relation × Formula α)) (c : Condition α) (last : Formula α) :
    (extend c last links).fold =
      extend c.fold last.fold (links.map (Prod.map id Formula.fold)) := by
  induction links generalizing c last with
  | nil => rfl
  | cons link links ih => exact ih _ _

end Condition

end RollingBall
