import RollingBall.Binary64
import RollingBall.Proofs.Reading.Grades

/-!
# Normal forms

What is read is folded wherever it can be and complete wherever it cannot. A formula is in normal
form if each of its parts is a constant or reads a variable, has a constant of its own only in the
first case, and, if it is a call, has as many arguments as its function takes (`Formula.Normal`).
The folding nodes keep normal forms, so every formula that is read is in normal form, by itself or
within a condition (`reads_normal_forms`). The evaluation of such a formula calls every function
with the right number of arguments (`Formula.evalExactly?_of_normal`).

## Main definitions

* `Formula.Part`: a formula is the whole of another or lies within it.
* `Formula.Folded`, `Formula.Normal`: a formula, or every part of it, is as folding leaves it.
* `Formula.evalExactly?`: evaluation that refuses calls with a wrong number of arguments.
-/

namespace RollingBall

variable {α : Type}

namespace Formula

/-! ## Parts -/

/-- The formula `g` is the whole of another formula or a part of one of its operands. -/
inductive Part (g : Formula α) : Formula α → Prop where
  | self : Part g g
  | operand {f : Formula α} : Part g f → Part g (negate f)
  | left {op : BinaryOp} {lhs rhs : Formula α} : Part g lhs → Part g (binary op lhs rhs)
  | right {op : BinaryOp} {lhs rhs : Formula α} : Part g rhs → Part g (binary op lhs rhs)
  | argument {fn : Builtin} {args : List (Formula α)} {arg : Formula α} :
      arg ∈ args → Part g arg → Part g (call fn args)

/-- The formula is a number. -/
def IsConstant (f : Formula α) : Prop := ∃ a, f = constant a

/-- Some part of the formula is a variable. -/
def ReadsVariable (f : Formula α) : Prop := ∃ v, Part (var v) f

section ReadsVariable

variable {f g : Formula α}

theorem not_readsVariable_constant (a : α) : ¬ ReadsVariable (constant a) := by
  rintro ⟨v, ⟨⟩⟩

theorem readsVariable_var (v : Variable) : ReadsVariable (var v : Formula α) := ⟨v, .self⟩

theorem readsVariable_negate_iff : ReadsVariable (negate f) ↔ f.ReadsVariable := by
  constructor
  · rintro ⟨v, ⟨⟩ | h⟩
    exact ⟨v, h⟩
  · rintro ⟨v, h⟩
    exact ⟨v, .operand h⟩

theorem readsVariable_binary_iff {op : BinaryOp} :
    ReadsVariable (binary op f g) ↔ f.ReadsVariable ∨ g.ReadsVariable := by
  constructor
  · rintro ⟨v, ⟨⟩ | _ | h | h⟩
    · exact .inl ⟨v, h⟩
    · exact .inr ⟨v, h⟩
  · rintro (⟨v, h⟩ | ⟨v, h⟩)
    · exact ⟨v, .left h⟩
    · exact ⟨v, .right h⟩

theorem readsVariable_call_iff {fn : Builtin} {args : List (Formula α)} :
    ReadsVariable (call fn args) ↔ ∃ arg ∈ args, arg.ReadsVariable := by
  constructor
  · rintro ⟨v, ⟨⟩ | _ | _ | _ | ⟨harg, h⟩⟩
    exact ⟨_, harg, v, h⟩
  · rintro ⟨arg, harg, v, h⟩
    exact ⟨v, .argument harg h⟩

end ReadsVariable

variable [Scalar α]

mutual

/-- A formula has a constant unless it reads a variable. -/
theorem constant?_eq_none_iff : ∀ {f : Formula α}, f.constant? = none ↔ f.ReadsVariable
  | constant a => by
    rw [constant?]
    exact iff_of_false (Option.some_ne_none a) (not_readsVariable_constant a)
  | var v => by
    rw [constant?]
    exact iff_of_true rfl (readsVariable_var v)
  | negate f => by
    rw [constant?, Option.map_eq_none_iff, readsVariable_negate_iff, constant?_eq_none_iff]
  | binary op lhs rhs => by
    rw [readsVariable_binary_iff, ← constant?_eq_none_iff (f := lhs),
      ← constant?_eq_none_iff (f := rhs), constant?]
    cases lhs.constant? <;> cases rhs.constant? <;> simp
  | call fn args => by
    rw [constant?, Option.map_eq_none_iff, readsVariable_call_iff, constants?_eq_none_iff]

theorem constants?_eq_none_iff : ∀ {args : List (Formula α)},
    constants? args = none ↔ ∃ arg ∈ args, arg.ReadsVariable
  | [] => by simp [constants?]
  | arg :: args => by
    have hargs : constants? args = none ↔ ∃ f ∈ args, f.ReadsVariable := constants?_eq_none_iff
    simp only [List.mem_cons, exists_eq_or_imp]
    rw [← constant?_eq_none_iff (f := arg), ← hargs, constants?]
    cases arg.constant? <;> cases constants? args <;> simp

end

/-! ## Normal forms -/

/-- The formula is as folding leaves it: a call has as many arguments as its function takes, and
what reads no variable is a number. Only a number has a constant. -/
structure Folded (g : Formula α) : Prop where
  arity : ∀ fn args, g = call fn args → args.length = fn.arity
  reads : g.IsConstant ∨ g.ReadsVariable
  constant? : g.constant?.isSome ↔ g.IsConstant

/-- Every part of the formula is folded. -/
def Normal (f : Formula α) : Prop := ∀ g : Formula α, g.Part f → g.Folded

variable {f g : Formula α}

theorem folded_constant (a : α) : Folded (constant a) where
  arity := by rintro _ _ ⟨⟩
  reads := .inl ⟨a, rfl⟩
  constant? := by
    rw [Formula.constant?]
    exact iff_of_true rfl ⟨a, rfl⟩

theorem ReadsVariable.folded (h : g.ReadsVariable)
    (harity : ∀ fn args, g = call fn args → args.length = fn.arity) : g.Folded where
  arity := harity
  reads := .inr h
  constant? := by
    rw [constant?_eq_none_iff.mpr h]
    refine iff_of_false Bool.false_ne_true ?_
    rintro ⟨a, rfl⟩
    exact not_readsVariable_constant a h

theorem normal_constant (a : α) : Normal (constant a) := by
  rintro g ⟨⟩
  exact folded_constant a

theorem normal_var (v : Variable) : Normal (var v : Formula α) := by
  rintro g ⟨⟩
  exact (readsVariable_var v).folded (by rintro _ _ ⟨⟩)

theorem Normal.foldNegate (hf : f.Normal) : (foldNegate f).Normal := by
  unfold Formula.foldNegate
  split
  · exact normal_constant _
  · rename_i hnone
    rintro g (_ | hpart)
    · have hreads := readsVariable_negate_iff.mpr (constant?_eq_none_iff.mp hnone)
      exact hreads.folded (by rintro _ _ ⟨⟩)
    · exact hf g hpart

theorem Normal.foldBinary (op : BinaryOp) (hf : f.Normal) (hg : g.Normal) :
    (foldBinary op f g).Normal := by
  unfold Formula.foldBinary
  split
  · exact normal_constant _
  · rename_i hnone
    have hreads : f.ReadsVariable ∨ g.ReadsVariable := by
      rw [← constant?_eq_none_iff, ← constant?_eq_none_iff]
      cases hf' : f.constant? with
      | none => exact .inl rfl
      | some a =>
        cases hg' : g.constant? with
        | none => exact .inr rfl
        | some b => exact absurd hg' (hnone a b hf')
    rintro part (_ | _ | hpart | hpart)
    · exact (readsVariable_binary_iff.mpr hreads).folded (by rintro _ _ ⟨⟩)
    · exact hf part hpart
    · exact hg part hpart

theorem Normal.foldCall {fn : Builtin} {args : List (Formula α)} (hargs : ∀ arg ∈ args, arg.Normal)
    (harity : args.length = fn.arity) : (foldCall fn args).Normal := by
  unfold Formula.foldCall
  split
  · exact normal_constant _
  · rename_i hnone
    rintro part (_ | _ | _ | _ | ⟨harg, hpart⟩)
    · have hreads : ReadsVariable (call fn args) :=
        readsVariable_call_iff.mpr (constants?_eq_none_iff.mp hnone)
      refine hreads.folded fun fn' args' h => ?_
      obtain ⟨rfl, rfl⟩ := call.inj h
      exact harity
    · exact hargs _ harg part hpart

/-- Folding nodes keep normal forms. -/
theorem grades_normal :
    (Builder.folding : Builder α (Formula α)).Grades fun _ f => f.Normal where
  mono _ h := h
  constant := normal_constant
  var := normal_var
  negate := Normal.foldNegate
  binary op _ _ hf hg := hf.foldBinary op hg
  call := Normal.foldCall

end Formula

/-! ## Evaluation with the right number of arguments -/

/-- The value at a list of arguments, refused unless their number is the arity. -/
def Builtin.applyExactly? [Scalar α] (fn : Builtin) (values : List α) : Option α :=
  if values.length = fn.arity then some (fn.apply values) else none

namespace Formula

variable [Scalar α]

mutual

/-- The value of a formula in a context, refused if a function is called with a wrong number of
arguments. -/
def evalExactly? (ctx : Context α) : Formula α → Option α
  | constant value => some value
  | var v => some (ctx.lookup v)
  | negate operand => (operand.evalExactly? ctx).map (-·)
  | binary op lhs rhs =>
    match lhs.evalExactly? ctx, rhs.evalExactly? ctx with
    | some a, some b => some (op.apply a b)
    | _, _ => none
  | call fn args => (evalAllExactly? ctx args).bind fn.applyExactly?

/-- The values of the arguments, refused if one of them is. -/
def evalAllExactly? (ctx : Context α) : List (Formula α) → Option (List α)
  | [] => some []
  | arg :: args =>
    match arg.evalExactly? ctx, evalAllExactly? ctx args with
    | some a, some as => some (a :: as)
    | _, _ => none

end

mutual

/-- The evaluation of a normal form calls every function with as many arguments as it takes. -/
theorem evalExactly?_of_normal (ctx : Context α) : ∀ {f : Formula α}, f.Normal →
    f.evalExactly? ctx = some (f.eval ctx)
  | constant value, _ => by rw [evalExactly?, eval]
  | var v, _ => by rw [evalExactly?, eval]
  | negate operand, h => by
    have hoperand : operand.Normal := fun g hg => h g (.operand hg)
    rw [evalExactly?, evalExactly?_of_normal ctx hoperand, Option.map_some, eval]
  | binary op lhs rhs, h => by
    have hlhs : lhs.Normal := fun g hg => h g (.left hg)
    have hrhs : rhs.Normal := fun g hg => h g (.right hg)
    rw [evalExactly?, evalExactly?_of_normal ctx hlhs, evalExactly?_of_normal ctx hrhs, eval]
  | call fn args, h => by
    have hargs : ∀ arg ∈ args, arg.Normal := fun arg harg g hg => h g (.argument harg hg)
    have harity : (args.map (eval ctx)).length = fn.arity := by
      rw [List.length_map]
      exact (h _ .self).arity fn args rfl
    rw [evalExactly?, evalAllExactly?_of_normal ctx hargs, Option.bind_some,
      Builtin.applyExactly?, if_pos harity, eval_call]

theorem evalAllExactly?_of_normal (ctx : Context α) : ∀ {args : List (Formula α)},
    (∀ arg ∈ args, arg.Normal) → evalAllExactly? ctx args = some (args.map (eval ctx))
  | [], _ => by rw [evalAllExactly?, List.map_nil]
  | arg :: args, h => by
    have harg := h arg List.mem_cons_self
    have hargs : ∀ arg ∈ args, arg.Normal := fun arg harg => h arg (List.mem_cons_of_mem _ harg)
    rw [evalAllExactly?, evalExactly?_of_normal ctx harg, evalAllExactly?_of_normal ctx hargs,
      List.map_cons]

end

end Formula

/-! ## What is read -/

open Grammar

/-- The variable in the call keeps it from being folded. -/
theorem Formula.exists_parse_max : ∃ two : Float, parse "max(x,2)".toList =
    .ok (some (call (.binary .max) [var .x, constant two])) := by
  have hname : Name ('m' :: (['a', 'x'] ++ "(x,2)".toList)) "max" "(x,2)".toList :=
    .mk (by decide) (List.all_eq_true.mp rfl) (stops_cons.mpr (by decide))
  have hfn : Builtin.ofName? "max" = some (.binary .max) := by decide +kernel
  have htwo : Number (['2'] ++ [')']) (OfScientific.ofScientific 2 true 0 : Float) [')'] :=
    .whole (List.cons_ne_nil '2' []) (List.all_eq_true.mp rfl)
  have hargs : Arguments (Builder.folding : Builder Float _) 255 "x,2)".toList _ [')'] :=
    .more (.chain (.x (stops_cons.mpr (by decide)) (stops_cons.mpr (by decide))) .done)
      (.last (.chain (.positive (.base (.number htwo))) .done))
  have hcall := Primary.call hname hfn hargs rfl
  exact ⟨_, parseWith_eq_some_iff.mpr (.chain (.positive (.base hcall)) .done)⟩

/-- **Normal forms.** Every formula that is read, and every formula within a condition that is read,
is in normal form, and in every context its evaluation calls each function with as many arguments as
it takes. -/
theorem reads_normal_forms [Scalar α] (s : List Char) :
    (∀ f : Formula α, Formula.parse s = .ok (some f) →
      f.Normal ∧ ∀ ctx, f.evalExactly? ctx = some (f.eval ctx)) ∧
    ∀ c : Condition α, Condition.parse s = .ok (some c) → ∀ f ∈ c.operands,
      f.Normal ∧ ∀ ctx, f.evalExactly? ctx = some (f.eval ctx) := by
  have hs := Grammar.chainsWithin_length (α := α) .folding s
  constructor
  · intro f hparse
    have hnormal : f.Normal := Formula.graded_of_parse Formula.grades_normal hs hparse
    exact ⟨hnormal, fun ctx => Formula.evalExactly?_of_normal ctx hnormal⟩
  · intro c hparse f hf
    have hnormal : f.Normal := Condition.graded_of_parse Formula.grades_normal hs hparse f hf
    exact ⟨hnormal, fun ctx => Formula.evalExactly?_of_normal ctx hnormal⟩

/-- The call `max(x,2)`, by itself and in a condition. -/
theorem reads_normal_forms_max : ∃ two : Float,
    let f : Formula Float := .call (.binary .max) [.var .x, .constant two]
    Formula.parse "max(x,2)".toList = .ok (some f) ∧
      Condition.parse "x<max(x,2)".toList = .ok (some (.compare .lt (.var .x) f)) ∧
      f.Normal ∧ (∀ ctx, f.evalExactly? ctx = some (f.eval ctx)) ∧
      ∀ g ∈ (Condition.compare .lt (.var .x) f).operands,
        g.Normal ∧ ∀ ctx, g.evalExactly? ctx = some (g.eval ctx) := by
  obtain ⟨two, hmax⟩ := Formula.exists_parse_max
  have hlongest : Relation.lt.Longest (Relation.lt.text ++ "max(x,2)".toList) :=
    Relation.longest_iff.mpr (.inr (stops_cons.mpr (by decide)))
  have hcondition : Condition.parse "x<max(x,2)".toList =
      .ok (some (.compare .lt (.var .x) (.call (.binary .max) [.var .x, .constant two]))) :=
    Condition.parse_eq_some_iff.mpr
      ⟨⟨.var .x, (.lt, _), []⟩, .link Formula.parse_x hlongest (.last hmax), rfl⟩
  obtain ⟨hnormal, heval⟩ := (reads_normal_forms _).1 _ hmax
  exact ⟨two, hmax, hcondition, hnormal, heval, (reads_normal_forms _).2 _ hcondition⟩

end RollingBall
