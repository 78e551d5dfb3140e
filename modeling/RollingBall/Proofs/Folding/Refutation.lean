import RollingBall.Binary64
import RollingBall.Proofs.Folding.Meaning
import RollingBall.Proofs.Folding.NormalForm

/-!
# Conditions without a context

However a condition is nested, it consists of comparisons and constants in some order
(`Condition.parts`). What it says without a context is what these parts say, asked one after the
other up to the first that is refuted (`Condition.ask`). A part says nothing if it reads a variable.
So a condition that holds without a context reads no variable, but one that is refuted may read
variables behind the part that refutes it, where it is not asked, and not before
(`constant_up_to_first_refuted`). What a condition says without a context, it says in every context
(`Condition.eval_of_constant?`).

## Main definitions

* `Condition.parts`: the comparisons and constants that a condition consists of, in order.
* `Condition.ask`: what parts in a row say without a context.
* `Condition.ReadsVariable`: a variable occurs somewhere in a condition.
-/

namespace RollingBall

variable {α : Type}

namespace Condition

/-! ## Parts -/

/-- The comparisons and constants that the condition joins, from the left. -/
def parts : Condition α → List (Condition α)
  | constant value => [constant value]
  | compare relation lhs rhs => [compare relation lhs rhs]
  | both first second => first.parts ++ second.parts

/-- Some formula of the condition reads a variable. -/
def ReadsVariable (c : Condition α) : Prop := ∃ f ∈ c.operands, f.ReadsVariable

theorem not_readsVariable_constant (value : Bool) :
    ¬ (constant value : Condition α).ReadsVariable := by
  rintro ⟨f, hf, -⟩
  exact List.not_mem_nil hf

theorem readsVariable_compare_iff {relation : Relation} {lhs rhs : Formula α} :
    (compare relation lhs rhs).ReadsVariable ↔ lhs.ReadsVariable ∨ rhs.ReadsVariable := by
  simp [ReadsVariable, operands]

theorem readsVariable_iff {c : Condition α} :
    c.ReadsVariable ↔ ∃ part ∈ c.parts, part.ReadsVariable := by
  induction c with
  | constant | compare => simp [parts]
  | both first second ihFirst ihSecond =>
    have hboth : (both first second).ReadsVariable ↔
        first.ReadsVariable ∨ second.ReadsVariable := by
      simp only [ReadsVariable, operands, List.mem_append, or_and_right, exists_or]
    rw [hboth, ihFirst, ihSecond]
    simp only [parts, List.mem_append, or_and_right, exists_or]

variable [Scalar α] {c : Condition α}

/-- A single part says nothing exactly if it reads a variable. -/
theorem constant?_eq_none_iff {part : Condition α} (h : part ∈ c.parts) :
    part.constant? = none ↔ part.ReadsVariable := by
  induction c with
  | constant value =>
    obtain rfl := List.mem_singleton.mp h
    exact iff_of_false (Option.some_ne_none value) (not_readsVariable_constant value)
  | compare relation lhs rhs =>
    obtain rfl := List.mem_singleton.mp h
    rw [readsVariable_compare_iff, ← Formula.constant?_eq_none_iff,
      ← Formula.constant?_eq_none_iff, constant?]
    cases lhs.constant? <;> cases rhs.constant? <;> simp
  | both first second ihFirst ihSecond =>
    rcases List.mem_append.mp h with hfirst | hsecond
    · exact ihFirst hfirst
    · exact ihSecond hsecond

/-! ## Asking -/

/-- What conditions in a row say together without a context. None is asked after one that is
refuted. -/
def ask : List (Condition α) → Option Bool
  | [] => some true
  | part :: parts => part.constant?.bind fun met => if met then ask parts else some false

theorem constant?_both (first second : Condition α) :
    (both first second).constant? =
      first.constant?.bind fun met => if met then second.constant? else some false := by
  rw [constant?]
  match first.constant? with
  | none => rfl
  | some true => rfl
  | some false => rfl

theorem ask_append (parts more : List (Condition α)) :
    ask (parts ++ more) = (ask parts).bind fun met => if met then ask more else some false := by
  induction parts with
  | nil => rfl
  | cons part parts ih =>
    rw [List.cons_append, ask, ask, ih]
    match part.constant? with
    | none => rfl
    | some true => rfl
    | some false => rfl

/-- However a condition is nested, its parts are asked in order. -/
theorem constant?_eq_ask (c : Condition α) : c.constant? = ask c.parts := by
  induction c with
  | constant value => cases value <;> rfl
  | compare relation lhs rhs =>
    rw [parts, ask, ask]
    match (compare relation lhs rhs).constant? with
    | none => rfl
    | some true => rfl
    | some false => rfl
  | both first second ihFirst ihSecond =>
    rw [constant?_both, ihFirst, ihSecond, parts, ask_append]

/-- Conditions in a row are met without a context if each of them is. -/
theorem ask_eq_some_true_iff {parts : List (Condition α)} :
    ask parts = some true ↔ ∀ part ∈ parts, part.constant? = some true := by
  induction parts with
  | nil => simp [ask]
  | cons part parts ih =>
    rw [List.forall_mem_cons, ← ih, ask]
    cases part.constant? with
    | none => simp
    | some met => cases met <;> simp

/-- They are refuted if one of them is and all before it are met. -/
theorem ask_eq_some_false_iff {parts : List (Condition α)} :
    ask parts = some false ↔ ∃ before part after, parts = before ++ part :: after ∧
      ask before = some true ∧ part.constant? = some false := by
  constructor
  · intro h
    induction parts with
    | nil => cases h
    | cons part parts ih =>
      rw [ask] at h
      cases hpart : part.constant? with
      | none => rw [hpart] at h; cases h
      | some met =>
        rw [hpart] at h
        cases met with
        | false => exact ⟨[], part, parts, rfl, rfl, hpart⟩
        | true =>
          obtain ⟨before, refuted, after, rfl, hbefore, hrefuted⟩ := ih h
          refine ⟨part :: before, refuted, after, rfl, ?_, hrefuted⟩
          rw [ask, hpart]
          exact hbefore
  · rintro ⟨before, part, after, rfl, hbefore, hpart⟩
    rw [ask_append, hbefore, Option.bind_some, if_pos rfl, ask, hpart]
    rfl

/-- Conditions in a row say nothing only if one of them says nothing. -/
theorem exists_of_ask_eq_none {parts : List (Condition α)} (h : ask parts = none) :
    ∃ part ∈ parts, part.constant? = none := by
  induction parts with
  | nil => cases h
  | cons part parts ih =>
    rw [ask] at h
    cases hpart : part.constant? with
    | none => exact ⟨part, List.mem_cons_self, hpart⟩
    | some met =>
      rw [hpart] at h
      cases met with
      | false => cases h
      | true =>
        obtain ⟨other, hother, hnone⟩ := ih h
        exact ⟨other, List.mem_cons_of_mem _ hother, hnone⟩

/-! ## What is said -/

/-- What a condition says without a context, it says in every context. -/
theorem eval_of_constant? {met : Bool} (h : c.constant? = some met) (ctx : Context α) :
    c.eval ctx = met := by
  induction c generalizing met with
  | constant value => exact Option.some.inj h
  | compare relation lhs rhs =>
    rw [constant?] at h
    split at h
    · rename_i a b ha hb
      rw [eval, Formula.eval_of_constant? ctx ha, Formula.eval_of_constant? ctx hb]
      exact Option.some.inj h
    · contradiction
  | both first second ihFirst ihSecond =>
    rw [constant?_both, Option.bind_eq_some_iff] at h
    obtain ⟨met, hfirst, hsecond⟩ := h
    rw [eval, ihFirst hfirst]
    cases met with
    | true => exact ihSecond hsecond
    | false => exact Option.some.inj hsecond

/-- A part that reads no variable says without a context what it says in every context. -/
theorem constant?_eq_some_iff {part : Condition α} (h : part ∈ c.parts) {met : Bool} :
    part.constant? = some met ↔ ¬ part.ReadsVariable ∧ ∀ ctx, part.eval ctx = met := by
  rw [← constant?_eq_none_iff h]
  constructor
  · intro hpart
    exact ⟨by simp [hpart], eval_of_constant? hpart⟩
  · rintro ⟨hanswer, heval⟩
    obtain ⟨other, hother⟩ := Option.ne_none_iff_exists'.mp hanswer
    rw [hother, ← eval_of_constant? hother (.atTime 0.0), heval]

theorem ask_ne_none {parts : List (Condition α)} (hsub : parts ⊆ c.parts)
    (hreads : ∀ part ∈ parts, ¬ part.ReadsVariable) : ask parts ≠ none := by
  intro hnone
  obtain ⟨part, hpart, hanswer⟩ := exists_of_ask_eq_none hnone
  exact hreads part hpart ((constant?_eq_none_iff (hsub hpart)).mp hanswer)

theorem constant?_ne_none (h : ¬ c.ReadsVariable) : c.constant? ≠ none := by
  rw [constant?_eq_ask]
  rw [readsVariable_iff] at h
  exact ask_ne_none (List.Subset.refl _) fun part hpart hreads => h ⟨part, hpart, hreads⟩

end Condition

open Condition

/-- **Conditions without a context.** What a condition says without a context, it says in every
context, and it says something if it reads no variable. If it holds without a context, it reads no
variable. It is refuted without a context exactly if one of its parts is refuted in every context
and neither this part nor one before it reads a variable, whatever comes behind. -/
theorem constant_up_to_first_refuted [Scalar α] (c : Condition α) :
    (∀ met, c.constant? = some met → ∀ ctx, c.eval ctx = met) ∧
      (¬ c.ReadsVariable → c.constant?.isSome) ∧
      (c.constant? = some true ↔ ¬ c.ReadsVariable ∧ ∀ ctx, c.eval ctx = true) ∧
      (c.constant? = some false ↔ ∃ before part after, c.parts = before ++ part :: after ∧
        (∀ other ∈ before ++ [part], ¬ other.ReadsVariable) ∧ ∀ ctx, part.eval ctx = false) := by
  refine ⟨fun met h => eval_of_constant? h, fun h => Option.isSome_iff_ne_none.mpr
    (constant?_ne_none h), ⟨fun h => ?_, ?_⟩, ?_, ?_⟩
  · refine ⟨fun hreads => ?_, eval_of_constant? h⟩
    obtain ⟨part, hpart, hreads⟩ := readsVariable_iff.mp hreads
    rw [constant?_eq_ask, ask_eq_some_true_iff] at h
    exact ((constant?_eq_some_iff hpart).mp (h part hpart)).1 hreads
  · rintro ⟨hreads, heval⟩
    obtain ⟨met, hmet⟩ := Option.ne_none_iff_exists'.mp (constant?_ne_none hreads)
    rw [hmet, ← eval_of_constant? hmet (.atTime 0.0), heval]
  · rw [constant?_eq_ask, ask_eq_some_false_iff]
    rintro ⟨before, part, after, hparts, hbefore, hpart⟩
    have hmem : part ∈ c.parts := by simp [hparts]
    obtain ⟨hreads, hrefuted⟩ := (constant?_eq_some_iff hmem).mp hpart
    refine ⟨before, part, after, hparts, ?_, hrefuted⟩
    rw [List.forall_mem_append, List.forall_mem_singleton]
    refine ⟨fun other hother => ?_, hreads⟩
    have hmem : other ∈ c.parts := by simp [hparts, hother]
    exact ((constant?_eq_some_iff hmem).mp (ask_eq_some_true_iff.mp hbefore other hother)).1
  · rintro ⟨before, part, after, hparts, hreads, hrefuted⟩
    have hsplit : c.parts = (before ++ [part]) ++ after := by simp [hparts]
    have hsub : before ++ [part] ⊆ c.parts := hsplit ▸ List.subset_append_left _ _
    have hmem : part ∈ c.parts := hsub (by simp)
    obtain ⟨met, hmet⟩ := Option.ne_none_iff_exists'.mp (ask_ne_none hsub hreads)
    rw [constant?_eq_ask, hsplit, ask_append, hmet]
    cases met with
    | false => rfl
    | true =>
      -- The part that is refuted everywhere cannot have been met.
      have hpart := ask_eq_some_true_iff.mp hmet part (by simp)
      have hheld := eval_of_constant? hpart (.atTime 0.0)
      rw [hrefuted] at hheld
      cases hheld

/-- The chain `1 < 0 < x` is refuted without a context, though it reads a variable. -/
theorem refuted_before_variable :
    let c : Condition Float := ofChain ⟨.constant 1.0, (.lt, .constant 0.0), [(.lt, .var .x)]⟩
    c.ReadsVariable ∧ c.constant? = some false ∧ ∀ ctx, c.eval ctx = false := by
  intro c
  obtain ⟨hsound, -, -, hrefuted⟩ := constant_up_to_first_refuted c
  have hanswer : c.constant? = some false := by
    refine hrefuted.mpr ⟨[], _, _, rfl, ?_, fun ctx => ?_⟩
    · rw [List.nil_append, List.forall_mem_singleton, readsVariable_compare_iff]
      rintro (h | h)
      · exact Formula.not_readsVariable_constant _ h
      · exact Formula.not_readsVariable_constant _ h
    · rw [eval, Formula.eval, Formula.eval]
      decide +kernel
  exact ⟨⟨.var .x, by simp [c, ofChain, extend, operands], Formula.readsVariable_var .x⟩, hanswer,
    hsound false hanswer⟩

end RollingBall
