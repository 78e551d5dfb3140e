import RollingBall.Proofs.Numbers.Real
import RollingBall.Proofs.Numbers.Ieee

/-!
# Exact arithmetic with infinities

The rules of IEEE arithmetic without rounding: an operation has its exact result, which may be
infinite, or none (`Scalar.Ieee.Exact`). Nothing more is said of the elementary functions. The
extended reals together with an undefined number follow these rules (`Extended`).

## Main definitions

* `Scalar.Ieee.Exact`: nothing is rounded.
* `Extended`: the reals, two infinities and an undefined number.
-/

namespace RollingBall

open scoped Reals

/-- Arithmetic in which nothing is rounded. -/
class Scalar.Ieee.Exact (α : Type) [Scalar α] [Scalar.Ieee α] : Prop where
  value_neg (a : α) : Scalar.Ieee.value (-a) = (Scalar.Ieee.value a).map fun x => -x
  round_eq (x : EReal) : Scalar.Ieee.round α x = x

namespace Scalar.Ieee

variable {α : Type} [Scalar α] [Ieee α] [Exact α] {a b : α} {x : EReal} {r s : ℝ}

instance : Roomy α where
  value_neg := Exact.value_neg
  round_add_le_one _ _ _ := ⟨_, Exact.round_eq _⟩

namespace Exact

theorem value_add (ha : value a = some x) (hb : value b = some (r : EReal)) :
    value (a + b) = some (x + r) := by
  rw [add_of_real_right ha hb, round_eq]

theorem value_sub (ha : value a = some x) (hb : value b = some (r : EReal)) :
    value (a - b) = some (x - r) := by
  rw [sub_of_real_right ha hb, round_eq]

theorem value_mul (ha : value a = some (r : EReal)) (hb : value b = some (s : EReal)) :
    value (a * b) = some ((r * s : ℝ) : EReal) := by
  rw [mul_of_reals ha hb, round_eq]

theorem value_div (ha : value a = some (r : EReal)) (hb : value b = some (s : EReal))
    (hs : s ≠ 0) : value (a / b) = some ((r / s : ℝ) : EReal) := by
  rw [Ieee.value_div a b hb hs, ha, Option.map_some, round_eq, EReal.coe_div]

/-- A decimal literal has its exact value. -/
theorem value_decimal {m e : ℕ} (h : (m / 10 ^ e : ℝ) = r) :
    value (OfScientific.ofScientific m true e : α) = some (r : EReal) := by
  rw [value_ofScientific, if_pos rfl, round_eq, h]

end Exact

end Scalar.Ieee

/-! ## Extended reals -/

/-- A real number, an infinity or, without a value, an undefined number. -/
structure Extended where
  value : Option EReal

namespace Extended

/-- The quotient of two extended reals, none for two zeros and two infinities. The only zero counts
as positive. -/
noncomputable def quotient? (x y : EReal) : Option EReal :=
  if y = 0 then if x = 0 then none else some (x * ⊤)
  else if (x = ⊤ ∨ x = ⊥) ∧ (y = ⊤ ∨ y = ⊥) then none
  else some (x / y)

/-- An operation on values, undefined if one of them is. -/
def lift₂ (f : EReal → EReal → Option EReal) (a b : Extended) : Extended :=
  ⟨a.value.bind fun x => b.value.bind fun y => f x y⟩

/-- A function of the reals where it is defined, with its limits at the infinities, if any. -/
noncomputable def lift (f : ℝ → Option EReal) (bot top : Option EReal) (a : Extended) :
    Extended :=
  ⟨a.value.bind fun x => if x = ⊥ then bot else if x = ⊤ then top else f x.toReal⟩

/-- A function of pairs of reals where it is defined, undefined at the infinities. -/
noncomputable def liftReals (f : ℝ → ℝ → Option EReal) : Extended → Extended → Extended :=
  lift₂ fun x y => if (x = ⊤ ∨ x = ⊥) ∨ (y = ⊤ ∨ y = ⊥) then none else f x.toReal y.toReal

/-- The real number. -/
def ofReal (r : ℝ) : Extended := ⟨some (r : EReal)⟩

end Extended

open Extended in
open Classical in
noncomputable instance : Scalar Extended where
  add := lift₂ sum?
  sub := lift₂ fun x y => sum? x (-y)
  mul := lift₂ product?
  div := lift₂ quotient?
  neg a := ⟨a.value.map fun x => -x⟩
  lt a b := ∃ x ∈ a.value, ∃ y ∈ b.value, x < y
  le a b := ∃ x ∈ a.value, ∃ y ∈ b.value, x ≤ y
  beq a b := decide (∃ x ∈ a.value, ∃ y ∈ b.value, x = y)
  ofScientific m negative e := ofReal (if negative then m / 10 ^ e else m * 10 ^ e)
  decidableLT := Classical.decRel _
  decidableLE := Classical.decRel _
  nan := ⟨none⟩
  pi := ofReal Real.pi
  turn := ofReal (Real.pi + Real.pi)
  euler := ofReal (Real.exp 1)
  golden := ofReal Real.goldenRatio
  isFinite a := decide (∃ r : ℝ, a.value = some (r : EReal))
  abs := lift (fun r => some ((Scalar.abs r : ℝ) : EReal)) (some ⊤) (some ⊤)
  floor := lift (fun r => some ((Scalar.floor r : ℝ) : EReal)) (some ⊥) (some ⊤)
  ceil := lift (fun r => some ((Scalar.ceil r : ℝ) : EReal)) (some ⊥) (some ⊤)
  round := lift (fun r => some ((Scalar.round r : ℝ) : EReal)) (some ⊥) (some ⊤)
  truncate bound a :=
    match a.value with
    | none => 0
    | some x => if x = ⊤ then bound else Scalar.truncate bound x.toReal
  remainder := liftReals fun r s => if s = 0 then none else some (Scalar.remainder r s : ℝ)
  sqrt := lift (fun r => if r < 0 then none else some (Scalar.sqrt r : ℝ)) none (some ⊤)
  cbrt := lift (fun r => some ((Scalar.cbrt r : ℝ) : EReal)) (some ⊥) (some ⊤)
  exp := lift (fun r => some ((Scalar.exp r : ℝ) : EReal)) (some 0) (some ⊤)
  ln := lift (fun r => if r < 0 then none else if r = 0 then some ⊥ else some (Scalar.ln r : ℝ))
    none (some ⊤)
  log10 := lift
    (fun r => if r < 0 then none else if r = 0 then some ⊥ else some (Scalar.log10 r : ℝ)) none
    (some ⊤)
  sin := lift (fun r => some ((Scalar.sin r : ℝ) : EReal)) none none
  cos := lift (fun r => some ((Scalar.cos r : ℝ) : EReal)) none none
  tan := lift (fun r => some ((Scalar.tan r : ℝ) : EReal)) none none
  asin := lift (fun r => if |r| ≤ 1 then some (Scalar.asin r : ℝ) else none) none none
  acos := lift (fun r => if |r| ≤ 1 then some (Scalar.acos r : ℝ) else none) none none
  atan := lift (fun r => some ((Scalar.atan r : ℝ) : EReal)) (some (-(Real.pi * 0.5) : ℝ))
    (some (Real.pi * 0.5 : ℝ))
  sinh := lift (fun r => some ((Scalar.sinh r : ℝ) : EReal)) (some ⊥) (some ⊤)
  cosh := lift (fun r => some ((Scalar.cosh r : ℝ) : EReal)) (some ⊤) (some ⊤)
  tanh := lift (fun r => some ((Scalar.tanh r : ℝ) : EReal)) (some (-1)) (some 1)
  pow := liftReals fun r s =>
    if r < 0 ∧ s ≠ ⌊s⌋ then none else if r = 0 ∧ s < 0 then some ⊤ else some (Scalar.pow r s : ℝ)
  atan2 := liftReals fun r s => some (Scalar.atan2 r s : ℝ)
  hypot := liftReals fun r s => some (Scalar.hypot r s : ℝ)

namespace Extended

theorem quotient?_of_real (x : EReal) {r : ℝ} (hr : r ≠ 0) : quotient? x r = some (x / r) := by
  unfold quotient?
  rw [if_neg (EReal.coe_ne_zero.mpr hr), if_neg]
  simp

theorem id_dyadic (n : ℤ) (k : ℕ) (_ : |n| ≤ 2 ^ 53) (_ : k ≤ 1074) :
    id ((n / 2 ^ k : ℝ) : EReal) = ((n / 2 ^ k : ℝ) : EReal) :=
  rfl

end Extended

noncomputable instance : Scalar.Ieee Extended where
  value := Extended.value
  round := id
  round_mono := monotone_id
  round_top := rfl
  round_bot := rfl
  round_dyadic := Extended.id_dyadic
  eq_of_infinite ha hb _ := congrArg Extended.mk (ha.trans hb.symm)
  value_add _ _ := by rw [Option.map_id]; rfl
  value_sub _ _ := by rw [Option.map_id]; rfl
  value_mul _ _ := by rw [Option.map_id]; rfl
  value_div a b r hb hr := by
    show (a.value.bind fun x => b.value.bind fun y => Extended.quotient? x y) = _
    cases ha : a.value with
    | none => rfl
    | some x => rw [hb, Option.bind_some, Option.bind_some, Extended.quotient?_of_real x hr]; rfl
  value_ofScientific _ _ _ := rfl
  beq_iff _ _ := decide_eq_true_iff
  lt_iff _ _ := Iff.rfl
  le_iff _ _ := Iff.rfl

/-- **Extended reals.** They follow the rules, and nothing is rounded. -/
instance : Scalar.Ieee.Exact Extended where
  value_neg _ := rfl
  round_eq _ := rfl

/-! ## Real numbers among them -/

namespace Extended

open Scalar.Ieee

variable {a b : Extended} {r s : ℝ}

theorem ofReal_add (r s : ℝ) : ofReal r + ofReal s = ofReal (r + s) :=
  congrArg mk (Exact.value_add (a := ofReal r) (b := ofReal s) rfl rfl)

theorem ofReal_sub (r s : ℝ) : ofReal r - ofReal s = ofReal (r - s) :=
  congrArg mk (Exact.value_sub (a := ofReal r) (b := ofReal s) rfl rfl)

theorem ofReal_mul (r s : ℝ) : ofReal r * ofReal s = ofReal (r * s) :=
  congrArg mk (Exact.value_mul (a := ofReal r) (b := ofReal s) rfl rfl)

theorem ofReal_div (r : ℝ) (hs : s ≠ 0) : ofReal r / ofReal s = ofReal (r / s) :=
  congrArg mk (Exact.value_div (a := ofReal r) (b := ofReal s) rfl rfl hs)

theorem ofReal_neg (r : ℝ) : -ofReal r = ofReal (-r) := rfl

theorem ofReal_two : (2.0 : Extended) = ofReal 2 :=
  congrArg ofReal (by norm_num : (20 / 10 ^ 1 : ℝ) = 2)

theorem ofReal_goldenRatio : (Scalar.golden : Extended) = ofReal Real.goldenRatio := rfl

theorem ofReal_lt_ofReal : ofReal r < ofReal s ↔ r < s := by
  rw [Scalar.Ieee.lt_iff]
  simp [ofReal, Scalar.Ieee.value]

theorem sqrt_ofReal (hr : 0 ≤ r) : Scalar.sqrt (ofReal r) = ofReal √r := by
  show lift _ _ _ _ = _
  simp [lift, ofReal, hr.not_gt, Scalar.sqrt]

theorem sqrt_ofReal_of_neg (hr : r < 0) : (Scalar.sqrt (ofReal r)).value = none := by
  show (lift _ _ _ _).value = _
  simp [lift, ofReal, hr]

theorem not_lt_of_undefined (h : a.value = none ∨ b.value = none) : ¬ a < b := by
  rintro ⟨x, hx, y, hy, -⟩
  rcases h with h | h
  · rw [h] at hx
    cases hx
  · rw [h] at hy
    cases hy

/-- An operation on an undefined number gives one. -/
theorem lift₂_undefined (f : EReal → EReal → Option EReal) (h : a.value = none ∨ b.value = none) :
    (lift₂ f a b).value = none := by
  show (a.value.bind fun x => b.value.bind fun y => f x y) = none
  rcases h with h | h
  · rw [h, Option.bind_none]
  · rw [h]
    simp

end Extended

end RollingBall
