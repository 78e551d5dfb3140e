import RollingBall.Proofs.Numbers.Ieee
import RollingBall.Proofs.Numbers.Mantissa

/-!
# Arithmetic on unpacked numbers

The four operations and the comparison on signs, mantissas and exponents give what the extended
reals give, rounded to 53 bits. The bounds of the exponent come in when the result is packed.

## Main results

* `Double.rounds_add`, `Double.rounds_sub`, `Double.rounds_mul`, `Double.rounds_div`
* `Double.compare_eq`
-/

namespace RollingBall.Double

open Float.Model Float.Model.UnpackedFloat

/-! ## Operations -/

theorem apply_eq (s : Sign) (m : ℕ) : ((s.apply m : ℤ) : ℝ) = factor s * m := by
  cases s with
  | negative => simp [Sign.apply, factor]
  | positive => simp [Sign.apply, factor]

theorem abs_apply (s : Sign) (m : ℕ) : |s.apply m| = m := by
  cases s with
  | negative => exact (abs_neg _).trans (Nat.abs_cast m)
  | positive => exact Nat.abs_cast m

/-- Canonical numbers need no rounding. -/
theorem unclipped_of_canonical {a : UnpackedFloat} (ha : Canonical a) {x : EReal}
    (hx : unpackedValue a = some x) : unclipped x = x := by
  cases a with
  | notANumber => exact absurd hx (Option.some_ne_none x).symm
  | infinity s =>
    cases s with
    | negative => exact Option.some.inj hx ▸ unclipped_bot
    | positive => exact Option.some.inj hx ▸ unclipped_top
  | zero s =>
    obtain rfl := Option.some.inj hx
    rw [← EReal.coe_zero, unclipped_coe, nearest_zero]
  | finite s m e hm =>
    obtain rfl := Option.some.inj hx
    obtain ⟨hbits, he, -⟩ := ha
    have habs : |s.apply m| < 2 ^ 53 := by
      rw [abs_apply]
      exact_mod_cast hbits
    rw [unclipped_coe, ← mul_assoc, ← apply_eq, nearest_of_bits habs he]

/-- The result of an operation is canonical and has the value that the exact one is rounded to. -/
structure Rounds (a : UnpackedFloat) (x : Option EReal) : Prop where
  canonical : Canonical a
  value : unpackedValue a = x.map unclipped

/-- The exact result of an operation on two values. -/
noncomputable def lift₂ (f : EReal → EReal → Option EReal) (x y : Option EReal) : Option EReal :=
  x.bind fun x => y.bind fun y => f x y

theorem value_signed_decreaseExponent (s : Sign) (m : ℕ) {e t : ℤ} (h : t ≤ e) :
    ((s.apply (decreaseExponent m e t).1 : ℤ) : ℝ) * 2 ^ t = factor s * (m * 2 ^ e) := by
  have hexponent : (decreaseExponent m e t).2 = t := by
    unfold decreaseExponent
    dsimp only
    omega
  have hvalue := value_decreaseExponent m e t
  rw [hexponent] at hvalue
  rw [apply_eq, mul_assoc, hvalue]

theorem rounds_of_canonical {a : UnpackedFloat} (ha : Canonical a) {x : Option EReal}
    (hx : unpackedValue a = x) : Rounds a x := by
  refine ⟨ha, ?_⟩
  subst hx
  cases hx : unpackedValue a with
  | none => rfl
  | some x => rw [Option.map_some, unclipped_of_canonical ha hx]

theorem lift₂_none_right (f : EReal → EReal → Option EReal) (x : Option EReal) :
    lift₂ f x none = none := by
  cases x with
  | none => rfl
  | some x => rfl

/-! ### Sums -/

theorem sum?_infinities (s s' : Sign) :
    lift₂ Extended.sum? (unpackedValue (.infinity s)) (unpackedValue (.infinity s')) =
      if s == s' then unpackedValue (.infinity s) else none := by
  have hne : (⊥ : EReal) ≠ ⊤ := bot_ne_top
  have hopposite : ∀ x y : EReal, x = ⊤ ∧ y = ⊥ ∨ x = ⊥ ∧ y = ⊤ → Extended.sum? x y = none :=
    fun x y h => if_pos h
  cases s with
  | negative =>
    cases s' with
    | negative => exact Extended.sum?_of_ne_top hne hne
    | positive => exact hopposite ⊥ ⊤ (.inr ⟨rfl, rfl⟩)
  | positive =>
    cases s' with
    | negative => exact hopposite ⊤ ⊥ (.inl ⟨rfl, rfl⟩)
    | positive =>
      show Extended.sum? ⊤ ⊤ = some ⊤
      unfold Extended.sum?
      rw [if_neg, EReal.top_add_top]
      rintro (⟨-, h⟩ | ⟨h, -⟩)
      · exact hne h.symm
      · exact hne h.symm

theorem sum?_infinity_left (s : Sign) (r : ℝ) :
    lift₂ Extended.sum? (unpackedValue (.infinity s)) (some r) = unpackedValue (.infinity s) := by
  cases s with
  | negative => exact (Extended.sum?_of_real_right ⊥ r).trans (by rw [EReal.bot_add]; rfl)
  | positive => exact (Extended.sum?_of_real_right ⊤ r).trans (by rw [EReal.top_add_coe]; rfl)

theorem sum?_infinity_right (r : ℝ) (s : Sign) :
    lift₂ Extended.sum? (some r) (unpackedValue (.infinity s)) = unpackedValue (.infinity s) := by
  cases s with
  | negative => exact (Extended.sum?_of_real_left r ⊥).trans (by rw [EReal.add_bot]; rfl)
  | positive => exact (Extended.sum?_of_real_left r ⊤).trans (by rw [EReal.coe_add_top]; rfl)

theorem rounds_add_finite (s s' : Sign) {m m' : ℕ} (hm : 0 < m) (hm' : 0 < m') (e e' : ℤ) :
    Rounds (UnpackedFloat.add Format.binary64 (.finite s m e hm) (.finite s' m' e' hm'))
      (Extended.sum? ((factor s * (m * 2 ^ e) : ℝ) : EReal)
        ((factor s' * (m' * 2 ^ e') : ℝ) : EReal)) := by
  obtain ⟨hcanonical, hvalue⟩ := normalize_spec
    (s.apply (decreaseExponent m e (min e e')).1 + s'.apply (decreaseExponent m' e' (min e e')).1)
    (min e e') .positive
  refine ⟨hcanonical, hvalue.trans ?_⟩
  rw [Int.cast_add, add_mul, value_signed_decreaseExponent s m (min_le_left e e'),
    value_signed_decreaseExponent s' m' (min_le_right e e'), Extended.sum?_of_real_left,
    Option.map_some, ← EReal.coe_add, unclipped_coe]

theorem rounds_add {a b : UnpackedFloat} (ha : Canonical a) (hb : Canonical b) :
    Rounds (UnpackedFloat.add Format.binary64 a b)
      (lift₂ Extended.sum? (unpackedValue a) (unpackedValue b)) := by
  cases a with
  | notANumber => exact rounds_of_canonical ha rfl
  | infinity s =>
    cases b with
    | notANumber => exact rounds_of_canonical hb (lift₂_none_right _ _).symm
    | infinity s' =>
      rw [sum?_infinities]
      unfold UnpackedFloat.add
      dsimp only
      split
      · exact rounds_of_canonical ha rfl
      · exact ⟨trivial, rfl⟩
    | zero s' => exact rounds_of_canonical ha (sum?_infinity_left s 0).symm
    | finite s' m e hm => exact rounds_of_canonical ha (sum?_infinity_left s _).symm
  | zero s =>
    cases b with
    | notANumber => exact rounds_of_canonical hb (lift₂_none_right _ _).symm
    | infinity s' => exact rounds_of_canonical hb (sum?_infinity_right 0 s').symm
    | zero s' =>
      have hzero : ∀ sign : Sign, Rounds (.zero sign) (Extended.sum? 0 0) := fun sign =>
        rounds_of_canonical (a := .zero sign) trivial (Extended.sum?_zero_left 0).symm
      unfold UnpackedFloat.add
      dsimp only
      split
      · exact hzero s
      · exact hzero .positive
    | finite s' m e hm => exact rounds_of_canonical hb (Extended.sum?_zero_left _).symm
  | finite s m e hm =>
    cases b with
    | notANumber => exact rounds_of_canonical hb (lift₂_none_right _ _).symm
    | infinity s' => exact rounds_of_canonical hb (sum?_infinity_right _ s').symm
    | zero s' => exact rounds_of_canonical ha (Extended.sum?_zero_right _).symm
    | finite s' m' e' hm' => exact rounds_add_finite s s' hm hm' e e'

/-! ### Differences -/

theorem apply_neg (s : Sign) (n : ℤ) : (-s).apply n = -s.apply n := by
  cases s with
  | negative => exact (neg_neg n).symm
  | positive => rfl

theorem canonical_neg {a : UnpackedFloat} (ha : Canonical a) : Canonical a.neg := by
  cases a with
  | notANumber => trivial
  | infinity s => trivial
  | zero s => trivial
  | finite s m e hm => exact ha

theorem unpackedValue_neg (a : UnpackedFloat) :
    unpackedValue a.neg = (unpackedValue a).map fun x => -x := by
  cases a with
  | notANumber => rfl
  | infinity s =>
    cases s with
    | negative => exact congrArg some EReal.neg_bot.symm
    | positive => exact congrArg some EReal.neg_top.symm
  | zero s => exact congrArg some neg_zero.symm
  | finite s m e hm =>
    show some ((factor (-s) * (m * 2 ^ e) : ℝ) : EReal) =
      some (-((factor s * (m * 2 ^ e) : ℝ) : EReal))
    rw [factor_neg, neg_mul, EReal.coe_neg]

/-- A difference is the sum with the opposite, the signs of zeros included. -/
theorem sub_eq_add_neg (a b : UnpackedFloat) :
    UnpackedFloat.sub Format.binary64 a b = UnpackedFloat.add Format.binary64 a b.neg := by
  cases a with
  | notANumber => rfl
  | infinity s => cases b <;> rfl
  | zero s => cases b <;> rfl
  | finite s m e hm =>
    cases b with
    | notANumber => rfl
    | infinity s' => rfl
    | zero s' => rfl
    | finite s' m' e' hm' =>
      show UnpackedFloat.normalize _ (_ - _) _ _ = UnpackedFloat.normalize _ (_ + (-s').apply _) _ _
      rw [apply_neg, Int.sub_eq_add_neg]

theorem rounds_sub {a b : UnpackedFloat} (ha : Canonical a) (hb : Canonical b) :
    Rounds (UnpackedFloat.sub Format.binary64 a b)
      (lift₂ (fun x y => Extended.sum? x (-y)) (unpackedValue a) (unpackedValue b)) := by
  have hsum := rounds_add ha (canonical_neg hb)
  rw [← sub_eq_add_neg, unpackedValue_neg] at hsum
  cases hb : unpackedValue b with
  | none =>
    rw [hb] at hsum
    exact hsum
  | some y =>
    rw [hb] at hsum
    exact hsum

/-! ### Products -/

/-- Signs and sizes are multiplied on their own. -/
theorem product?_signed (s s' : Sign) {x y : EReal} (hx : 0 < x) (hy : 0 < y) :
    lift₂ Extended.product? (some (factor s * x)) (some (factor s' * y)) =
      some (factor (s * s') * (x * y)) := by
  have hne : ∀ (s : Sign) {x : EReal}, 0 < x → (factor s : EReal) * x ≠ 0 := fun s _ hx =>
    mul_ne_zero (by exact_mod_cast factor_ne_zero s) hx.ne'
  show Extended.product? _ _ = _
  unfold Extended.product?
  rw [if_neg, factor_mul, EReal.coe_mul, mul_mul_mul_comm]
  rintro (⟨h, -⟩ | ⟨-, h⟩)
  · exact hne s hx h
  · exact hne s' hy h

theorem size_pos {m : ℕ} (hm : 0 < m) (e : ℤ) : (0 : EReal) < ((m * 2 ^ e : ℝ) : EReal) :=
  EReal.coe_pos.mpr (by positivity)

theorem unclipped_signed (s : Sign) (x : ℝ) :
    unclipped ((factor s : EReal) * x) = ((factor s * nearest x : ℝ) : EReal) := by
  rw [← EReal.coe_mul, unclipped_coe]
  cases s with
  | negative =>
    show ((nearest (-1 * x) : ℝ) : EReal) = ((-1 * nearest x : ℝ) : EReal)
    rw [neg_one_mul, neg_one_mul, nearest_neg]
  | positive =>
    show ((nearest (1 * x) : ℝ) : EReal) = ((1 * nearest x : ℝ) : EReal)
    rw [one_mul, one_mul]

/-- A product of canonical numbers has no fewer bits than fit. -/
theorem add_exponents_le_place {s s' : Sign} {m m' : ℕ} {hm : 0 < m} {hm' : 0 < m'} {e e' : ℤ}
    (ha : Canonical (.finite s m e hm)) (hb : Canonical (.finite s' m' e' hm')) :
    e + e' ≤ place (m * 2 ^ e * (m' * 2 ^ e')) := by
  obtain ⟨-, -, ha⟩ := ha
  obtain ⟨-, -, hb⟩ := hb
  by_cases hbits : 2 ^ 52 ≤ m * m'
  · refine le_place (by positivity) ?_
    have hpower : (2 ^ (e + e' + 52) : ℝ) = 2 ^ 52 * (2 ^ e * 2 ^ e') := by
      rw [zpow_add₀ (by norm_num), zpow_add₀ (by norm_num), mul_comm]
      rfl
    have hproduct : (m * 2 ^ e * (m' * 2 ^ e') : ℝ) = (m * m' : ℕ) * (2 ^ e * 2 ^ e') := by
      push_cast
      ring
    rw [hpower, hproduct]
    refine mul_le_mul_of_nonneg_right ?_ (by positivity)
    exact_mod_cast hbits
  · -- Then both factors have the least exponent, and the sum of the two is below every place.
    have hle : m ≤ m * m' := Nat.le_mul_of_pos_right m hm'
    have hle' : m' ≤ m * m' := Nat.le_mul_of_pos_left m' hm
    have hleast : -1074 ≤ place (m * 2 ^ e * (m' * 2 ^ e')) := le_max_right _ _
    omega

theorem rounds_mul_finite (s s' : Sign) {m m' : ℕ} (hm : 0 < m) (hm' : 0 < m') {e e' : ℤ}
    (h : e + e' ≤ place (m * 2 ^ e * (m' * 2 ^ e'))) :
    Rounds (UnpackedFloat.mul Format.binary64 (.finite s m e hm) (.finite s' m' e' hm'))
      (some (factor (s * s') * (((m * 2 ^ e : ℝ) : EReal) * ((m' * 2 ^ e' : ℝ) : EReal)))) := by
  have hx : (0 : ℝ) < m * 2 ^ e * (m' * 2 ^ e') := by positivity
  have hlocates : Locates (.ofMantissaAndAccuracy (m * m') .exact)
      (m * 2 ^ e * (m' * 2 ^ e') / 2 ^ (e + e') : ℝ) := by
    have hproduct : (m * 2 ^ e * (m' * 2 ^ e') / 2 ^ (e + e') : ℝ) = (m * m' : ℕ) := by
      rw [zpow_add₀ (by norm_num), div_eq_iff (by positivity)]
      push_cast
      ring
    rw [hproduct]
    exact locates_exact _
  obtain ⟨hcanonical, hvalue⟩ := roundWithAccuracy_spec (s * s') hx hlocates h
    (fun hzero => absurd hzero (Nat.mul_pos hm hm').ne')
  refine ⟨hcanonical, hvalue.trans ?_⟩
  rw [Option.map_some, ← EReal.coe_mul, unclipped_signed]

theorem product?_zero_infinity (s : Sign) :
    lift₂ Extended.product? (some 0) (unpackedValue (.infinity s)) = none := by
  cases s with
  | negative => exact if_pos (.inl ⟨rfl, .inr rfl⟩)
  | positive => exact if_pos (.inl ⟨rfl, .inl rfl⟩)

theorem product?_infinity_zero (s : Sign) :
    lift₂ Extended.product? (unpackedValue (.infinity s)) (some 0) = none := by
  cases s with
  | negative => exact if_pos (.inr ⟨.inr rfl, rfl⟩)
  | positive => exact if_pos (.inr ⟨.inl rfl, rfl⟩)

theorem rounds_mul {a b : UnpackedFloat} (ha : Canonical a) (hb : Canonical b) :
    Rounds (UnpackedFloat.mul Format.binary64 a b)
      (lift₂ Extended.product? (unpackedValue a) (unpackedValue b)) := by
  cases a with
  | notANumber => exact rounds_of_canonical ha rfl
  | infinity s =>
    cases b with
    | notANumber => exact rounds_of_canonical hb (lift₂_none_right _ _).symm
    | infinity s' =>
      refine rounds_of_canonical (a := .infinity (s * s')) trivial ?_
      rw [unpackedValue_infinity, unpackedValue_infinity, unpackedValue_infinity,
        product?_signed s s' EReal.zero_lt_top EReal.zero_lt_top, EReal.top_mul_top]
    | zero s' =>
      exact rounds_of_canonical (a := .notANumber) trivial (product?_infinity_zero s).symm
    | finite s' m e hm =>
      refine rounds_of_canonical (a := .infinity (s * s')) trivial ?_
      rw [unpackedValue_infinity, unpackedValue_infinity, unpackedValue_finite,
        product?_signed s s' EReal.zero_lt_top (size_pos hm e),
        EReal.top_mul_of_pos (size_pos hm e)]
  | zero s =>
    cases b with
    | notANumber => exact rounds_of_canonical hb (lift₂_none_right _ _).symm
    | infinity s' =>
      exact rounds_of_canonical (a := .notANumber) trivial (product?_zero_infinity s').symm
    | zero s' =>
      exact rounds_of_canonical (a := .zero (s * s')) trivial (Extended.product?_zero_left 0).symm
    | finite s' m e hm =>
      exact rounds_of_canonical (a := .zero (s * s')) trivial (Extended.product?_zero_left _).symm
  | finite s m e hm =>
    cases b with
    | notANumber => exact rounds_of_canonical hb (lift₂_none_right _ _).symm
    | infinity s' =>
      refine rounds_of_canonical (a := .infinity (s * s')) trivial ?_
      rw [unpackedValue_infinity, unpackedValue_infinity, unpackedValue_finite,
        product?_signed s s' (size_pos hm e) EReal.zero_lt_top,
        EReal.mul_top_of_pos (size_pos hm e)]
    | zero s' =>
      exact rounds_of_canonical (a := .zero (s * s')) trivial (Extended.product?_zero_right _).symm
    | finite s' m' e' hm' =>
      rw [unpackedValue_finite, unpackedValue_finite,
        product?_signed s s' (size_pos hm e) (size_pos hm' e')]
      exact rounds_mul_finite s s' hm hm' (add_exponents_le_place ha hb)

/-! ### Quotients -/

theorem sign_div_eq_mul (s s' : Sign) : s / s' = s * s' := by
  cases s <;> cases s' <;> rfl

/-- The exponent that a quotient of two numbers is computed with. -/
def quotientExponent (m : ℕ) (e : ℤ) (m' : ℕ) (e' : ℤ) : ℤ :=
  min (e - e') (max ((m.log2 : ℤ) + e - (m'.log2 + e') - 53) (-1074))

theorem divCore_eq (m : ℕ) (e : ℤ) (m' : ℕ) (e' : ℤ) :
    divCore Format.binary64 m e m' e' =
      (m <<< (e - e' - quotientExponent m e m' e').toNat / m', quotientExponent m e m' e',
        accuracyOfFraction (m <<< (e - e' - quotientExponent m e m' e').toNat % m') m') := by
  have htarget : min (e - e')
      (Format.binary64.targetExponent (totalExponent m e - totalExponent m' e')) =
        quotientExponent m e m' e' := by
    have hmin : Format.binary64.minExponent = -1074 := by decide
    unfold Format.targetExponent totalExponent quotientExponent
    rw [hmin]
    show min (e - e') (max ((m.log2 : ℤ) + 1 + e - (m'.log2 + 1 + e') - 53) (-1074)) = _
    omega
  unfold divCore
  dsimp only
  rw [htarget]

section Quotient

variable {m m' : ℕ} (hm : 0 < m) (hm' : 0 < m') (e e' : ℤ)

include hm hm'

theorem quotientExponent_le_place :
    quotientExponent m e m' e' ≤ place (m * 2 ^ e / (m' * 2 ^ e')) := by
  have hleast : -1074 ≤ place (m * 2 ^ e / (m' * 2 ^ e')) := le_max_right _ _
  have hle : (m.log2 : ℤ) + e - (m'.log2 + e') - 53 ≤ place (m * 2 ^ e / (m' * 2 ^ e')) := by
    refine le_place (by positivity) ?_
    rw [le_div_iff₀ (by positivity)]
    have hlow : (2 ^ m.log2 : ℝ) ≤ m := by exact_mod_cast Nat.log2_self_le hm.ne'
    have hhigh : (m' : ℝ) ≤ 2 ^ (m'.log2 + 1) := by exact_mod_cast (Nat.lt_log2_self (n := m')).le
    calc (2 ^ ((m.log2 : ℤ) + e - (m'.log2 + e') - 53 + 52) * (m' * 2 ^ e') : ℝ)
        ≤ 2 ^ ((m.log2 : ℤ) + e - (m'.log2 + e') - 53 + 52) * (2 ^ (m'.log2 + 1) * 2 ^ e') :=
          mul_le_mul_of_nonneg_left (mul_le_mul_of_nonneg_right hhigh (by positivity))
            (by positivity)
      _ = 2 ^ m.log2 * 2 ^ e := by
          rw [← zpow_natCast, ← zpow_natCast, ← zpow_add₀ (by norm_num),
            ← zpow_add₀ (by norm_num), ← zpow_add₀ (by norm_num)]
          congr 1
          push_cast
          ring
      _ ≤ m * 2 ^ e := mul_le_mul_of_nonneg_right hlow (by positivity)
  unfold quotientExponent
  omega

/-- The quotient has bits enough unless it is as small as it may be. -/
theorem quotientExponent_le_of_quotient_eq_zero
    (h : m <<< (e - e' - quotientExponent m e m' e').toNat / m' = 0) :
    quotientExponent m e m' e' ≤ -1074 := by
  by_contra hgreat
  have hshift : m'.log2 + 1 ≤ m.log2 + (e - e' - quotientExponent m e m' e').toNat := by
    unfold quotientExponent at hgreat ⊢
    omega
  have hle : m' ≤ m <<< (e - e' - quotientExponent m e m' e').toNat := by
    rw [Nat.shiftLeft_eq]
    calc m' ≤ 2 ^ (m'.log2 + 1) := Nat.lt_log2_self.le
      _ ≤ 2 ^ (m.log2 + (e - e' - quotientExponent m e m' e').toNat) :=
          Nat.pow_le_pow_right (by norm_num) hshift
      _ = 2 ^ m.log2 * 2 ^ (e - e' - quotientExponent m e m' e').toNat := Nat.pow_add ..
      _ ≤ m * 2 ^ (e - e' - quotientExponent m e m' e').toNat :=
          Nat.mul_le_mul_right _ (Nat.log2_self_le hm.ne')
  exact absurd h (Nat.div_pos hle hm').ne'

omit hm in
theorem quotient_div_zpow :
    (m * 2 ^ e / (m' * 2 ^ e') / 2 ^ quotientExponent m e m' e' : ℝ) =
      (m <<< (e - e' - quotientExponent m e m' e').toNat : ℕ) / m' := by
  have hle : quotientExponent m e m' e' ≤ e - e' := min_le_left _ _
  have hpower : (2 ^ (e - e' - quotientExponent m e m' e').toNat *
      (2 ^ e' * 2 ^ quotientExponent m e m' e') : ℝ) = 2 ^ e := by
    rw [← zpow_natCast, ← zpow_add₀ (by norm_num), ← zpow_add₀ (by norm_num)]
    congr 1
    omega
  rw [Nat.shiftLeft_eq, div_div, div_eq_div_iff (by positivity) (by positivity), ← hpower]
  push_cast
  ring

theorem rounds_div_finite (s s' : Sign) :
    Rounds (UnpackedFloat.div Format.binary64 (.finite s m e hm) (.finite s' m' e' hm'))
      (some (factor (s * s') * ((m * 2 ^ e / (m' * 2 ^ e') : ℝ) : EReal))) := by
  have hx : (0 : ℝ) < m * 2 ^ e / (m' * 2 ^ e') := by positivity
  have hlocates := locates_quotient (m <<< (e - e' - quotientExponent m e m' e').toNat) hm'
  rw [← quotient_div_zpow hm' e e'] at hlocates
  obtain ⟨hcanonical, hvalue⟩ := roundWithAccuracy_spec (s * s') hx hlocates
    (quotientExponent_le_place hm hm' e e') (quotientExponent_le_of_quotient_eq_zero hm hm' e e')
  have hdiv : UnpackedFloat.div Format.binary64 (.finite s m e hm) (.finite s' m' e' hm') =
      roundWithAccuracy Format.binary64 (s * s')
        (m <<< (e - e' - quotientExponent m e m' e').toNat / m') (quotientExponent m e m' e')
        (accuracyOfFraction (m <<< (e - e' - quotientExponent m e m' e').toNat % m') m') := by
    unfold UnpackedFloat.div
    dsimp only
    rw [divCore_eq, sign_div_eq_mul]
  rw [hdiv]
  refine ⟨hcanonical, hvalue.trans ?_⟩
  rw [Option.map_some, unclipped_signed]

end Quotient

/-- Division by a number is multiplication with its sign and the inverse of its size. -/
theorem signed_div (s s' : Sign) (x : EReal) (r : ℝ) :
    (factor s * x : EReal) / ((factor s' * r : ℝ) : EReal) =
      factor (s * s') * (x / (r : EReal)) := by
  have hinv : (factor s')⁻¹ = factor s' := by
    cases s' with
    | negative => norm_num [factor]
    | positive => norm_num [factor]
  rw [EReal.div_eq_inv_mul, EReal.div_eq_inv_mul, ← EReal.coe_inv, ← EReal.coe_inv, mul_inv, hinv,
    EReal.coe_mul, factor_mul, EReal.coe_mul, mul_mul_mul_comm, mul_comm (factor s' : EReal)]

theorem rounds_div {a : UnpackedFloat} (ha : Canonical a) (s' : Sign) {m' : ℕ} (hm' : 0 < m')
    (e' : ℤ) :
    Rounds (UnpackedFloat.div Format.binary64 a (.finite s' m' e' hm'))
      ((unpackedValue a).map fun x => x / ((factor s' * (m' * 2 ^ e') : ℝ) : EReal)) := by
  have hsize : (0 : ℝ) < m' * 2 ^ e' := by positivity
  cases a with
  | notANumber => exact rounds_of_canonical ha rfl
  | infinity s =>
    refine rounds_of_canonical (a := .infinity (s / s')) trivial ?_
    rw [unpackedValue_infinity, unpackedValue_infinity, Option.map_some, signed_div,
      EReal.top_div_of_pos_ne_top (EReal.coe_pos.mpr hsize) (EReal.coe_ne_top _), sign_div_eq_mul]
  | zero s =>
    refine rounds_of_canonical (a := .zero (s / s')) trivial ?_
    exact congrArg some (EReal.zero_div).symm
  | finite s m e hm =>
    rw [unpackedValue_finite, Option.map_some, signed_div, ← EReal.coe_div]
    exact rounds_div_finite hm hm' e e' s s'

/-! ## Comparing -/

section Sizes

variable {s s' : Sign} {m m' : ℕ} {hm : 0 < m} {hm' : 0 < m'} {e e' : ℤ}

theorem size_lt_of_lt (ha : Canonical (.finite s m e hm)) (hb : Canonical (.finite s' m' e' hm'))
    (h : e < e') : (m * 2 ^ e : ℝ) < m' * 2 ^ e' := by
  have hhigh : (m : ℝ) < 2 ^ 53 := by exact_mod_cast ha.1
  have hlow : (2 ^ 52 : ℝ) ≤ m' := by
    have hleast := ha.2.1
    exact_mod_cast hb.2.2.resolve_right (by omega)
  calc (m * 2 ^ e : ℝ) < 2 ^ 53 * 2 ^ e := mul_lt_mul_of_pos_right hhigh (by positivity)
    _ = 2 ^ 52 * 2 ^ (e + 1) := by
        rw [zpow_add_one₀ (by norm_num)]
        ring
    _ ≤ m' * 2 ^ e' := mul_le_mul hlow (zpow_le_zpow_right₀ (by norm_num) (by omega))
        (by positivity) (by positivity)

/-- The exponents decide which size is greater, and the mantissas if they are equal. -/
theorem cmp_sizes (ha : Canonical (.finite s m e hm)) (hb : Canonical (.finite s' m' e' hm')) :
    cmp (m * 2 ^ e : ℝ) (m' * 2 ^ e') = (compare e e').then (compare m m') := by
  rcases lt_trichotomy e e' with hlt | rfl | hgt
  · rw [Int.compare_eq_lt.mpr hlt, (cmp_eq_lt_iff _ _).mpr (size_lt_of_lt ha hb hlt)]
    rfl
  · have hscale : StrictMono fun n : ℕ => (n * 2 ^ e : ℝ) := by
      intro n n' hlt
      exact mul_lt_mul_of_pos_right (by exact_mod_cast hlt) (by positivity)
    rw [Int.compare_eq_eq.mpr rfl, hscale.cmp_map_eq, cmp_eq_compare]
    rfl
  · rw [Int.compare_eq_gt.mpr hgt, (cmp_eq_gt_iff _ _).mpr (size_lt_of_lt hb ha hgt)]
    rfl

theorem cmp_finite (ha : Canonical (.finite s m e hm)) (hb : Canonical (.finite s' m' e' hm')) :
    UnpackedFloat.compare (.finite s m e hm) (.finite s' m' e' hm') =
      some (cmp ((factor s * (m * 2 ^ e) : ℝ) : EReal)
        ((factor s' * (m' * 2 ^ e') : ℝ) : EReal)) := by
  have hpos : (0 : ℝ) < m * 2 ^ e := by positivity
  have hpos' : (0 : ℝ) < m' * 2 ^ e' := by positivity
  rw [EReal.coe_strictMono.cmp_map_eq]
  cases s with
  | negative =>
    cases s' with
    | negative =>
      show some ((compare e e').then (compare m m')).swap =
        some (cmp (-1 * (m * 2 ^ e) : ℝ) (-1 * (m' * 2 ^ e')))
      have hneg : StrictAnti fun x : ℝ => -x := strictMono_id.neg
      rw [neg_one_mul, neg_one_mul, hneg.cmp_map_eq, ← cmp_sizes ha hb, cmp_swap]
    | positive =>
      have hlt : (-1 * (m * 2 ^ e) : ℝ) < 1 * (m' * 2 ^ e') := by linarith
      exact congrArg some ((cmp_eq_lt_iff _ _).mpr hlt).symm
  | positive =>
    cases s' with
    | negative =>
      have hlt : (-1 * (m' * 2 ^ e') : ℝ) < 1 * (m * 2 ^ e) := by linarith
      exact congrArg some ((cmp_eq_gt_iff _ _).mpr hlt).symm
    | positive =>
      show some ((compare e e').then (compare m m')) =
        some (cmp (1 * (m * 2 ^ e) : ℝ) (1 * (m' * 2 ^ e')))
      rw [one_mul, one_mul, cmp_sizes ha hb]

end Sizes

theorem finite_neg (m : ℕ) (e : ℤ) (hm : 0 < m) :
    ((factor .negative * (m * 2 ^ e) : ℝ) : EReal) < 0 := by
  have hpos : (0 : ℝ) < m * 2 ^ e := by positivity
  rw [← EReal.coe_zero, EReal.coe_lt_coe_iff]
  show -1 * (m * 2 ^ e : ℝ) < 0
  linarith

theorem finite_pos (m : ℕ) (e : ℤ) (hm : 0 < m) :
    (0 : EReal) < ((factor .positive * (m * 2 ^ e) : ℝ) : EReal) := by
  rw [← EReal.coe_zero, EReal.coe_lt_coe_iff]
  show (0 : ℝ) < 1 * (m * 2 ^ e)
  positivity

/-- **Comparison.** The code compares canonical numbers as their values are compared, and an
undefined one with nothing. -/
theorem compare_eq {a b : UnpackedFloat} (ha : Canonical a) (hb : Canonical b) :
    UnpackedFloat.compare a b =
      (unpackedValue a).bind fun x => (unpackedValue b).map fun y => cmp x y := by
  have hlt : ∀ {x y : EReal}, x < y → some Ordering.lt = some (cmp x y) := fun h =>
    congrArg some ((cmp_eq_lt_iff _ _).mpr h).symm
  have hgt : ∀ {x y : EReal}, y < x → some Ordering.gt = some (cmp x y) := fun h =>
    congrArg some ((cmp_eq_gt_iff _ _).mpr h).symm
  have heq : ∀ x : EReal, some Ordering.eq = some (cmp x x) := fun x =>
    congrArg some (cmp_self_eq_eq x).symm
  cases a with
  | notANumber => rfl
  | infinity s =>
    cases b with
    | notANumber => cases s <;> rfl
    | infinity s' =>
      cases s with
      | negative =>
        cases s' with
        | negative => exact heq ⊥
        | positive => exact hlt bot_lt_top
      | positive =>
        cases s' with
        | negative => exact hgt bot_lt_top
        | positive => exact heq ⊤
    | zero s' =>
      cases s with
      | negative => exact hlt EReal.bot_lt_zero
      | positive => exact hgt EReal.zero_lt_top
    | finite s' m' e' hm' =>
      cases s with
      | negative => exact hlt (EReal.bot_lt_coe _)
      | positive => exact hgt (EReal.coe_lt_top _)
  | zero s =>
    cases b with
    | notANumber => rfl
    | infinity s' =>
      cases s' with
      | negative => exact hgt EReal.bot_lt_zero
      | positive => exact hlt EReal.zero_lt_top
    | zero s' => exact heq 0
    | finite s' m' e' hm' =>
      cases s' with
      | negative => exact hgt (finite_neg m' e' hm')
      | positive => exact hlt (finite_pos m' e' hm')
  | finite s m e hm =>
    cases b with
    | notANumber => cases s <;> rfl
    | infinity s' =>
      cases s' with
      | negative => cases s <;> exact hgt (EReal.bot_lt_coe _)
      | positive => cases s <;> exact hlt (EReal.coe_lt_top _)
    | zero s' =>
      cases s with
      | negative => exact hlt (finite_neg m e hm)
      | positive => exact hgt (finite_pos m e hm)
    | finite s' m' e' hm' => exact cmp_finite ha hb

end RollingBall.Double
