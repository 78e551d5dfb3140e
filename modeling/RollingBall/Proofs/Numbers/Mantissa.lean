import Mathlib.Data.EReal.Operations
import RollingBall.Proofs.Numbers.Nearest

/-!
# Rounding mantissas

A number on its way to a double is a mantissa, an exponent and what was left out. The code shifts
the mantissa to the place that the size of the number asks for, keeps two residual bits, and rounds.
The result is the nearest number of 53 bits.

## Main results

* `Double.Locates`: what a mantissa and its residual bits say of a number.
* `Double.roundWithAccuracy_spec`, `Double.normalize_spec`: rounding gives the nearest number.
-/

namespace RollingBall.Double

open Float.Model Float.Model.UnpackedFloat

/-! ## Residual bits -/

/-- A mantissa and its two residual bits tell where a number is: in which half below which integer,
and whether at the lower end of it. -/
structure Locates (em : ExtendedMantissa) (x : ℝ) : Prop where
  floor : ⌊2 * x⌋ = 2 * em.mantissa + em.roundBit.toNat
  sticky : em.stickyBit = false ↔ 2 * x = ⌊2 * x⌋

namespace Locates

variable {em : ExtendedMantissa} {x : ℝ}

theorem roundedMantissa (h : Locates em x) : (em.roundedMantissa : ℤ) = nearestInt x := by
  obtain ⟨m, roundBit, sticky⟩ := em
  have hfloor : ⌊2 * x⌋ = 2 * m + roundBit.toNat := h.floor
  have htie : (2 * x = ⌊2 * x⌋ ∧ ⌊2 * x⌋ % 4 = 1) ↔
      (sticky = false ∧ (2 * (m : ℤ) + roundBit.toNat) % 4 = 1) := by
    rw [h.sticky, hfloor]
  unfold nearestInt
  rw [if_congr htie rfl rfl, hfloor]
  cases roundBit <;> cases sticky <;>
    simp [ExtendedMantissa.roundedMantissa, ExtendedMantissa.accuracy, Accuracy.roundToNearestEven]
  · omega
  · omega
  · split <;> omega
  · omega

theorem floor_eq (h : Locates em x) : ⌊x⌋ = em.mantissa := by
  have hhalf : ⌊2 * x⌋ / 2 = ⌊x⌋ := by
    simpa using Int.natCast_mul_floor_div_cancel (n := 2) two_ne_zero x
  have hbit := Bool.toNat_le em.roundBit
  rw [← hhalf, h.floor]
  omega

/-- The number is the mantissa itself if there is nothing in the residual bits. -/
theorem eq_floor_iff (h : Locates em x) :
    (em.roundBit || em.stickyBit) = false ↔ x = ⌊x⌋ := by
  have hfloor := h.floor
  rw [h.floor_eq, Bool.or_eq_false_iff, h.sticky, hfloor]
  push_cast
  constructor
  · rintro ⟨hround, hx⟩
    rw [hround, Bool.toNat_false] at hx
    linarith [show ((0 : ℕ) : ℝ) = 0 from Nat.cast_zero]
  · intro hx
    have hbit : em.roundBit = false := by
      rw [hx, ← Int.cast_natCast, ← Int.cast_ofNat, ← Int.cast_mul, Int.floor_intCast] at hfloor
      cases hround : em.roundBit with
      | false => rfl
      | true =>
        rw [hround, Bool.toNat_true] at hfloor
        omega
    rw [hbit, Bool.toNat_false, Nat.cast_zero, add_zero]
    exact ⟨rfl, by rw [← hx]⟩

theorem shiftRightOne (h : Locates em x) : Locates em.shiftRightOne (x / 2) where
  floor := by
    rw [mul_div_cancel₀ x two_ne_zero, h.floor_eq]
    show (em.mantissa : ℤ) = 2 * (em.mantissa / 2 : ℕ) + (em.mantissa % 2 != 0).toNat
    rcases Nat.mod_two_eq_zero_or_one em.mantissa with hm | hm
    · rw [hm, bne_self_eq_false, Bool.toNat_false]
      omega
    · rw [hm, show (1 != 0) = true from rfl, Bool.toNat_true]
      omega
  sticky := by
    rw [mul_div_cancel₀ x two_ne_zero]
    exact h.eq_floor_iff

theorem shiftRight (h : Locates em x) (n : ℕ) : Locates (em >>> n) (x / 2 ^ n) := by
  show Locates (n.repeat ExtendedMantissa.shiftRightOne em) (x / 2 ^ n)
  induction n with
  | zero =>
    rw [pow_zero, div_one]
    exact h
  | succ n ih =>
    rw [pow_succ, ← div_div]
    exact ih.shiftRightOne

end Locates

theorem floor_two_mul (m : ℕ) : ⌊2 * (m : ℝ)⌋ = 2 * m := by
  exact_mod_cast Int.floor_natCast (R := ℝ) (2 * m)

/-- A mantissa without residual bits is the number. -/
theorem locates_exact (m : ℕ) : Locates (.ofMantissaAndAccuracy m .exact) m := by
  refine ⟨floor_two_mul m, ?_⟩
  rw [floor_two_mul]
  push_cast
  exact ⟨fun _ => rfl, fun _ => rfl⟩

/-- The residual bits of a quotient: the next bit and whether more is left. -/
theorem residual_bits (q : ℕ) {r n : ℕ} (h : r < n) :
    (ExtendedMantissa.ofMantissaAndAccuracy q (accuracyOfFraction r n)).roundBit.toNat =
        2 * r / n ∧
      ((ExtendedMantissa.ofMantissaAndAccuracy q (accuracyOfFraction r n)).stickyBit = false ↔
        2 * r % n = 0) := by
  unfold accuracyOfFraction
  by_cases hr : r = 0
  · rw [if_pos hr, hr, Nat.mul_zero, Nat.zero_div, Nat.zero_mod]
    exact ⟨rfl, fun _ => rfl, fun _ => rfl⟩
  rw [if_neg hr]
  rcases Nat.lt_trichotomy (2 * r) n with hlt | heq | hgt
  · rw [Nat.compare_eq_lt.mpr hlt, Nat.div_eq_of_lt hlt, Nat.mod_eq_of_lt hlt]
    exact ⟨rfl, by simp [ExtendedMantissa.ofMantissaAndAccuracy, hr]⟩
  · rw [Nat.compare_eq_eq.mpr heq, heq, Nat.div_self (by omega), Nat.mod_self]
    exact ⟨rfl, fun _ => rfl, fun _ => rfl⟩
  · have hdiv : 2 * r / n = 1 := by
      rw [Nat.div_eq_iff (by omega)]
      omega
    have hmod : 2 * r % n ≠ 0 := by
      have hsplit := Nat.div_add_mod (2 * r) n
      rw [hdiv] at hsplit
      omega
    rw [Nat.compare_eq_gt.mpr hgt, hdiv]
    exact ⟨rfl, by simp [ExtendedMantissa.ofMantissaAndAccuracy, hmod]⟩

theorem mantissa_ofMantissaAndAccuracy (q : ℕ) (accuracy : Accuracy) :
    (ExtendedMantissa.ofMantissaAndAccuracy q accuracy).mantissa = q := by
  rcases accuracy with _ | _ | _ | _ <;> rfl

/-- The quotient of two mantissas and what is left tell where the exact quotient is. -/
theorem locates_quotient (m : ℕ) {n : ℕ} (hn : 0 < n) :
    Locates (.ofMantissaAndAccuracy (m / n) (accuracyOfFraction (m % n) n)) ((m : ℝ) / n) := by
  obtain ⟨hround, hsticky⟩ := residual_bits (m / n) (Nat.mod_lt m hn)
  have hsplit : 2 * m = n * (2 * (m / n)) + 2 * (m % n) := by
    conv_lhs => rw [← Nat.div_add_mod m n]
    ring
  have hfloor : ⌊2 * ((m : ℝ) / n)⌋ = ((2 * m / n : ℕ) : ℤ) := by
    rw [← mul_div_assoc, Int.floor_div_natCast, floor_two_mul]
    push_cast
    rfl
  constructor
  · rw [hfloor, hround, mantissa_ofMantissaAndAccuracy, hsplit, Nat.mul_add_div hn]
    push_cast
    rfl
  · have hmod : 2 * m % n = 2 * (m % n) % n := by
      conv_lhs => rw [hsplit, Nat.mul_add_mod]
    have hreal : (2 * ((m : ℝ) / n) = ((2 * m / n : ℕ) : ℤ)) ↔ 2 * m = 2 * m / n * n := by
      rw [← mul_div_assoc, div_eq_iff (by positivity)]
      exact_mod_cast Iff.rfl
    have hdiv := Nat.div_add_mod (2 * m) n
    rw [hsticky, hfloor, hreal, ← hmod]
    rw [Nat.mul_comm] at hdiv
    omega

/-! ## Values -/

/-- The sign as a factor. -/
def factor : Sign → ℝ
  | .negative => -1
  | .positive => 1

/-- The value of an unpacked number. -/
noncomputable def unpackedValue : UnpackedFloat → Option EReal
  | .notANumber => none
  | .infinity .negative => some ⊥
  | .infinity .positive => some ⊤
  | .zero _ => some 0
  | .finite s m e _ => some ((factor s * size m e : ℝ) : EReal)

/-- The mantissa has 53 bits, or fewer with the least exponent. -/
def Canonical : UnpackedFloat → Prop
  | .finite _ m e _ => m < 2 ^ 53 ∧ -1074 ≤ e ∧ (2 ^ 52 ≤ m ∨ e = -1074)
  | _ => True

theorem factor_neg (s : Sign) : factor (-s) = -factor s := by
  cases s with
  | negative => exact (neg_neg 1).symm
  | positive => rfl

theorem factor_mul (s s' : Sign) : factor (s * s') = factor s * factor s' := by
  cases s with
  | negative =>
    cases s' with
    | negative =>
      show (1 : ℝ) = -1 * -1
      norm_num
    | positive => exact (mul_one (-1)).symm
  | positive =>
    cases s' with
    | negative => exact (one_mul (-1)).symm
    | positive => exact (one_mul 1).symm

@[simp] theorem abs_factor (s : Sign) : |factor s| = 1 := by
  cases s with
  | negative => norm_num [factor]
  | positive => norm_num [factor]

theorem factor_ne_zero (s : Sign) : factor s ≠ 0 := by
  cases s with
  | negative => norm_num [factor]
  | positive => norm_num [factor]

/-- The infinity of a sign. -/
theorem unpackedValue_infinity (s : Sign) :
    unpackedValue (.infinity s) = some ((factor s : EReal) * ⊤) := by
  cases s with
  | negative => exact congrArg some (EReal.coe_mul_top_of_neg (by norm_num [factor])).symm
  | positive => exact congrArg some (EReal.coe_mul_top_of_pos (by norm_num [factor])).symm

theorem unpackedValue_finite (s : Sign) (m : ℕ) (e : ℤ) (hm : 0 < m) :
    unpackedValue (.finite s m e hm) = some ((factor s : EReal) * ((m * 2 ^ e : ℝ) : EReal)) :=
  congrArg some (EReal.coe_mul _ _)

theorem eq_infinity {a : UnpackedFloat} {s : Sign}
    (h : unpackedValue a = unpackedValue (.infinity s)) : a = .infinity s := by
  have hreal : ∀ r : ℝ, some (r : EReal) ≠ unpackedValue (.infinity s) := by
    intro r hr
    cases s with
    | negative => exact EReal.coe_ne_bot r (Option.some.inj hr)
    | positive => exact EReal.coe_ne_top r (Option.some.inj hr)
  have hne : (⊥ : EReal) ≠ ⊤ := bot_ne_top
  cases a with
  | notANumber => cases s <;> exact absurd h.symm (Option.some_ne_none _)
  | infinity s' =>
    cases s with
    | negative =>
      cases s' with
      | negative => rfl
      | positive => exact absurd (Option.some.inj h).symm hne
    | positive =>
      cases s' with
      | negative => exact absurd (Option.some.inj h) hne
      | positive => rfl
  | zero s' => exact absurd h (hreal 0)
  | finite s' m e hm => exact absurd h (hreal _)

/-! ## Rounding -/

theorem targetExponent_eq (m : ℕ) (e : ℤ) :
    Format.binary64.targetExponent (totalExponent m e) = max ((m.log2 : ℤ) + e - 52) (-1074) := by
  have hmin : Format.binary64.minExponent = -1074 := by decide
  unfold Format.targetExponent totalExponent
  rw [hmin]
  show max ((m.log2 : ℤ) + 1 + e - 53) (-1074) = _
  omega

/-- The code puts the last place where it is for the exact number. -/
theorem targetExponent_eq_place {m : ℕ} {e : ℤ} {x : ℝ} (hx : 0 < x) (hlow : m * 2 ^ e ≤ x)
    (hhigh : x < (m + 1) * 2 ^ e) (hzero : m = 0 → e ≤ -1074) :
    Format.binary64.targetExponent (totalExponent m e) = place x := by
  rw [targetExponent_eq]
  unfold place
  rw [abs_of_pos hx]
  by_cases hm : m = 0
  · -- No bit of the number is in the mantissa, so it is below the least place.
    have hlog : Int.log 2 x < e := by
      rw [← Int.lt_zpow_iff_log_lt (by norm_num) hx]
      simpa [hm] using hhigh
    have he := hzero hm
    rw [hm, Nat.log2_zero]
    omega
  · have hlog : Int.log 2 x = m.log2 + e := by
      have hle : (2 : ℝ) ^ ((m.log2 : ℤ) + e) ≤ x := by
        rw [zpow_add₀ (by norm_num), zpow_natCast]
        refine le_trans (mul_le_mul_of_nonneg_right ?_ (by positivity)) hlow
        exact_mod_cast Nat.log2_self_le hm
      have hlt : x < (2 : ℝ) ^ ((m.log2 : ℤ) + e + 1) := by
        rw [add_right_comm, zpow_add₀ (by norm_num)]
        refine hhigh.trans_le (mul_le_mul_of_nonneg_right ?_ (by positivity))
        exact_mod_cast (Nat.lt_log2_self (n := m))
      have hge := (Int.zpow_le_iff_le_log (b := 2) (by norm_num) hx).mp (by exact_mod_cast hle)
      have hle := (Int.lt_zpow_iff_log_lt (b := 2) (by norm_num) hx).mp (by exact_mod_cast hlt)
      omega
    rw [hlog]

theorem shiftToExponent_eq (m : ℕ) (accuracy : Accuracy) {e t : ℤ} (h : e ≤ t) :
    shiftToExponent m e accuracy t =
      (ExtendedMantissa.ofMantissaAndAccuracy m accuracy >>> (t - e).toNat, t) := by
  have hexponent : e + ((t - e).toNat : ℤ) = t := by omega
  unfold shiftToExponent
  dsimp only
  rw [hexponent]

/-- After rounding, a mantissa is shifted once more if it has become too great, and by one bit. -/
theorem shift_carry {m : ℕ} {e : ℤ} (hm : m ≤ 2 ^ 53) (he : -1074 ≤ e) :
    shiftToTargetExponent Format.binary64 m e .exact =
      if m = 2 ^ 53 then (⟨2 ^ 52, false, false⟩, e + 1) else (⟨m, false, false⟩, e) := by
  unfold shiftToTargetExponent
  dsimp only
  rw [targetExponent_eq]
  by_cases hcarry : m = 2 ^ 53
  · rw [if_pos hcarry, hcarry, Nat.log2_two_pow, max_eq_left (by omega),
      shiftToExponent_eq _ _ (by omega)]
    have hone : ((53 : ℕ) + e - 52 - e : ℤ).toNat = 1 := by omega
    rw [hone]
    refine Prod.ext rfl ?_
    show ((53 : ℕ) + e - 52 : ℤ) = e + 1
    omega
  · have hlog : m.log2 < 53 := by
      by_cases hzero : m = 0
      · rw [hzero, Nat.log2_zero]
        norm_num
      · exact (Nat.log2_lt hzero).mpr (by omega)
    have hshift : (max ((m.log2 : ℤ) + e - 52) (-1074) - e).toNat = 0 := by omega
    rw [if_neg hcarry]
    unfold shiftToExponent
    dsimp only
    rw [hshift, Nat.cast_zero, add_zero]
    rfl

theorem roundedMantissa_bounds {x : ℝ} (hx : 0 < x) {q : ℕ}
    (hq : (q : ℤ) = nearestInt (x / 2 ^ place x)) :
    q ≤ 2 ^ 53 ∧ -1074 ≤ place x ∧ (2 ^ 52 ≤ q ∨ place x = -1074) := by
  have hupper := lt_zpow_place x
  rw [abs_of_pos hx, zpow_add₀ (by norm_num)] at hupper
  refine ⟨?_, le_max_right _ _, ?_⟩
  · have hle : nearestInt (x / 2 ^ place x) ≤ 2 ^ 53 := by
      refine nearestInt_le ((div_le_iff₀ (by positivity)).mpr ?_)
      rw [mul_comm]
      exact_mod_cast hupper.le
    omega
  · by_cases hplace : place x = -1074
    · exact .inr hplace
    · have hlower := zpow_place_le hx.ne' (lt_of_le_of_ne (le_max_right _ _) (Ne.symm hplace))
      rw [abs_of_pos hx, zpow_add₀ (by norm_num)] at hlower
      have hge : 2 ^ 52 ≤ nearestInt (x / 2 ^ place x) := by
        refine le_nearestInt ((le_div_iff₀ (by positivity)).mpr ?_)
        rw [mul_comm]
        exact_mod_cast hlower
      exact .inl (by omega)

/-- Once the mantissa is at its place, it is rounded there. -/
theorem roundWithAccuracy_of_shift (s : Sign) {m : ℕ} {e t : ℤ} {accuracy : Accuracy}
    {em : ExtendedMantissa}
    (hshift : shiftToTargetExponent Format.binary64 m e accuracy = (em, t))
    (hle : em.roundedMantissa ≤ 2 ^ 53) (ht : -1074 ≤ t)
    (hge : 2 ^ 52 ≤ em.roundedMantissa ∨ t = -1074) :
    Canonical (roundWithAccuracy Format.binary64 s m e accuracy) ∧
      unpackedValue (roundWithAccuracy Format.binary64 s m e accuracy) =
        some ((factor s * (em.roundedMantissa * 2 ^ t) : ℝ) : EReal) := by
  unfold roundWithAccuracy
  rw [hshift]
  dsimp only
  rw [shift_carry hle ht]
  by_cases hcarry : em.roundedMantissa = 2 ^ 53
  · -- Rounded up to 54 bits, of which the last is zero: it is shifted out.
    rw [if_pos hcarry, hcarry]
    dsimp only
    rw [dif_neg (by norm_num)]
    have hvalue : ((2 ^ 52 : ℕ) : ℝ) * 2 ^ (t + 1) = (2 ^ 53 : ℕ) * 2 ^ t := by
      rw [zpow_add_one₀ (by norm_num)]
      push_cast
      ring
    refine ⟨⟨by norm_num, by omega, .inl le_rfl⟩, ?_⟩
    show some ((factor s * (((2 ^ 52 : ℕ) : ℝ) * 2 ^ (t + 1)) : ℝ) : EReal) = _
    rw [hvalue]
  · rw [if_neg hcarry]
    dsimp only
    by_cases hzero : em.roundedMantissa = 0
    · rw [dif_pos hzero, hzero, Nat.cast_zero, zero_mul, mul_zero]
      exact ⟨trivial, rfl⟩
    · rw [dif_neg hzero]
      exact ⟨⟨by omega, ht, hge⟩, rfl⟩

/-- **Rounding.** What the code makes of a mantissa, an exponent and what it left out is the nearest
number of 53 bits. -/
theorem roundWithAccuracy_spec (s : Sign) {m : ℕ} {e : ℤ} {accuracy : Accuracy} {x : ℝ}
    (hx : 0 < x) (hl : Locates (.ofMantissaAndAccuracy m accuracy) (x / 2 ^ e))
    (he : e ≤ place x) (hzero : m = 0 → e ≤ -1074) :
    Canonical (roundWithAccuracy Format.binary64 s m e accuracy) ∧
      unpackedValue (roundWithAccuracy Format.binary64 s m e accuracy) =
        some ((factor s * nearest x : ℝ) : EReal) := by
  have hmantissa : ⌊x / 2 ^ e⌋ = m := by
    rw [hl.floor_eq, mantissa_ofMantissaAndAccuracy]
  have htarget : Format.binary64.targetExponent (totalExponent m e) = place x := by
    obtain ⟨hlow, hhigh⟩ := Int.floor_eq_iff.mp hmantissa
    refine targetExponent_eq_place hx ?_ ?_ hzero
    · exact (le_div_iff₀ (by positivity)).mp (by exact_mod_cast hlow)
    · exact (div_lt_iff₀ (by positivity)).mp (by exact_mod_cast hhigh)
  have hshift : shiftToTargetExponent Format.binary64 m e accuracy =
      (ExtendedMantissa.ofMantissaAndAccuracy m accuracy >>> (place x - e).toNat, place x) := by
    unfold shiftToTargetExponent
    dsimp only
    rw [htarget, shiftToExponent_eq m accuracy he]
  -- The shifted mantissa locates the number among the multiples of its last place.
  have hshifted := hl.shiftRight (place x - e).toNat
  have hexponent : e + ((place x - e).toNat : ℤ) = place x := by omega
  rw [div_div, ← zpow_natCast, ← zpow_add₀ (by norm_num), hexponent] at hshifted
  have hrounded := hshifted.roundedMantissa
  obtain ⟨hle, hplace, hge⟩ := roundedMantissa_bounds hx hrounded
  unfold nearest
  rw [← hrounded, Int.cast_natCast]
  exact roundWithAccuracy_of_shift s hshift hle hplace hge

theorem value_decreaseExponent (m : ℕ) (e t : ℤ) :
    ((decreaseExponent m e t).1 * 2 ^ (decreaseExponent m e t).2 : ℝ) = m * 2 ^ e := by
  unfold decreaseExponent
  dsimp only
  rw [Nat.shiftLeft_eq]
  push_cast
  rw [mul_assoc, ← zpow_natCast, ← zpow_add₀ (by norm_num), add_sub_cancel]

theorem round_spec (s : Sign) {m : ℕ} (hm : 0 < m) (e : ℤ) :
    Canonical (UnpackedFloat.round Format.binary64 s m e) ∧
      unpackedValue (UnpackedFloat.round Format.binary64 s m e) =
        some ((factor s * nearest (m * 2 ^ e) : ℝ) : EReal) := by
  have hx : (0 : ℝ) < m * 2 ^ e := by positivity
  have htarget : Format.binary64.targetExponent (totalExponent m e) = place (m * 2 ^ e) := by
    refine targetExponent_eq_place hx le_rfl ?_ (fun h => absurd h hm.ne')
    exact mul_lt_mul_of_pos_right (lt_add_one _) (by positivity)
  have hvalue := value_decreaseExponent m e (place (m * 2 ^ e))
  have hexponent : (decreaseExponent m e (place (m * 2 ^ e))).2 ≤ place (m * 2 ^ e) := by
    unfold decreaseExponent
    dsimp only
    omega
  have hround : UnpackedFloat.round Format.binary64 s m e =
      roundWithAccuracy Format.binary64 s (decreaseExponent m e (place (m * 2 ^ e))).1
        (decreaseExponent m e (place (m * 2 ^ e))).2 .exact := by
    unfold UnpackedFloat.round
    rw [htarget]
  rw [hround]
  generalize decreaseExponent m e (place (m * 2 ^ e)) = shifted at hvalue hexponent ⊢
  refine roundWithAccuracy_spec s hx ?_ hexponent ?_
  · rw [← hvalue, mul_div_cancel_right₀ _ (by positivity)]
    exact locates_exact _
  · intro hzero
    rw [hzero, Nat.cast_zero, zero_mul] at hvalue
    exact absurd hvalue hx.ne

theorem normalize_spec (n e : ℤ) (zeroSign : Sign) :
    Canonical (UnpackedFloat.normalize Format.binary64 n e zeroSign) ∧
      unpackedValue (UnpackedFloat.normalize Format.binary64 n e zeroSign) =
        some ((nearest (n * 2 ^ e) : ℝ) : EReal) := by
  unfold UnpackedFloat.normalize
  rcases lt_trichotomy n 0 with hneg | rfl | hpos
  · obtain ⟨hcanonical, hvalue⟩ := round_spec .negative (m := (-n).toNat) (by omega) e
    have hcast : ((-n).toNat : ℝ) = -n := by
      exact_mod_cast Int.toNat_of_nonneg (by omega : 0 ≤ -n)
    rw [Int.compare_eq_lt.mpr hneg]
    refine ⟨hcanonical, ?_⟩
    rw [hvalue, hcast, neg_mul, nearest_neg]
    show some (((-1 : ℝ) * -nearest (n * 2 ^ e) : ℝ) : EReal) = _
    rw [neg_mul_neg, one_mul]
  · rw [Int.compare_eq_eq.mpr rfl, Int.cast_zero, zero_mul, nearest_zero]
    exact ⟨trivial, rfl⟩
  · obtain ⟨hcanonical, hvalue⟩ := round_spec .positive (m := n.toNat) (by omega) e
    have hcast : (n.toNat : ℝ) = n := by
      exact_mod_cast Int.toNat_of_nonneg hpos.le
    rw [Int.compare_eq_gt.mpr hpos]
    refine ⟨hcanonical, ?_⟩
    rw [hvalue, hcast]
    show some (((1 : ℝ) * nearest (n * 2 ^ e) : ℝ) : EReal) = _
    rw [one_mul]

end RollingBall.Double
