import RollingBall.Binary64
import RollingBall.Proofs.Numbers.Unpacked
import RollingBall.Proofs.Numbers.Packed

/-!
# Doubles follow the rules

`Float` is an instance of the rules of IEEE arithmetic, with rounding to the nearest double. The
proofs open the model that `Float` is defined by: an operation unpacks its arguments, computes, and
packs the result again.

## Main definitions

* `Double.value`: the value of a double.
* `Scalar.Ieee Float`: the instance.
-/

namespace RollingBall.Double

open Float.Model Float.Model.UnpackedFloat

/-- The value of a double. -/
noncomputable def value (x : Float) : Option EReal := unpackedValue x.toModel.unpack

theorem canonical_toModel (x : Float) : Canonical x.toModel.unpack := canonical_unpack _

theorem value_pack {a : UnpackedFloat} (ha : Canonical a) :
    value (.ofModel (.pack a)) = (unpackedValue a).map clip := packedValue_pack ha

/-- Packing a rounded result makes it the nearest double. -/
theorem value_of_rounds {a : UnpackedFloat} {x : Option EReal} (h : Rounds a x) :
    value (.ofModel (.pack a)) = x.map round := by
  rw [value_pack h.canonical, h.value, Option.map_map]
  rfl

/-! ## Operations -/

theorem value_add (a b : Float) :
    value (a + b) = (lift₂ Extended.sum? (value a) (value b)).map round :=
  value_of_rounds (rounds_add (canonical_toModel a) (canonical_toModel b))

theorem value_sub (a b : Float) :
    value (a - b) = (lift₂ (fun x y => Extended.sum? x (-y)) (value a) (value b)).map round :=
  value_of_rounds (rounds_sub (canonical_toModel a) (canonical_toModel b))

theorem value_mul (a b : Float) :
    value (a * b) = (lift₂ Extended.product? (value a) (value b)).map round :=
  value_of_rounds (rounds_mul (canonical_toModel a) (canonical_toModel b))

theorem value_div (a b : Float) {r : ℝ} (hb : value b = some ↑r) (hr : r ≠ 0) :
    value (a / b) = (value a).map fun x => round (x / r) := by
  have hpack : ∀ {c : UnpackedFloat}, c = b.toModel.unpack →
      value (a / b) =
        value (.ofModel (.pack (UnpackedFloat.div Format.binary64 a.toModel.unpack c))) := by
    rintro c rfl
    rfl
  unfold value at hb
  cases hc : b.toModel.unpack with
  | notANumber =>
    rw [hc] at hb
    exact absurd hb (Option.some_ne_none _).symm
  | infinity s =>
    rw [hc] at hb
    cases s with
    | negative => exact absurd (Option.some.inj hb).symm (EReal.coe_ne_bot r)
    | positive => exact absurd (Option.some.inj hb).symm (EReal.coe_ne_top r)
  | zero s =>
    rw [hc] at hb
    exact absurd (EReal.coe_eq_zero.mp (Option.some.inj hb).symm) hr
  | finite s m e hm =>
    rw [hc] at hb
    have hr : factor s * (m * 2 ^ e) = r := EReal.coe_injective (Option.some.inj hb)
    have hrounds := rounds_div (canonical_toModel a) s hm e
    rw [hpack hc.symm, value_of_rounds hrounds, hr, Option.map_map]
    rfl

/-! ## Comparisons -/

theorem compare_toModel (a b : Float) :
    a.toModel.unpack.compare b.toModel.unpack =
      (value a).bind fun x => (value b).map fun y => cmp x y :=
  compare_eq (canonical_toModel a) (canonical_toModel b)

/-- Two options are related if there is something in both of them that is. -/
theorem any_pair_iff {p : EReal → EReal → Prop} {q : Ordering → Bool}
    (hpq : ∀ x y, q (cmp x y) = true ↔ p x y) (x? y? : Option EReal) :
    ((x?.bind fun x => y?.map fun y => cmp x y).any q = true) ↔ ∃ x ∈ x?, ∃ y ∈ y?, p x y := by
  cases x? with
  | none => exact iff_of_false Bool.false_ne_true (by rintro ⟨_, ⟨⟩, _⟩)
  | some x =>
    cases y? with
    | none => exact iff_of_false Bool.false_ne_true (by rintro ⟨_, -, _, ⟨⟩, _⟩)
    | some y =>
      refine (hpq x y).trans ⟨fun h => ⟨x, rfl, y, rfl, h⟩, ?_⟩
      rintro ⟨_, ⟨⟩, _, ⟨⟩, h⟩
      exact h

theorem lt_iff (a b : Float) : a < b ↔ ∃ x ∈ value a, ∃ y ∈ value b, x < y := by
  show (decide ((a.toModel.unpack.compare b.toModel.unpack == some .lt) = true) = true) ↔ _
  have hany : ∀ o : Option Ordering, (o == some .lt) = o.any (· == .lt) := by decide
  rw [decide_eq_true_iff, hany, compare_toModel]
  exact any_pair_iff (fun x y => by rw [beq_iff_eq, cmp_eq_lt_iff]) _ _

theorem beq_iff (a b : Float) : a == b ↔ ∃ x ∈ value a, ∃ y ∈ value b, x = y := by
  show ((a.toModel.unpack.compare b.toModel.unpack == some .eq) = true) ↔ _
  have hany : ∀ o : Option Ordering, (o == some .eq) = o.any (· == .eq) := by decide
  rw [hany, compare_toModel]
  exact any_pair_iff (fun x y => by rw [beq_iff_eq, cmp_eq_eq_iff]) _ _

theorem le_iff (a b : Float) : a ≤ b ↔ ∃ x ∈ value a, ∃ y ∈ value b, x ≤ y := by
  show (decide ((a.toModel.unpack.compare b.toModel.unpack).any (·.isLE) = true) = true) ↔ _
  rw [decide_eq_true_iff, compare_toModel]
  refine any_pair_iff (fun x y => ?_) _ _
  rw [Ordering.isLE_iff_ne_gt, cmp_eq_gt_iff, not_lt]

theorem eq_of_infinity {a b : Float} {s : Sign} (ha : value a = unpackedValue (.infinity s))
    (hb : value b = unpackedValue (.infinity s)) : a = b := by
  obtain ⟨⟨bits, _⟩⟩ := a
  obtain ⟨⟨bits', _⟩⟩ := b
  have hbits : bits.toBitVec = bits'.toBitVec :=
    (eq_packedInfinity (eq_infinity ha)).trans (eq_packedInfinity (eq_infinity hb)).symm
  obtain rfl := UInt64.toBitVec_inj.mp hbits
  rfl

theorem eq_of_infinite {a b : Float} {x : EReal} (ha : value a = some x) (hb : value b = some x)
    (hx : x = ⊤ ∨ x = ⊥) : a = b := by
  rcases hx with rfl | rfl
  · exact eq_of_infinity (s := .positive) ha hb
  · exact eq_of_infinity (s := .negative) ha hb

/-! ## Literals -/

theorem value_toFloat {n : UInt64} (h : n.toNat < 2 ^ 53) :
    value n.toFloat = some ((n.toNat : ℝ) : EReal) := by
  obtain ⟨hcanonical, hvalue⟩ := normalize_spec (n.toNat : ℤ) 0 .positive
  have hexact : nearest (((n.toNat : ℤ) : ℝ) * 2 ^ (0 : ℤ)) = n.toNat := by
    rw [nearest_of_bits (by rw [Nat.abs_cast]; exact_mod_cast h) (by norm_num), zpow_zero, mul_one,
      Int.cast_natCast]
  have hsmall : |(n.toNat : ℝ)| < limit := by
    unfold limit
    rw [Nat.abs_cast]
    calc (n.toNat : ℝ) < 2 ^ (53 : ℤ) := by exact_mod_cast h
      _ < 2 ^ (1024 : ℤ) := zpow_lt_zpow_right₀ (by norm_num) (by norm_num)
  refine (value_pack hcanonical).trans ?_
  rw [hvalue, hexact, Option.map_some, clip_of_abs_lt hsmall]

/-- An unpacked number is a natural number. -/
def isNat (a : UnpackedFloat) (n : ℕ) : Bool :=
  match a with
  | .finite .positive m (.ofNat k) _ => m <<< k == n
  | .finite .positive m (.negSucc k) _ => m == n <<< (k + 1)
  | _ => false

theorem unpackedValue_of_isNat {a : UnpackedFloat} {n : ℕ} (h : isNat a n = true) :
    unpackedValue a = some ((n : ℝ) : EReal) := by
  cases a with
  | notANumber => exact absurd h Bool.false_ne_true
  | infinity s => exact absurd h Bool.false_ne_true
  | zero s => exact absurd h Bool.false_ne_true
  | finite s m e hm =>
    cases s with
    | negative => exact absurd h Bool.false_ne_true
    | positive =>
      cases e with
      | ofNat k =>
        have hn : m <<< k = n := beq_iff_eq.mp h
        show some ((1 * (m * 2 ^ (k : ℤ)) : ℝ) : EReal) = _
        rw [one_mul, zpow_natCast, ← hn, Nat.shiftLeft_eq]
        push_cast
        rfl
      | negSucc k =>
        have hn : m = n <<< (k + 1) := beq_iff_eq.mp h
        show some ((1 * (m * 2 ^ (Int.negSucc k)) : ℝ) : EReal) = _
        rw [one_mul, hn, Nat.shiftLeft_eq, zpow_negSucc, Nat.cast_mul, mul_assoc, Nat.cast_pow,
          Nat.cast_ofNat, mul_inv_cancel₀ (by positivity), mul_one]

/-- The table of the exact powers of ten is right. -/
theorem isNat_powerOfTen (e : Fin Float.exactlyRepresentablePowersOfTen.size) :
    isNat Float.exactlyRepresentablePowersOfTen[e].toModel.unpack (10 ^ e.val) = true := by
  revert e
  decide +kernel

theorem value_powerOfTen {e : ℕ} (h : e < Float.exactlyRepresentablePowersOfTen.size) :
    value Float.exactlyRepresentablePowersOfTen[e] = some ((10 ^ e : ℝ) : EReal) := by
  have hpower := unpackedValue_of_isNat (isNat_powerOfTen ⟨e, h⟩)
  rw [Nat.cast_pow, Nat.cast_ofNat] at hpower
  exact hpower

/-- Literals with few digits are made from two exact doubles. -/
theorem value_fast {m e : ℕ} (hm : m < 2 ^ 53)
    (he : e < Float.exactlyRepresentablePowersOfTen.size) (negative : Bool) :
    value (if negative then m.toUInt64.toFloat / Float.exactlyRepresentablePowersOfTen[e]
        else m.toUInt64.toFloat * Float.exactlyRepresentablePowersOfTen[e]) =
      some (round ((if negative then m / 10 ^ e else m * 10 ^ e : ℝ) : EReal)) := by
  have hword : m.toUInt64.toNat = m := Nat.mod_eq_of_lt (by omega)
  have hnatural := value_toFloat (n := m.toUInt64) (by rw [hword]; exact hm)
  have hpower := value_powerOfTen he
  have hten : (10 ^ e : ℝ) ≠ 0 := by positivity
  rw [hword] at hnatural
  cases negative with
  | false =>
    show value (m.toUInt64.toFloat * Float.exactlyRepresentablePowersOfTen[e]) = _
    rw [value_mul, hnatural, hpower]
    show (Extended.product? _ _).map round = _
    rw [Extended.product?_of_real_right _ hten, Option.map_some, ← EReal.coe_mul]
    rfl
  | true =>
    show value (m.toUInt64.toFloat / Float.exactlyRepresentablePowersOfTen[e]) = _
    rw [value_div _ _ hpower hten, hnatural, Option.map_some, ← EReal.coe_div]
    rfl

section Exponents

variable {m : ℕ} (hm : 0 < m)

include hm

theorem round_of_great_exponent {e : ℕ} (he : 2048 < e) : round ((m * 10 ^ e : ℝ) : EReal) = ⊤ := by
  refine round_of_great ?_
  have hone : (1 : ℝ) ≤ m := by exact_mod_cast hm
  calc limit = 2 ^ 1024 := by
        unfold limit
        rw [← zpow_natCast]
        rfl
    _ ≤ 10 ^ 1024 := pow_le_pow_left₀ (by norm_num) (by norm_num) 1024
    _ ≤ 10 ^ e := pow_le_pow_right₀ (by norm_num) (by omega)
    _ ≤ m * 10 ^ e := le_mul_of_one_le_left (by positivity) hone

theorem round_of_small_exponent {e : ℕ} (he : 2048 + m.log2 < e) :
    round ((m / 10 ^ e : ℝ) : EReal) = 0 := by
  refine round_of_small (by positivity) ?_
  have hhigh : (m : ℝ) ≤ 2 ^ (m.log2 + 1) := by exact_mod_cast (Nat.lt_log2_self (n := m)).le
  calc (m / 10 ^ e : ℝ) ≤ 2 ^ (m.log2 + 1) / 2 ^ (m.log2 + 1 + 1076) :=
        div_le_div₀ (by positivity) hhigh (by positivity)
          ((pow_le_pow_right₀ (by norm_num) (by omega)).trans
            (pow_le_pow_left₀ (by norm_num) (by norm_num) e))
    _ = 2 ^ (-1076 : ℤ) := by
        rw [pow_add _ (m.log2 + 1) 1076, div_mul_cancel_left₀ (by positivity), zpow_neg]
        norm_num

theorem rounds_scientific_mul (e : ℕ) (hshift : 0 < m <<< 53) (hpower : 0 < 10 ^ e) :
    Rounds
      (UnpackedFloat.mul Format.binary64 (.finite .positive (m <<< 53) (-53) hshift)
        (.finite .positive (10 ^ e) 0 hpower))
      (some ((m * 10 ^ e : ℝ) : EReal)) := by
  have hleft : ((m <<< 53 : ℕ) * 2 ^ (-53 : ℤ) : ℝ) = m := by
    rw [Nat.shiftLeft_eq, Nat.cast_mul, mul_assoc, zpow_neg]
    norm_num
  have hright : ((10 ^ e : ℕ) * 2 ^ (0 : ℤ) : ℝ) = 10 ^ e := by
    rw [zpow_zero, mul_one]
    push_cast
    rfl
  have hone : (1 : ℝ) ≤ m * 10 ^ e := by exact_mod_cast Nat.mul_pos hm hpower
  have hplace : (-53 + 0 : ℤ) ≤ place (((m <<< 53 : ℕ) * 2 ^ (-53 : ℤ) : ℝ) *
      ((10 ^ e : ℕ) * 2 ^ (0 : ℤ))) := by
    rw [hleft, hright]
    refine le_place (by linarith) (le_trans ?_ hone)
    norm_num
  have hrounds := rounds_mul_finite .positive .positive hshift hpower hplace
  rw [hleft, hright, ← EReal.coe_mul, ← EReal.coe_mul] at hrounds
  have hfactor : factor (.positive * .positive) * (m * 10 ^ e : ℝ) = m * 10 ^ e := one_mul _
  rw [hfactor] at hrounds
  exact hrounds

theorem rounds_scientific_div (e : ℕ) (hpower : 0 < 10 ^ e) :
    Rounds
      (UnpackedFloat.div Format.binary64 (.finite .positive m 0 hm)
        (.finite .positive (10 ^ e) 0 hpower))
      (some ((m / 10 ^ e : ℝ) : EReal)) := by
  have hrounds := rounds_div_finite hm hpower 0 0 .positive .positive
  have hleft : (m * 2 ^ (0 : ℤ) : ℝ) = m := by rw [zpow_zero, mul_one]
  have hright : ((10 ^ e : ℕ) * 2 ^ (0 : ℤ) : ℝ) = 10 ^ e := by
    rw [zpow_zero, mul_one]
    push_cast
    rfl
  have hfactor : factor (.positive * .positive) * (m / 10 ^ e : ℝ) = m / 10 ^ e := one_mul _
  rw [hleft, hright, ← EReal.coe_mul, hfactor] at hrounds
  exact hrounds

end Exponents

theorem round_zero : round 0 = 0 := round_of_small le_rfl (by positivity)

theorem value_scientific_mul (m e : ℕ) :
    value (.ofModel (.ofScientific m (e : ℤ))) = some (round ((m * 10 ^ e : ℝ) : EReal)) := by
  unfold Float.Model.ofScientific UnpackedFloat.ofScientific
  by_cases hm : m = 0
  · rw [dif_pos hm, hm, Nat.cast_zero, zero_mul, EReal.coe_zero, round_zero]
    exact (value_pack (a := .zero .positive) trivial).trans (congrArg some clip_zero)
  rw [dif_neg hm]
  have hpos := Nat.pos_of_ne_zero hm
  by_cases hgreat : 2048 < e
  · rw [if_pos (show (e : ℤ) > 2 ^ 11 by omega), round_of_great_exponent hpos hgreat]
    exact (value_pack (a := .infinity .positive) trivial).trans (congrArg some clip_top)
  rw [if_neg (show ¬ (e : ℤ) > 2 ^ 11 by omega),
    if_neg (show ¬ (e : ℤ) < -(2 ^ 11 + m.log2) by omega), if_pos (show (0 : ℤ) ≤ e by omega)]
  exact value_of_rounds (rounds_scientific_mul hpos e _ _)

theorem value_scientific_div (m e : ℕ) :
    value (.ofModel (.ofScientific m (Int.negOfNat e))) =
      some (round ((m / 10 ^ e : ℝ) : EReal)) := by
  by_cases he : e = 0
  · have hmul := value_scientific_mul m 0
    rw [pow_zero, mul_one] at hmul
    rw [he, pow_zero, div_one]
    exact hmul
  rw [Int.negOfNat_eq]
  show value (.ofModel (.ofScientific m (-(e : ℤ)))) = _
  unfold Float.Model.ofScientific UnpackedFloat.ofScientific
  by_cases hm : m = 0
  · rw [dif_pos hm, hm, Nat.cast_zero, zero_div, EReal.coe_zero, round_zero]
    exact (value_pack (a := .zero .positive) trivial).trans (congrArg some clip_zero)
  rw [dif_neg hm, if_neg (show ¬ -(e : ℤ) > 2 ^ 11 by omega)]
  have hpos := Nat.pos_of_ne_zero hm
  by_cases hsmall : 2048 + m.log2 < e
  · rw [if_pos (show -(e : ℤ) < -(2 ^ 11 + m.log2) by omega), round_of_small_exponent hpos hsmall]
    exact (value_pack (a := .zero .positive) trivial).trans (congrArg some clip_zero)
  rw [if_neg (show ¬ -(e : ℤ) < -(2 ^ 11 + m.log2) by omega),
    if_neg (show ¬ (0 : ℤ) ≤ -(e : ℤ) by omega)]
  have hquotient : ∀ {k : ℕ} (hpower : 0 < 10 ^ k), k = e →
      value (.ofModel (.pack (UnpackedFloat.div Format.binary64 (.finite .positive m 0 hpos)
        (.finite .positive (10 ^ k) 0 hpower)))) = some (round ((m / 10 ^ e : ℝ) : EReal)) := by
    rintro k hpower rfl
    exact value_of_rounds (rounds_scientific_div hpos k hpower)
  exact hquotient _ (by omega)

/-- **Literals.** A decimal literal is the nearest double. -/
theorem value_ofScientific (m : ℕ) (negative : Bool) (e : ℕ) :
    value (OfScientific.ofScientific m negative e) =
      some (round ((if negative then m / 10 ^ e else m * 10 ^ e : ℝ) : EReal)) := by
  show value (Float.ofScientific m negative e) = _
  unfold Float.ofScientific
  split
  · rename_i h
    exact value_fast h.1 _ negative
  · cases negative with
    | false => exact value_scientific_mul m e
    | true => exact value_scientific_div m e

end RollingBall.Double

namespace RollingBall

/-- **Doubles.** Lean's own model of double precision follows the rules, rounding to nearest. -/
noncomputable instance : Scalar.Ieee Float where
  value := Double.value
  round := Double.round
  round_mono := Double.round_mono
  round_top := Double.round_top
  round_bot := Double.round_bot
  round_dyadic := Double.round_dyadic
  eq_of_infinite := Double.eq_of_infinite
  value_add := Double.value_add
  value_sub := Double.value_sub
  value_mul := Double.value_mul
  value_div := Double.value_div
  value_ofScientific := Double.value_ofScientific
  beq_iff := Double.beq_iff
  lt_iff := Double.lt_iff
  le_iff := Double.le_iff

end RollingBall
