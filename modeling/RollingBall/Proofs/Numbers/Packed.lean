import RollingBall.Proofs.Numbers.Mantissa

/-!
# Packing

The 64 bits of a double are a sign, an exponent field and a mantissa without its first bit. What
is unpacked is canonical, and packing a canonical number only makes what is too great infinite.

## Main results

* `Double.canonical_unpack`
* `Double.packedValue_pack`
-/

namespace RollingBall.Double

open Float.Model Float.Model.UnpackedFloat

/-! ## Unpacking -/

theorem exponentBias_eq : Format.binary64.exponentBias = 1023 := by decide

theorem toNat_implicit_append (m : BitVec 52) : (1#1 ++ m).toNat = 2 ^ 52 + m.toNat := by
  rw [BitVec.toNat_append, ← Nat.shiftLeft_add_eq_or_of_lt m.isLt, Nat.shiftLeft_eq]
  rfl

/-- What a sign, an exponent field and a mantissa are unpacked to. The field is all ones for what is
not finite, and zero for the numbers without an implicit bit. -/
inductive Unpacks (s : Sign) (e : BitVec 11) (m : BitVec 52) : UnpackedFloat → Prop where
  | infinity : e = -1#11 → m = 0#52 → Unpacks s e m (.infinity s)
  | notANumber : e = -1#11 → m ≠ 0#52 → Unpacks s e m .notANumber
  | zero : e = 0#11 → m = 0#52 → Unpacks s e m (.zero s)
  | subnormal (hm : 0 < m.toNat) : e = 0#11 → Unpacks s e m (.finite s m.toNat (-1074) hm)
  | normal (hm : 0 < (1#1 ++ m).toNat) : e ≠ -1#11 → e ≠ 0#11 →
      Unpacks s e m (.finite s (1#1 ++ m).toNat (e.toNat - 1075) hm)

theorem unpacks (b : BitVec 64) :
    Unpacks (Sign.ofBitVec (@unpackSign Format.binary64 b)) (@unpackExponent Format.binary64 b)
      (@unpackMantissa Format.binary64 b) (UnpackedFloat.unpack Format.binary64 b) := by
  unfold UnpackedFloat.unpack
  dsimp only
  rw [exponentBias_eq]
  by_cases he : @unpackExponent Format.binary64 b = -1#11
  · rw [if_pos he]
    by_cases hm : @unpackMantissa Format.binary64 b = 0#52
    · rw [if_pos hm]
      exact .infinity he hm
    · rw [if_neg hm]
      exact .notANumber he hm
  · rw [if_neg he]
    by_cases hsmall : @unpackExponent Format.binary64 b = 0#11
    · rw [if_pos hsmall]
      by_cases hm : @unpackMantissa Format.binary64 b = 0#52
      · rw [dif_pos hm]
        exact .zero hsmall hm
      · rw [dif_neg hm, hsmall]
        exact .subnormal _ rfl
    · rw [if_neg hsmall]
      exact .normal _ he hsmall

/-- The value of the bits of a double. -/
noncomputable def packedValue (b : BitVec 64) : Option EReal :=
  unpackedValue (UnpackedFloat.unpack Format.binary64 b)

theorem packedValue_eq (b : BitVec 64) :
    packedValue b =
      let s := Sign.ofBitVec (@unpackSign Format.binary64 b)
      let e := @unpackExponent Format.binary64 b
      let m := @unpackMantissa Format.binary64 b
      if e = -1#11 then if m = 0#52 then unpackedValue (.infinity s) else none
      else if e = 0#11 then some ((factor s * (m.toNat * 2 ^ (-1074 : ℤ)) : ℝ) : EReal)
      else some ((factor s * ((2 ^ 52 + m.toNat : ℕ) * 2 ^ (e.toNat - 1075 : ℤ)) : ℝ) : EReal) := by
  have hunpacks := unpacks b
  unfold packedValue
  dsimp only
  generalize UnpackedFloat.unpack Format.binary64 b = a at hunpacks ⊢
  cases hunpacks with
  | infinity he hm => rw [if_pos he, if_pos hm]
  | notANumber he hm => rw [if_pos he, if_neg hm]; rfl
  | zero he hm =>
    rw [if_neg (by rw [he]; decide), if_pos he, hm, show (0#52).toNat = 0 from rfl, Nat.cast_zero,
      zero_mul, mul_zero]
    rfl
  | subnormal hm he => rw [if_neg (by rw [he]; decide), if_pos he]; rfl
  | normal hm he hsmall =>
    rw [if_neg he, if_neg hsmall, ← toNat_implicit_append]
    rfl

theorem canonical_unpack (b : BitVec 64) :
    Canonical (UnpackedFloat.unpack Format.binary64 b) := by
  have hm : (@unpackMantissa Format.binary64 b).toNat < 2 ^ 52 :=
    (@unpackMantissa Format.binary64 b).isLt
  have hunpacks := unpacks b
  generalize UnpackedFloat.unpack Format.binary64 b = a at hunpacks ⊢
  cases hunpacks with
  | infinity => trivial
  | notANumber => trivial
  | zero => trivial
  | subnormal => exact ⟨by omega, by decide, .inr rfl⟩
  | normal _ he hsmall =>
    have hpositive : (@unpackExponent Format.binary64 b).toNat ≠ 0 := fun h =>
      hsmall (BitVec.eq_of_toNat_eq h)
    have happend := toNat_implicit_append (@unpackMantissa Format.binary64 b)
    refine ⟨?_, ?_, .inl ?_⟩
    · rw [happend]
      omega
    · omega
    · rw [happend]
      omega

/-! ## Packing -/

theorem sign_packComponents (s : Sign) (e : BitVec 11) (m : BitVec 52) :
    Sign.ofBitVec (@unpackSign Format.binary64 (packComponents Format.binary64 s e m)) = s := by
  unfold unpackSign packComponents
  rw [BitVec.extractLsb, BitVec.extractLsb'_append_eq_of_le (by decide),
    BitVec.extractLsb'_append_eq_of_le (by decide)]
  cases s <;> rfl

/-- The bits are those of the sign, the exponent field and the mantissa. -/
theorem packComponents_fields (b : BitVec 64) :
    packComponents Format.binary64 (Sign.ofBitVec (@unpackSign Format.binary64 b))
      (@unpackExponent Format.binary64 b) (@unpackMantissa Format.binary64 b) = b := by
  have hbit : ∀ c : BitVec 1, (Sign.ofBitVec c).toBitVec = c := by decide
  show (Sign.ofBitVec (b.extractLsb' 63 1)).toBitVec ++ b.extractLsb' 52 11 ++ b.extractLsb' 0 52 =
    b
  have hlow : 63 = 52 + 11 := rfl
  have hlast : 52 = 0 + 52 := rfl
  rw [hbit, BitVec.extractLsb'_append_extractLsb'_eq_extractLsb' hlow,
    BitVec.extractLsb'_append_extractLsb'_eq_extractLsb' hlast, BitVec.extractLsb'_eq_self]

theorem eq_packedInfinity {b : BitVec 64} {s : Sign}
    (h : UnpackedFloat.unpack Format.binary64 b = .infinity s) :
    b = packedInfinity Format.binary64 s := by
  have hunpacks := unpacks b
  have hfields := packComponents_fields b
  rw [h] at hunpacks
  generalize @unpackExponent Format.binary64 b = e at hunpacks hfields
  generalize @unpackMantissa Format.binary64 b = m at hunpacks hfields
  generalize Sign.ofBitVec (@unpackSign Format.binary64 b) = t at hunpacks hfields
  obtain ⟨rfl, rfl⟩ := hunpacks
  exact hfields.symm

/-- Canonical numbers with a greater exponent than fits are infinite. -/
theorem clip_of_great_exponent (s : Sign) {m : ℕ} {hm : 0 < m} {e : ℤ}
    (ha : Canonical (.finite s m e hm)) (he : 971 < e) :
    clip ((factor s * (m * 2 ^ e) : ℝ) : EReal) = (factor s : EReal) * ⊤ := by
  have hgreat : limit ≤ m * 2 ^ e := by
    have hlow : (2 ^ 52 : ℝ) ≤ m := by exact_mod_cast ha.2.2.resolve_right (by omega)
    calc limit = 2 ^ 52 * 2 ^ (972 : ℤ) := by
          unfold limit
          rw [← zpow_natCast, ← zpow_add₀ (by norm_num)]
          rfl
      _ ≤ m * 2 ^ e := mul_le_mul hlow (zpow_le_zpow_right₀ (by norm_num) (by omega))
          (by positivity) (by positivity)
  have hinfinity := unpackedValue_infinity s
  cases s with
  | negative =>
    show clip ((-1 * (m * 2 ^ e) : ℝ) : EReal) = _
    rw [neg_one_mul, clip_neg_of_le hgreat]
    exact Option.some.inj hinfinity
  | positive =>
    show clip ((1 * (m * 2 ^ e) : ℝ) : EReal) = _
    rw [one_mul, clip_of_le hgreat]
    exact Option.some.inj hinfinity

theorem clip_of_exponent_le (s : Sign) {m : ℕ} {hm : 0 < m} {e : ℤ}
    (ha : Canonical (.finite s m e hm)) (he : e ≤ 971) :
    clip ((factor s * (m * 2 ^ e) : ℝ) : EReal) = ((factor s * (m * 2 ^ e) : ℝ) : EReal) := by
  have hhigh : (m : ℝ) < 2 ^ 53 := by exact_mod_cast ha.1
  refine clip_of_abs_lt ?_
  rw [abs_mul, abs_factor, one_mul, abs_of_nonneg (by positivity)]
  calc (m * 2 ^ e : ℝ) < 2 ^ 53 * 2 ^ e := mul_lt_mul_of_pos_right hhigh (by positivity)
    _ ≤ 2 ^ 53 * 2 ^ (971 : ℤ) := mul_le_mul_of_nonneg_left
        (zpow_le_zpow_right₀ (by norm_num) he) (by positivity)
    _ = limit := by
        unfold limit
        rw [← zpow_natCast, ← zpow_add₀ (by norm_num)]
        rfl

theorem packedValue_packedInfinity (s : Sign) :
    packedValue (packedInfinity Format.binary64 s) = unpackedValue (.infinity s) := by
  cases s <;> rfl

theorem packedValue_packComponents (s : Sign) {e : BitVec 11} (m : BitVec 52)
    (he : e.toNat < 2047) :
    packedValue (packComponents Format.binary64 s e m) =
      if e.toNat = 0 then some ((factor s * (m.toNat * 2 ^ (-1074 : ℤ)) : ℝ) : EReal)
      else some ((factor s * ((2 ^ 52 + m.toNat : ℕ) * 2 ^ (e.toNat - 1075 : ℤ)) : ℝ) : EReal) := by
  have hfinite : e ≠ -1#11 := by
    rintro rfl
    exact absurd he (by decide)
  have hzero : e = 0#11 ↔ e.toNat = 0 := BitVec.toNat_eq
  rw [packedValue_eq]
  dsimp only
  rw [unpackExponent_packComponents, unpackMantissa_packComponents, sign_packComponents,
    if_neg hfinite, if_congr hzero rfl rfl]

theorem pack_of_great_exponent (s : Sign) {m : ℕ} (hm : 0 < m) {e : ℤ} (he : 971 < e) :
    UnpackedFloat.pack Format.binary64 (.finite s m e hm) =
      packedInfinity Format.binary64 s := by
  unfold UnpackedFloat.pack
  dsimp only
  rw [exponentBias_eq, if_pos]
  push_cast
  omega

theorem packedValue_pack_finite (s : Sign) {m : ℕ} {hm : 0 < m} {e : ℤ}
    (ha : Canonical (.finite s m e hm)) (he : e ≤ 971) :
    packedValue (UnpackedFloat.pack Format.binary64 (.finite s m e hm)) =
      unpackedValue (.finite s m e hm) := by
  obtain ⟨hbits, hleast, hnormal⟩ := ha
  rw [unpackedValue_finite]
  unfold UnpackedFloat.pack
  dsimp only
  rw [exponentBias_eq, if_neg (by push_cast; omega)]
  by_cases hlog : m.log2 + 1 = Format.binary64.mantissaBits
  · -- The first bit is not written, and a positive exponent field puts it back.
    have hlow : 2 ^ 52 ≤ m := by
      have hlog : m.log2 = 52 := Nat.succ.inj hlog
      exact hlog ▸ Nat.log2_self_le hm.ne'
    have hexponent : (BitVec.ofNat 11 (e + (1023 : ℕ) + (52 : ℕ) : ℤ).toNat).toNat =
        (e + 1075).toNat := by
      rw [BitVec.toNat_ofNat]
      push_cast
      omega
    have hmantissa : 2 ^ 52 + (BitVec.ofNat 52 m).toNat = m := by
      rw [BitVec.toNat_ofNat]
      omega
    have hback : ((e + 1075).toNat - 1075 : ℤ) = e := by omega
    rw [if_pos hlog, packedValue_packComponents _ _ (by omega), hmantissa, hexponent,
      if_neg (by omega), hback]
    rfl
  · -- A mantissa with fewer bits is written whole, and its exponent is the least.
    have hhigh : m < 2 ^ 52 := by
      by_contra hlow
      have hge := (Nat.le_log2 hm.ne').mpr (Nat.not_lt.mp hlow)
      have hlt := (Nat.log2_lt hm.ne').mpr hbits
      exact hlog (show m.log2 + 1 = 53 by omega)
    have hmantissa : (BitVec.ofNat 52 m).toNat = m := by
      rw [BitVec.toNat_ofNat]
      omega
    obtain rfl : e = -1074 := hnormal.resolve_left (by omega)
    rw [if_neg hlog, packedValue_packComponents _ _ (by decide),
      if_pos (show (0#11).toNat = 0 from rfl), hmantissa]
    rfl

/-- **Packing.** The packed number has the value of the canonical one, or is infinite if that is
too great. -/
theorem packedValue_pack {a : UnpackedFloat} (ha : Canonical a) :
    packedValue (UnpackedFloat.pack Format.binary64 a) = (unpackedValue a).map clip := by
  cases a with
  | notANumber => rfl
  | infinity s =>
    cases s with
    | negative => exact congrArg some clip_bot.symm
    | positive => exact congrArg some clip_top.symm
  | zero s =>
    show _ = some (clip 0)
    rw [clip_zero]
    cases s <;> rfl
  | finite s m e hm =>
    by_cases he : 971 < e
    · rw [pack_of_great_exponent s hm he, packedValue_packedInfinity, unpackedValue_infinity]
      exact congrArg some (clip_of_great_exponent s ha he).symm
    · rw [packedValue_pack_finite s ha (Int.not_lt.mp he)]
      exact congrArg some (clip_of_exponent_le s ha (Int.not_lt.mp he)).symm

end RollingBall.Double
