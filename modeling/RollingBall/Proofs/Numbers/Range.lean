import RollingBall.Proofs.Numbers.Double

/-!
# The range of doubles

A double is finite if its value is a real, which is then at most `greatest` on either side of zero.
So opposites are exact (`Double.value_neg`). What is less than half a last place beyond the greatest
double is rounded back to it, so one may be added to any finite double
(`Double.round_add_le_one`).
-/

namespace RollingBall.Double

open Float.Model Float.Model.UnpackedFloat

/-! ## Finite doubles -/

theorem unpackedValue_infinity_ne (s : Sign) (r : ℝ) :
    unpackedValue (.infinity s) ≠ some (r : EReal) := by
  intro h
  cases s with
  | negative => exact EReal.bot_ne_coe r (Option.some.inj h)
  | positive => exact EReal.top_ne_coe r (Option.some.inj h)

theorem isFinite_iff (x : Float) : x.isFinite = true ↔ ∃ r : ℝ, value x = some (r : EReal) := by
  show x.toModel.unpack.isFinite = true ↔ ∃ r : ℝ, unpackedValue x.toModel.unpack = some (r : EReal)
  cases x.toModel.unpack with
  | notANumber => exact iff_of_false Bool.false_ne_true (by rintro ⟨r, ⟨⟩⟩)
  | infinity s =>
    refine iff_of_false Bool.false_ne_true ?_
    rintro ⟨r, hr⟩
    exact unpackedValue_infinity_ne s r hr
  | zero s => exact iff_of_true rfl ⟨0, rfl⟩
  | finite s m e hm => exact iff_of_true rfl ⟨_, rfl⟩

/-- Great powers of two in terms of the greatest place. -/
theorem zpow_eq_mul_lastPlace {k : ℤ} (n : ℕ) (h : k = n + 971) :
    (2 : ℝ) ^ k = 2 ^ n * 2 ^ (971 : ℤ) := by
  rw [h, zpow_add₀ (by norm_num), zpow_natCast]

/-- The greatest double is 53 ones at the greatest place. -/
theorem greatest_eq : greatest = ((2 ^ 53 - 1 : ℤ) : ℝ) * 2 ^ (971 : ℤ) := by
  unfold greatest limit
  rw [zpow_eq_mul_lastPlace (k := 1024) 53 rfl]
  push_cast
  ring

theorem abs_le_greatest_of_bits (s : Sign) {m : ℕ} {e : ℤ} (hm : m < 2 ^ 53) (he : e ≤ 971) :
    |factor s * (m * 2 ^ e)| ≤ greatest := by
  have hbits : (m : ℝ) ≤ ((2 ^ 53 - 1 : ℤ) : ℝ) := by
    exact_mod_cast (show (m : ℤ) ≤ 2 ^ 53 - 1 by omega)
  rw [greatest_eq, abs_mul, abs_factor, one_mul, abs_of_nonneg (by positivity)]
  exact mul_le_mul hbits (zpow_le_zpow_right₀ (by norm_num) he) (by positivity)
    ((Nat.cast_nonneg m).trans hbits)

/-- The value of a finite double is no greater than the greatest one. -/
theorem packedValue_abs_le {b : BitVec 64} {r : ℝ} (h : packedValue b = some (r : EReal)) :
    |r| ≤ greatest := by
  have hmantissa : (@unpackMantissa Format.binary64 b).toNat < 2 ^ 52 :=
    (@unpackMantissa Format.binary64 b).isLt
  have hexponent : (@unpackExponent Format.binary64 b).toNat < 2 ^ 11 :=
    (@unpackExponent Format.binary64 b).isLt
  rw [packedValue_eq] at h
  dsimp only at h
  split at h
  · split at h
    · exact absurd h (unpackedValue_infinity_ne _ r)
    · exact absurd h (by simp)
  · rename_i hones
    split at h
    · rw [← EReal.coe_injective (Option.some.inj h)]
      exact abs_le_greatest_of_bits _ (by omega) (by norm_num)
    · rw [← EReal.coe_injective (Option.some.inj h)]
      refine abs_le_greatest_of_bits _ (by omega) ?_
      have hne : (@unpackExponent Format.binary64 b).toNat ≠ 2047 := fun heq =>
        hones (BitVec.eq_of_toNat_eq heq)
      omega

theorem value_abs_le {a : Float} {r : ℝ} (h : value a = some (r : EReal)) : |r| ≤ greatest :=
  packedValue_abs_le h

/-! ## Opposites -/

/-- Opposites are exact. -/
theorem value_neg (a : Float) : value (-a) = (value a).map fun x => -x := by
  have hpack : value (-a) = (unpackedValue a.toModel.unpack.neg).map clip :=
    value_pack (canonical_neg (canonical_toModel a))
  rw [hpack, unpackedValue_neg, Option.map_map]
  show (value a).map _ = _
  cases ha : value a with
  | none => rfl
  | some x =>
    refine congrArg some ?_
    induction x using EReal.rec with
    | bot => exact (congrArg clip EReal.neg_bot).trans (clip_top.trans EReal.neg_bot.symm)
    | top => exact (congrArg clip EReal.neg_top).trans (clip_bot.trans EReal.neg_top.symm)
    | coe r =>
      show clip (-(r : EReal)) = -(r : EReal)
      rw [← EReal.coe_neg]
      refine clip_of_abs_lt ?_
      rw [abs_neg]
      exact (value_abs_le ha).trans_lt greatest_lt_limit

/-! ## Room above -/

theorem nearestInt_le_of_lt {x : ℝ} {n : ℤ} (h : 2 * x < 2 * n + 1) : nearestInt x ≤ n := by
  have hfloor : ⌊2 * x⌋ < 2 * n + 1 := by
    rw [Int.floor_lt]
    exact_mod_cast h
  unfold nearestInt
  split <;> omega

theorem nearest_le_of_lt {x : ℝ} {n : ℤ} (h : 2 * x < (2 * n + 1) * 2 ^ place x) :
    nearest x ≤ n * 2 ^ place x := by
  unfold nearest
  refine mul_le_mul_of_nonneg_right ?_ (by positivity)
  have hhalf : 2 * (x / 2 ^ place x) < 2 * n + 1 := by
    rw [← mul_div_assoc, div_lt_iff₀ (by positivity)]
    exact h
  exact_mod_cast nearestInt_le_of_lt hhalf

theorem nearest_greatest : nearest greatest = greatest := by
  rw [greatest_eq]
  exact nearest_of_bits (by norm_num) (by norm_num)

theorem two_lt_lastPlace : (2 : ℝ) < 2 ^ (971 : ℤ) := by
  calc (2 : ℝ) = 2 ^ (1 : ℤ) := (zpow_one 2).symm
    _ < 2 ^ (971 : ℤ) := zpow_lt_zpow_right₀ (by norm_num) (by norm_num)

theorem place_greatest_add_one : place (greatest + 1) = 971 := by
  have hlast := two_lt_lastPlace
  have hlow : (2 : ℝ) ^ (1023 : ℤ) ≤ greatest + 1 := by
    rw [zpow_eq_mul_lastPlace (k := 1023) 52 rfl, greatest_eq]
    generalize (2 : ℝ) ^ (971 : ℤ) = p at hlast ⊢
    norm_num
    linarith
  have hhigh : greatest + 1 < (2 : ℝ) ^ (1024 : ℤ) := by
    rw [zpow_eq_mul_lastPlace (k := 1024) 53 rfl, greatest_eq]
    generalize (2 : ℝ) ^ (971 : ℤ) = p at hlast ⊢
    norm_num
    linarith
  have hpos : 0 < greatest + 1 := lt_of_lt_of_le (by positivity) hlow
  have hlog : Int.log 2 (greatest + 1) = 1023 := by
    refine le_antisymm (Int.lt_add_one_iff.mp ?_) ?_
    · exact (Int.lt_zpow_iff_log_lt (by norm_num) hpos).mp (by rwa [Nat.cast_ofNat])
    · exact (Int.zpow_le_iff_le_log (by norm_num) hpos).mp (by rwa [Nat.cast_ofNat])
  unfold place
  rw [abs_of_pos hpos, hlog]
  rfl

/-- One is far less than half the last place of the greatest double. -/
theorem nearest_greatest_add_one : nearest (greatest + 1) ≤ greatest := by
  have hlast := two_lt_lastPlace
  have hle := nearest_le_of_lt (x := greatest + 1) (n := 2 ^ 53 - 1)
  rw [place_greatest_add_one, ← greatest_eq] at hle
  refine hle ?_
  rw [greatest_eq]
  push_cast
  generalize (2 : ℝ) ^ (971 : ℤ) = p at hlast ⊢
  linarith

theorem round_add_le_one {a : Float} {x r : ℝ} (h : value a = some (x : EReal)) (hr : 0 ≤ r)
    (hone : r ≤ 1) : ∃ s : ℝ, round ((x + r : ℝ) : EReal) = (s : EReal) := by
  obtain ⟨hlow, hhigh⟩ := abs_le.mp (value_abs_le h)
  refine ⟨nearest (x + r), ?_⟩
  unfold round
  rw [unclipped_coe]
  refine clip_of_abs_lt (lt_of_le_of_lt (abs_le.mpr ⟨?_, ?_⟩) greatest_lt_limit)
  · calc -greatest = nearest (-greatest) := by rw [nearest_neg, nearest_greatest]
      _ ≤ nearest (x + r) := nearest_mono (by linarith)
  · exact (nearest_mono (by linarith)).trans nearest_greatest_add_one

end RollingBall.Double

namespace RollingBall

/-- Doubles have exact opposites and room for one more. -/
instance : Scalar.Ieee.Roomy Float where
  value_neg := Double.value_neg
  round_add_le_one := Double.round_add_le_one

end RollingBall
