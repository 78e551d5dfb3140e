import Mathlib.Algebra.Order.Field.Power
import Mathlib.Data.EReal.Basic
import Mathlib.Data.Int.Log

/-!
# Rounding to the nearest double

A real is rounded to a multiple of its last place, a power of two which is such that the multiple
has 53 bits, or fewer near zero (`Double.nearest`). What is as great as `2 ^ 1024` afterwards
becomes infinite (`Double.round`). Rounding is monotone and leaves multiples of the last place as
they are.
-/

namespace RollingBall.Double

/-! ## Integers -/

/-- The nearest integer, the even one if there are two. -/
noncomputable def nearestInt (x : ℝ) : ℤ :=
  if 2 * x = ⌊2 * x⌋ ∧ ⌊2 * x⌋ % 4 = 1 then ⌊2 * x⌋ / 2 else (⌊2 * x⌋ + 1) / 2

@[simp] theorem nearestInt_intCast (n : ℤ) : nearestInt n = n := by
  have hfloor : ⌊2 * (n : ℝ)⌋ = 2 * n := by
    rw [← Int.cast_ofNat, ← Int.cast_mul, Int.floor_intCast]
  unfold nearestInt
  rw [hfloor, if_neg (by omega)]
  omega

theorem nearestInt_mono {x y : ℝ} (hxy : x ≤ y) : nearestInt x ≤ nearestInt y := by
  have hfloor : ⌊2 * x⌋ ≤ ⌊2 * y⌋ := Int.floor_mono (by linarith)
  unfold nearestInt
  rcases hfloor.lt_or_eq with hlt | heq
  · split <;> split <;> omega
  · rw [← heq]
    split
    · split <;> omega
    · rename_i hx
      -- A tie at the upper number is one at the lower: nothing is between the halves and `2 * y`.
      rw [if_neg]
      rintro ⟨hy, hfour⟩
      have hlow := Int.floor_le (2 * x)
      exact hx ⟨by linarith, hfour⟩

theorem nearestInt_neg (x : ℝ) : nearestInt (-x) = -nearestInt x := by
  unfold nearestInt
  by_cases hx : 2 * x = ⌊2 * x⌋
  · have hfloor : ⌊2 * -x⌋ = -⌊2 * x⌋ := by
      rw [show 2 * -x = ((-⌊2 * x⌋ : ℤ) : ℝ) by push_cast; linarith, Int.floor_intCast]
    have htie : (2 * -x = ⌊2 * -x⌋ ∧ ⌊2 * -x⌋ % 4 = 1) ↔ (-⌊2 * x⌋) % 4 = 1 := by
      rw [hfloor]
      refine and_iff_right ?_
      push_cast
      linarith
    rw [if_congr htie rfl rfl, if_congr (and_iff_right hx) rfl rfl, hfloor]
    split <;> split <;> omega
  · have hlow := Int.floor_le (2 * x)
    have hlt : (⌊2 * x⌋ : ℝ) < 2 * x := lt_of_le_of_ne hlow (Ne.symm hx)
    have hhigh := Int.lt_floor_add_one (2 * x)
    have hfloor : ⌊2 * -x⌋ = -⌊2 * x⌋ - 1 := by
      rw [Int.floor_eq_iff]
      push_cast
      constructor <;> linarith
    have hneg : 2 * -x ≠ ⌊2 * -x⌋ := by
      rw [hfloor]
      push_cast
      intro heq
      linarith
    rw [if_neg (fun h => hneg h.1), if_neg (fun h => hx h.1), hfloor]
    omega

theorem nearestInt_le {x : ℝ} {n : ℤ} (h : x ≤ n) : nearestInt x ≤ n :=
  (nearestInt_mono h).trans (nearestInt_intCast n).le

theorem le_nearestInt {x : ℝ} {n : ℤ} (h : (n : ℝ) ≤ x) : n ≤ nearestInt x :=
  (nearestInt_intCast n).ge.trans (nearestInt_mono h)

/-! ## Doubles -/

/-- A mantissa times a power of two. -/
noncomputable abbrev size (m : ℕ) (e : ℤ) : ℝ := m * 2 ^ e

/-- The exponent of the last place of the doubles near a real. -/
noncomputable def place (x : ℝ) : ℤ := max (Int.log 2 |x| - 52) (-1074)

/-- The nearest multiple of the last place. -/
noncomputable def nearest (x : ℝ) : ℝ := nearestInt (x / 2 ^ place x) * 2 ^ place x

theorem place_neg (x : ℝ) : place (-x) = place x := by
  unfold place
  rw [abs_neg]

theorem nearest_neg (x : ℝ) : nearest (-x) = -nearest x := by
  unfold nearest
  rw [place_neg, neg_div, nearestInt_neg, Int.cast_neg, neg_mul]

/-! ### Bounds -/

theorem nearest_le {x : ℝ} {n k : ℤ} (h : x ≤ n * 2 ^ k) (hk : place x ≤ k) :
    nearest x ≤ n * 2 ^ k := by
  obtain ⟨j, rfl⟩ : ∃ j : ℕ, k = place x + j := ⟨(k - place x).toNat, by omega⟩
  have hsplit : (n * 2 ^ (place x + j) : ℝ) = ((n * 2 ^ j : ℤ) : ℝ) * 2 ^ place x := by
    rw [zpow_add₀ (by norm_num), zpow_natCast]
    push_cast
    ring
  rw [hsplit] at h ⊢
  refine mul_le_mul_of_nonneg_right ?_ (by positivity)
  exact_mod_cast nearestInt_le ((div_le_iff₀ (by positivity)).mpr h)

theorem le_nearest {x : ℝ} {n k : ℤ} (h : n * 2 ^ k ≤ x) (hk : place x ≤ k) :
    n * 2 ^ k ≤ nearest x := by
  have hneg := nearest_le (x := -x) (n := -n) (k := k) (by push_cast; linarith)
    (place_neg x ▸ hk)
  rw [nearest_neg] at hneg
  push_cast at hneg
  linarith

/-- Multiples of the last place stay. -/
theorem nearest_of_multiple {x : ℝ} {n k : ℤ} (h : x = n * 2 ^ k) (hk : place x ≤ k) :
    nearest x = x := by
  refine le_antisymm ?_ ?_
  · exact (nearest_le h.le hk).trans h.ge
  · exact h.le.trans (le_nearest h.ge hk)

theorem lt_zpow_place (x : ℝ) : |x| < 2 ^ (place x + 53) := by
  have hlog : |x| < 2 ^ (Int.log 2 |x| + 1) := by
    exact_mod_cast Int.lt_zpow_succ_log_self (b := 2) (by norm_num) |x|
  refine hlog.trans_le (zpow_le_zpow_right₀ (by norm_num) ?_)
  unfold place
  omega

theorem zpow_place_le {x : ℝ} (hx : x ≠ 0) (h : -1074 < place x) : 2 ^ (place x + 52) ≤ |x| := by
  have hlog : (2 : ℝ) ^ Int.log 2 |x| ≤ |x| := by
    exact_mod_cast Int.zpow_log_le_self (b := 2) (by norm_num) (abs_pos.mpr hx)
  refine le_trans (zpow_le_zpow_right₀ (by norm_num) ?_) hlog
  unfold place at h ⊢
  omega

theorem le_place {x : ℝ} (hx : 0 < x) {k : ℤ} (h : 2 ^ (k + 52) ≤ x) : k ≤ place x := by
  have hlog : k + 52 ≤ Int.log 2 |x| := by
    rw [abs_of_pos hx]
    exact (Int.zpow_le_iff_le_log (by norm_num) hx).mp (by exact_mod_cast h)
  unfold place
  omega

theorem place_mono {x y : ℝ} (hx : 0 < x) (h : x ≤ y) : place x ≤ place y := by
  have hlog : Int.log 2 |x| ≤ Int.log 2 |y| := by
    refine Int.log_mono_right (abs_pos.mpr hx.ne') ?_
    rwa [abs_of_pos hx, abs_of_pos (hx.trans_le h)]
  unfold place
  omega

theorem nearest_mono_of_pos {x y : ℝ} (hx : 0 < x) (h : x ≤ y) : nearest x ≤ nearest y := by
  rcases (place_mono hx h).lt_or_eq with hlt | heq
  · -- A power of two lies between the numbers.
    have hxtwo : x ≤ (1 : ℤ) * 2 ^ (place y + 52) := by
      have hlt' := lt_zpow_place x
      rw [abs_of_pos hx] at hlt'
      rw [Int.cast_one, one_mul]
      exact hlt'.le.trans (zpow_le_zpow_right₀ (by norm_num) (by omega))
    have hytwo : (1 : ℤ) * 2 ^ (place y + 52) ≤ y := by
      have hle := zpow_place_le (hx.trans_le h).ne' (lt_of_le_of_lt (le_max_right _ _) hlt)
      rw [abs_of_pos (hx.trans_le h)] at hle
      rwa [Int.cast_one, one_mul]
    exact (nearest_le hxtwo (by omega)).trans (le_nearest hytwo (by omega))
  · unfold nearest
    rw [heq]
    refine mul_le_mul_of_nonneg_right ?_ (by positivity)
    exact_mod_cast nearestInt_mono (div_le_div_of_nonneg_right h (by positivity))

theorem nearest_nonneg {x : ℝ} (hx : 0 ≤ x) : 0 ≤ nearest x := by
  have h := le_nearest (x := x) (n := 0) (k := place x) (by simpa using hx) le_rfl
  simpa using h

@[simp] theorem nearest_zero : nearest 0 = 0 := by
  refine le_antisymm ?_ (nearest_nonneg le_rfl)
  have h := nearest_neg 0
  rw [neg_zero] at h
  linarith

theorem nearest_mono : Monotone nearest := by
  intro x y h
  rcases lt_or_ge 0 x with hx | hx
  · exact nearest_mono_of_pos hx h
  · rcases lt_or_ge y 0 with hy | hy
    · have hneg := nearest_mono_of_pos (neg_pos.mpr hy) (neg_le_neg h)
      rw [nearest_neg, nearest_neg] at hneg
      linarith
    · have hnonpos := nearest_nonneg (neg_nonneg.mpr hx)
      rw [nearest_neg] at hnonpos
      exact (neg_nonneg.mp hnonpos).trans (nearest_nonneg hy)

/-- Numbers of at most 53 bits are doubles. -/
theorem nearest_of_bits {n k : ℤ} (hn : |n| < 2 ^ 53) (hk : -1074 ≤ k) :
    nearest (n * 2 ^ k) = n * 2 ^ k := by
  by_cases hzero : n = 0
  · rw [hzero, Int.cast_zero, zero_mul, nearest_zero]
  have habs : |(n : ℝ) * 2 ^ k| < 2 ^ (k + 53) := by
    rw [abs_mul, abs_of_pos (by positivity : (0 : ℝ) < 2 ^ k), add_comm, zpow_add₀ (by norm_num)]
    refine mul_lt_mul_of_pos_right ?_ (by positivity)
    exact_mod_cast hn
  have hlog : Int.log 2 |(n : ℝ) * 2 ^ k| < k + 53 := by
    rw [← Int.lt_zpow_iff_log_lt (by norm_num) (by positivity)]
    exact_mod_cast habs
  refine nearest_of_multiple rfl ?_
  unfold place
  omega

theorem nearest_dyadic {n : ℤ} {k : ℕ} (hn : |n| ≤ 2 ^ 53) (hk : k ≤ 1074) :
    nearest (n / 2 ^ k) = n / 2 ^ k := by
  have hdyadic : ∀ m j : ℤ, (m * 2 ^ j : ℝ) * 2 ^ k = m * 2 ^ (j + k) := fun m j => by
    rw [mul_assoc, zpow_add₀ (by norm_num), zpow_natCast]
  rcases hn.lt_or_eq with hlt | heq
  · have h : (n / 2 ^ k : ℝ) = n * 2 ^ (-k : ℤ) := by
      rw [div_eq_iff (by positivity), hdyadic, neg_add_cancel, zpow_zero, mul_one]
    have hexponent : (-1074 : ℤ) ≤ -k := by omega
    rw [h]
    exact nearest_of_bits hlt hexponent
  · obtain ⟨m, rfl⟩ : ∃ m, n = 2 * m := by
      rcases (abs_eq (by norm_num)).mp heq with h | h
      · exact ⟨2 ^ 52, by omega⟩
      · exact ⟨-2 ^ 52, by omega⟩
    have h : ((2 * m : ℤ) / 2 ^ k : ℝ) = m * 2 ^ (1 - k : ℤ) := by
      rw [div_eq_iff (by positivity), hdyadic, sub_add_cancel, zpow_one]
      push_cast
      ring
    have hexponent : (-1074 : ℤ) ≤ 1 - k := by omega
    have hbits : |m| < 2 ^ 53 := by
      rw [abs_mul, abs_two] at heq
      omega
    rw [h]
    exact nearest_of_bits hbits hexponent

/-! ## Infinities -/

/-- The least power of two that is too great for a double. -/
noncomputable def limit : ℝ := 2 ^ (1024 : ℤ)

/-- The greatest double: a unit of the greatest place below the limit. -/
noncomputable def greatest : ℝ := limit - 2 ^ (971 : ℤ)

/-- What is too great for a double is infinite. -/
noncomputable def clip (x : EReal) : EReal :=
  if (limit : EReal) ≤ x then ⊤ else if x ≤ ((-limit : ℝ) : EReal) then ⊥ else x

/-- The nearest number of 53 bits, however great. -/
noncomputable def unclipped (x : EReal) : EReal :=
  if x = ⊤ ∨ x = ⊥ then x else nearest x.toReal

/-- The nearest double. -/
noncomputable def round (x : EReal) : EReal := clip (unclipped x)

theorem clip_mono : Monotone clip := by
  intro x y h
  unfold clip
  by_cases hy : (limit : EReal) ≤ y
  · rw [if_pos hy]
    exact le_top
  · rw [if_neg (fun hx => hy (hx.trans h)), if_neg hy]
    by_cases hx : x ≤ ((-limit : ℝ) : EReal)
    · rw [if_pos hx]
      exact bot_le
    · rw [if_neg hx, if_neg (fun hy => hx (h.trans hy))]
      exact h

theorem limit_pos : 0 < limit := by
  unfold limit
  positivity

theorem greatest_lt_limit : greatest < limit :=
  sub_lt_self limit (by positivity)

theorem clip_of_le {r : ℝ} (h : limit ≤ r) : clip r = ⊤ :=
  if_pos (EReal.coe_le_coe_iff.mpr h)

theorem clip_neg_of_le {r : ℝ} (h : limit ≤ r) : clip ((-r : ℝ) : EReal) = ⊥ := by
  have hpos := limit_pos
  unfold clip
  rw [if_neg, if_pos]
  · rw [EReal.coe_le_coe_iff]
    linarith
  · rw [EReal.coe_le_coe_iff]
    linarith

theorem clip_of_abs_lt {r : ℝ} (h : |r| < limit) : clip r = r := by
  obtain ⟨hlow, hhigh⟩ := abs_lt.mp h
  unfold clip
  rw [if_neg, if_neg]
  · rw [EReal.coe_le_coe_iff]
    linarith
  · rw [EReal.coe_le_coe_iff]
    linarith

@[simp] theorem clip_top : clip ⊤ = ⊤ := if_pos le_top

@[simp] theorem clip_bot : clip ⊥ = ⊥ := by
  unfold clip
  rw [if_neg (by simp [EReal.coe_ne_bot]), if_pos bot_le]

@[simp] theorem clip_zero : clip 0 = 0 :=
  clip_of_abs_lt (by rw [abs_zero]; exact limit_pos)

@[simp] theorem unclipped_top : unclipped ⊤ = ⊤ := if_pos (.inl rfl)

@[simp] theorem unclipped_bot : unclipped ⊥ = ⊥ := if_pos (.inr rfl)

@[simp] theorem unclipped_coe (r : ℝ) : unclipped r = (nearest r : EReal) := by
  unfold unclipped
  rw [if_neg (by simp), EReal.toReal_coe]

theorem unclipped_mono : Monotone unclipped := by
  intro x y h
  induction x using EReal.rec with
  | bot => simp
  | top =>
    rw [top_le_iff.mp h]
  | coe r =>
    induction y using EReal.rec with
    | bot => simp at h
    | top => simp
    | coe s =>
      rw [unclipped_coe, unclipped_coe, EReal.coe_le_coe_iff]
      exact nearest_mono (EReal.coe_le_coe_iff.mp h)

theorem round_mono : Monotone round := clip_mono.comp unclipped_mono

theorem round_top : round ⊤ = ⊤ := by
  unfold round
  rw [unclipped_top, clip_top]

theorem round_bot : round ⊥ = ⊥ := by
  unfold round
  rw [unclipped_bot, clip_bot]

theorem round_dyadic (n : ℤ) (k : ℕ) (hn : |n| ≤ 2 ^ 53) (hk : k ≤ 1074) :
    round ((n / 2 ^ k : ℝ) : EReal) = ((n / 2 ^ k : ℝ) : EReal) := by
  have hbound : |(n / 2 ^ k : ℝ)| ≤ 2 ^ 53 := by
    rw [abs_div, abs_of_pos (by positivity : (0 : ℝ) < 2 ^ k)]
    refine (div_le_self (abs_nonneg _) (one_le_pow₀ (by norm_num))).trans ?_
    exact_mod_cast hn
  have hlimit : (2 ^ 53 : ℝ) < limit := by
    rw [← zpow_natCast]
    exact zpow_lt_zpow_right₀ (by norm_num) (by norm_num)
  unfold round
  rw [unclipped_coe, nearest_dyadic hn hk, clip_of_abs_lt (hbound.trans_lt hlimit)]

theorem round_of_great {x : ℝ} (h : limit ≤ x) : round x = ⊤ := by
  have hexact : nearest limit = limit := by
    have hone := nearest_of_bits (n := 1) (k := 1024) (by norm_num) (by norm_num)
    rw [Int.cast_one, one_mul] at hone
    exact hone
  unfold round
  rw [unclipped_coe]
  exact clip_of_le (hexact.ge.trans (nearest_mono h))

/-- What is a quarter of the least positive double or less becomes zero. -/
theorem round_of_small {x : ℝ} (hx : 0 ≤ x) (h : x ≤ 2 ^ (-1076 : ℤ)) : round x = 0 := by
  have hplace : place (2 ^ (-1076 : ℤ)) = -1074 := by
    have hlog : Int.log 2 ((2 : ℝ) ^ (-1076 : ℤ)) = -1076 := by
      exact_mod_cast Int.log_zpow (R := ℝ) (b := 2) (by norm_num) (-1076)
    unfold place
    rw [abs_of_pos (by positivity), hlog]
    norm_num
  have hquarter : nearest (2 ^ (-1076 : ℤ)) = 0 := by
    have hfloor : ⌊2 * ((2 : ℝ) ^ (-1076 : ℤ) / 2 ^ (-1074 : ℤ))⌋ = 0 := by
      rw [← zpow_sub₀ (by norm_num), Int.floor_eq_zero_iff]
      norm_num
    unfold nearest nearestInt
    rw [hplace, hfloor, if_neg (by norm_num)]
    norm_num
  have hzero : nearest x = 0 :=
    le_antisymm (hquarter ▸ nearest_mono h) (nearest_nonneg hx)
  unfold round
  rw [unclipped_coe, hzero, EReal.coe_zero, clip_zero]

end RollingBall.Double
