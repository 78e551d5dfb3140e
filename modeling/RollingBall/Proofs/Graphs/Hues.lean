import RollingBall.Proofs.Numbers.Whole
import RollingBall.Graph

/-!
# Colors of hues

The hues are a circle of six sextants. In exact arithmetic each channel of a color follows the hue
by the same wave, a third of the circle apart from the others (`Rgb.ofHsv_real`). So a hue and its
whole turns have one color, and one channel is always full and another one empty
(`channels_follow_hue`). The graphs past the palette have such colors.

## Main definitions

* `Hue.place`: the place of a number of sextants on the circle.
* `Hue.lack`: the part of the full color that a channel lacks at a place.
* `Rgb.shade`: what a channel has of a color.
* `Rgb.largest`, `Rgb.smallest`: the extreme channels.
-/

namespace RollingBall

open scoped Reals

namespace Hue

/-! ## The circle -/

/-- The place on the circle that some sextants lead to. -/
noncomputable def place (x : ℝ) : ℝ := 6 * Int.fract (x / 6)

theorem place_nonneg (x : ℝ) : 0 ≤ place x := mul_nonneg (by norm_num) (Int.fract_nonneg _)

theorem place_lt (x : ℝ) : place x < 6 := by
  have hlt := Int.fract_lt_one (x / 6)
  unfold place
  linarith

/-- Whole turns lead back. -/
theorem place_add_turns (x : ℝ) (turns : ℤ) : place (x + 6 * turns) = place x := by
  unfold place
  rw [add_div, mul_div_cancel_left₀ _ (by norm_num), Int.fract_add_intCast]

theorem place_add_place (x y : ℝ) : place (x + place y) = place (x + y) := by
  have hturns : x + y = x + place y + 6 * (⌊y / 6⌋ : ℤ) := by
    unfold place Int.fract
    ring
  rw [hturns, place_add_turns]

theorem place_natCast_add (m : ℕ) {p : ℝ} (hp : 0 ≤ p) (hlt : p < 1) :
    place (m + p) = (m % 6 : ℕ) + p :=
  mul_fract_natCast_add (by norm_num) m hp hlt

/-! ## The wave -/

/-- The part of the full color that a channel lacks at a place: ever more of it in the first
sextant, all in the next two, ever less in the fourth one and nothing in the rest. -/
noncomputable def lack (k : ℝ) : ℝ := max 0 (min k (min (4 - k) 1))

theorem lack_nonneg (k : ℝ) : 0 ≤ lack k := le_max_left _ _

theorem lack_le_one (k : ℝ) : lack k ≤ 1 :=
  max_le zero_le_one ((min_le_right _ _).trans (min_le_right _ _))

/-- The wave by sextants, at a distance from the beginning of one. -/
noncomputable def lackIn (p : ℝ) : ℕ → ℝ
  | 0 => p
  | 1 | 2 => 1
  | 3 => 1 - p
  | _ => 0

theorem lack_natCast_add {m : ℕ} (hm : m < 6) {p : ℝ} (hp : 0 ≤ p) (hlt : p < 1) :
    lack (m + p) = lackIn p m := by
  unfold lack
  interval_cases m <;> simp only [lackIn] <;> grind

/-- Every hue is in one of the sextants, at some distance from where it begins. The wave is read for
red five sextants ahead of it, for green three and for blue one, at the same distance. -/
theorem exists_sextant (x : ℝ) : ∃ j < 6, ∃ p : ℝ, 0 ≤ p ∧ p < 1 ∧ place x = (j : ℕ) + p ∧
    lack (place (5 + x)) = lackIn p ((5 + j) % 6) ∧
    lack (place (3 + x)) = lackIn p ((3 + j) % 6) ∧
    lack (place (1 + x)) = lackIn p ((1 + j) % 6) := by
  have hfloor : place x = (⌊place x⌋₊ : ℝ) + Int.fract (place x) := by
    rw [natCast_floor_eq_intCast_floor (place_nonneg x), Int.floor_add_fract]
  have hp := Int.fract_nonneg (place x)
  have hlt := Int.fract_lt_one (place x)
  have hsextant : ⌊place x⌋₊ < 6 := (Nat.floor_lt (place_nonneg x)).mpr (place_lt x)
  have hahead (n : ℕ) :
      lack (place (n + x)) = lackIn (Int.fract (place x)) ((n + ⌊place x⌋₊) % 6) := by
    have hn : (n : ℝ) + place x = (n + ⌊place x⌋₊ : ℕ) + Int.fract (place x) := by
      rw [Nat.cast_add, add_assoc, ← hfloor]
    rw [← place_add_place, hn, place_natCast_add _ hp hlt,
      lack_natCast_add (Nat.mod_lt _ (by norm_num)) hp hlt]
  exact ⟨⌊place x⌋₊, hsextant, Int.fract (place x), hp, hlt, hfloor,
    by exact_mod_cast hahead 5, by exact_mod_cast hahead 3, by exact_mod_cast hahead 1⟩

/-- One channel lacks nothing, and one lacks everything. -/
theorem exists_extremes (x : ℝ) :
    (lack (place (5 + x)) = 0 ∨ lack (place (3 + x)) = 0 ∨ lack (place (1 + x)) = 0) ∧
      (lack (place (5 + x)) = 1 ∨ lack (place (3 + x)) = 1 ∨ lack (place (1 + x)) = 1) := by
  obtain ⟨j, hj, p, -, -, -, hred, hgreen, hblue⟩ := exists_sextant x
  rw [hred, hgreen, hblue]
  interval_cases j <;> simp [lackIn]

end Hue

namespace Rgb

open Hue

/-! ## Bytes -/

theorem round_le_round {x y : ℝ} (h : x ≤ y) : round x ≤ round y := by
  rw [round_eq, round_eq]
  exact Int.floor_le_floor (by linarith)

/-- A part of the full intensity is rounded to a byte. -/
theorem toNat_channel {x : ℝ} (h : 0 ≤ x) (hle : x ≤ 1) :
    ((channel x).toNat : ℤ) = round (255 * x) := by
  have hnonneg : 0 ≤ round (255 * x) := by
    rw [← round_zero (α := ℝ)]
    exact round_le_round (by positivity)
  have hbyte : round (255 * x) ≤ 255 := by
    rw [← round_ofNat (α := ℝ) 255]
    exact round_le_round (by linarith)
  have hround : Scalar.round (x * 255.0) = ((round (255 * x) : ℤ) : ℝ) := by
    rw [scalarRound_of_nonneg (by positivity), mul_comm]
    norm_num
  have hclamp : Scalar.clamp 0.0 255.0 ((round (255 * x) : ℤ) : ℝ) = (round (255 * x) : ℤ) := by
    rw [Scalar.clamp_real (by norm_num), min_eq_right, max_eq_right]
    · norm_num
      exact hnonneg
    · norm_num
      exact_mod_cast hbyte
  have htruncate : Scalar.truncate 255 ((round (255 * x) : ℤ) : ℝ) = (round (255 * x)).toNat := by
    show min 255 ⌊((round (255 * x) : ℤ) : ℝ)⌋₊ = _
    rw [← Int.floor_toNat, Int.floor_intCast]
    omega
  unfold channel
  rw [hround, hclamp, htruncate, UInt8.toNat_ofNat']
  omega

/-! ## Channels -/

/-- What a channel has that is some sextants ahead of the hue: the full color without what the
channel lacks of the part that makes it colored. -/
noncomputable def shade (hue saturation brightness ahead : ℝ) : ℝ :=
  brightness - brightness * saturation * lack (place (ahead + hue / 60))

theorem modulo_hue (hue : ℝ) : Scalar.modulo hue 360.0 / 60.0 = place (hue / 60) := by
  rw [Scalar.modulo_real hue (by norm_num)]
  unfold place
  norm_num
  ring_nf

section Sextant

variable {j : ℕ} {p : ℝ} (hp : 0 ≤ p) (hlt : p < 1)

include hp hlt

theorem truncate_sextant (hj : j < 6) : Scalar.truncate (UInt32.size - 1) ((j : ℝ) + p) = j := by
  have hsize : j ≤ UInt32.size - 1 := hj.le.trans (by decide)
  show min _ ⌊(j : ℝ) + p⌋₊ = j
  rw [add_comm, Nat.floor_add_natCast hp, Nat.floor_eq_zero.mpr hlt, zero_add]
  exact min_eq_right hsize

/-- In an even sextant the channel between falls from where it is full; in an odd one it rises. -/
theorem abs_remainder_sextant (j : ℕ) :
    Scalar.abs (Scalar.remainder ((j : ℝ) + p) 2.0 - 1.0) = lackIn p (3 * ((j + 1) % 2)) := by
  have hrest : Scalar.remainder ((j : ℝ) + p) 2.0 = (j % 2 : ℕ) + p := by
    rw [Scalar.remainder_real_of_nonneg (by positivity) (by norm_num),
      ← mul_fract_natCast_add two_pos j hp hlt]
    norm_num
  show |_ - 1.0| = _
  rw [hrest]
  rcases Nat.mod_two_eq_zero_or_one j with heven | hodd
  · have hnext : (j + 1) % 2 = 1 := by omega
    rw [heven, hnext, abs_of_neg (by norm_num; linarith)]
    norm_num [lackIn]
  · have hnext : (j + 1) % 2 = 0 := by omega
    rw [hodd, hnext, abs_of_nonneg (by norm_num; linarith)]
    norm_num [lackIn]

end Sextant

/-- **Channels.** The three channels follow the hue by one wave. -/
theorem ofHsv_real (hue saturation brightness : ℝ) :
    ofHsv hue saturation brightness =
      ⟨channel (shade hue saturation brightness 5), channel (shade hue saturation brightness 3),
        channel (shade hue saturation brightness 1)⟩ := by
  obtain ⟨j, hj, p, hp, hlt, hplace, hred, hgreen, hblue⟩ := exists_sextant (hue / 60)
  -- Each of the three bytes is mixed from what a channel lacks: nothing, a part, or everything.
  have hfull (c : ℝ) : c + (brightness - c) = brightness - c * 0 := by ring
  have hbetween (c part : ℝ) :
      c * (1.0 - part) + (brightness - c) = brightness - c * part := by
    norm_num
    ring
  have hnone (c : ℝ) : 0.0 + (brightness - c) = brightness - c * 1 := by norm_num
  simp only [ofHsv, shade, modulo_hue, hplace, truncate_sextant hp hlt hj,
    abs_remainder_sextant hp hlt, hred, hgreen, hblue, hfull, hbetween, hnone]
  interval_cases j <;> rfl

/-- Whole turns of the hue do not change the color. -/
theorem ofHsv_real_add_turns (hue saturation brightness : ℝ) (turns : ℤ) :
    ofHsv (hue + 360 * turns) saturation brightness = ofHsv hue saturation brightness := by
  have hshade (ahead : ℝ) : shade (hue + 360 * turns) saturation brightness ahead =
      shade hue saturation brightness ahead := by
    have hturns : ahead + (hue + 360 * turns) / 60 = ahead + hue / 60 + 6 * turns := by ring
    unfold shade
    rw [hturns, place_add_turns]
  rw [ofHsv_real, ofHsv_real, hshade, hshade, hshade]

/-! ## Extremes -/

/-- The intensity of the fullest channel. -/
def largest (c : Rgb) : ℕ := max c.r.toNat (max c.g.toNat c.b.toNat)

/-- The intensity of the emptiest channel. -/
def smallest (c : Rgb) : ℕ := min c.r.toNat (min c.g.toNat c.b.toNat)

theorem largest_eq {c : Rgb} {top : ℤ} (hr : c.r.toNat ≤ top) (hg : c.g.toNat ≤ top)
    (hb : c.b.toNat ≤ top) (h : c.r.toNat = top ∨ c.g.toNat = top ∨ c.b.toNat = top) :
    (c.largest : ℤ) = top := by
  unfold largest
  omega

theorem smallest_eq {c : Rgb} {bottom : ℤ} (hr : bottom ≤ c.r.toNat) (hg : bottom ≤ c.g.toNat)
    (hb : bottom ≤ c.b.toNat)
    (h : c.r.toNat = bottom ∨ c.g.toNat = bottom ∨ c.b.toNat = bottom) :
    (c.smallest : ℤ) = bottom := by
  unfold smallest
  omega

section Unit

variable {saturation brightness : ℝ} (hs : saturation ∈ Set.Icc 0 1) (hb : brightness ∈ Set.Icc 0 1)

include hs hb

theorem shade_bounds (hue ahead : ℝ) :
    brightness - brightness * saturation ≤ shade hue saturation brightness ahead ∧
      shade hue saturation brightness ahead ≤ brightness := by
  have hfull : 0 ≤ brightness * saturation := mul_nonneg hb.1 hs.1
  have hsome := mul_nonneg hfull (lack_nonneg (place (ahead + hue / 60)))
  have hall := mul_le_of_le_one_right hfull (lack_le_one (place (ahead + hue / 60)))
  unfold shade
  constructor <;> linarith

theorem toNat_channel_shade (hue ahead : ℝ) :
    ((channel (shade hue saturation brightness ahead)).toNat : ℤ) =
      round (255 * shade hue saturation brightness ahead) := by
  obtain ⟨hge, hle⟩ := shade_bounds hs hb hue ahead
  have hbase : 0 ≤ brightness - brightness * saturation :=
    sub_nonneg.mpr (mul_le_of_le_one_right hb.1 hs.2)
  exact toNat_channel (hbase.trans hge) (hle.trans hb.2)

/-- The fullest channel has all of the brightness, and the emptiest one what is not colored. -/
theorem extremes_ofHsv (hue : ℝ) :
    ((ofHsv hue saturation brightness).largest : ℤ) = round (255 * brightness) ∧
      ((ofHsv hue saturation brightness).smallest : ℤ) =
        round (255 * (brightness - brightness * saturation)) := by
  have hbyte := toNat_channel_shade hs hb hue
  have hmost (ahead : ℝ) :
      ((channel (shade hue saturation brightness ahead)).toNat : ℤ) ≤ round (255 * brightness) := by
    rw [hbyte]
    exact round_le_round (by linarith [shade_bounds hs hb hue ahead])
  have hleast (ahead : ℝ) : round (255 * (brightness - brightness * saturation)) ≤
      ((channel (shade hue saturation brightness ahead)).toNat : ℤ) := by
    rw [hbyte]
    exact round_le_round (by linarith [shade_bounds hs hb hue ahead])
  have hfull (ahead : ℝ) (h : lack (place (ahead + hue / 60)) = 0) :
      ((channel (shade hue saturation brightness ahead)).toNat : ℤ) = round (255 * brightness) := by
    rw [hbyte, shade, h, mul_zero, sub_zero]
  have hempty (ahead : ℝ) (h : lack (place (ahead + hue / 60)) = 1) :
      ((channel (shade hue saturation brightness ahead)).toNat : ℤ) =
        round (255 * (brightness - brightness * saturation)) := by
    rw [hbyte, shade, h, mul_one]
  obtain ⟨hzero, hone⟩ := exists_extremes (hue / 60)
  rw [ofHsv_real]
  exact ⟨largest_eq (hmost 5) (hmost 3) (hmost 1)
      (hzero.imp (hfull 5) (Or.imp (hfull 3) (hfull 1))),
    smallest_eq (hleast 5) (hleast 3) (hleast 1)
      (hone.imp (hempty 5) (Or.imp (hempty 3) (hempty 1)))⟩

end Unit

/-! ## Exact numbers of any kind -/

section Exact

open Scalar.Unrounded

variable {α : Type} [Scalar α] [Scalar.Unrounded α] [Whole α]

theorem channel_value (a : α) : channel (value a) = channel a := by
  unfold channel
  rw [← value_ofScientific (α := α), ← value_ofScientific (α := α), ← value_mul,
    ← Whole.value_round, ← value_clamp, Whole.truncate_value]

/-- Colors are those that the reals give. -/
theorem ofHsv_value (hue saturation brightness : α) :
    ofHsv (value hue) (value saturation) (value brightness) = ofHsv hue saturation brightness := by
  have hturn : value (360.0 : α) ≠ 0 := by rw [value_ofScientific]; norm_num
  have hsextant : value (60.0 : α) ≠ 0 := by rw [value_ofScientific]; norm_num
  have hpair : value (2.0 : α) ≠ 0 := by rw [value_ofScientific]; norm_num
  unfold ofHsv
  simp only [← value_ofScientific (α := α), ← value_mul, ← value_sub, ← value_add,
    ← Whole.value_abs, ← value_modulo _ _ hturn, ← value_div _ _ hsextant,
    ← Whole.value_remainder _ _ hpair, Whole.truncate_value, channel_value]

/-- Saturated colors of brightness `0.85` have a channel `217` and a channel `0`. -/
theorem extremes_saturated (hue : α) :
    (ofHsv hue 1.0 0.85).largest = 217 ∧ (ofHsv hue 1.0 0.85).smallest = 0 := by
  have hs : (1.0 : ℝ) ∈ Set.Icc 0 1 := by norm_num
  have hb : (0.85 : ℝ) ∈ Set.Icc 0 1 := by norm_num
  obtain ⟨hlargest, hsmallest⟩ := extremes_ofHsv hs hb (value hue)
  have hmost : round (255 * 0.85 : ℝ) = 217 := by
    rw [round_eq_iff]
    norm_num
  have hleast : round (255 * (0.85 - 0.85 * 1.0) : ℝ) = 0 := by norm_num
  rw [← ofHsv_value, value_ofScientific, value_ofScientific]
  omega

end Exact

end Rgb

/-- The colors of graphs past the palette are saturated. -/
theorem GraphId.color_of_le {α : Type} [Scalar α] {id : GraphId}
    (h : palette.length ≤ id.value.toNat) :
    id.color α = Rgb.ofHsv (hue id.value.toUInt64 : α) 1.0 0.85 := by
  unfold color
  rw [List.getElem?_eq_none h]

open Hue Scalar.Unrounded

/-- **Hues.** In exact arithmetic, let saturation and brightness be from zero to one. Then a channel
has the brightness less what the channel lacks of its colored part, rounded to a byte: red is read
off the wave `5` sextants ahead of the hue, green `3` and blue `1`. The color comes back with every
turn of the hue, the fullest channel has all of the brightness, and the emptiest one what is not
colored. A saturated color of brightness `0.85` reaches from `0` to `217`, whatever its hue, and
such are the colors of all graphs past the palette. -/
theorem channels_follow_hue {α : Type} [Scalar α] [Scalar.Unrounded α] [Whole α] :
    (∀ hue saturation brightness : α,
      value saturation ∈ Set.Icc 0 1 → value brightness ∈ Set.Icc 0 1 →
        let c := Rgb.ofHsv hue saturation brightness
        let s := value saturation
        let v := value brightness
        let lacking (n : ℝ) := lack (place (n + value hue / 60))
        (c.r.toNat : ℤ) = round (255 * (v - v * s * lacking 5)) ∧
          (c.g.toNat : ℤ) = round (255 * (v - v * s * lacking 3)) ∧
          (c.b.toNat : ℤ) = round (255 * (v - v * s * lacking 1)) ∧
          (∀ (turned : α) (turns : ℤ), value turned = value hue + 360 * turns →
            Rgb.ofHsv turned saturation brightness = c) ∧
          (c.largest : ℤ) = round (255 * v) ∧ (c.smallest : ℤ) = round (255 * (v - v * s))) ∧
      (∀ hue : α, (Rgb.ofHsv hue 1.0 0.85).largest = 217 ∧ (Rgb.ofHsv hue 1.0 0.85).smallest = 0) ∧
      ∀ id : GraphId, GraphId.palette.length ≤ id.value.toNat →
        (id.color α).largest = 217 ∧ (id.color α).smallest = 0 := by
  refine ⟨?_, Rgb.extremes_saturated, ?_⟩
  · intro hue saturation brightness hs hb c s v lacking
    have hc : c = Rgb.ofHsv (value hue) s v := (Rgb.ofHsv_value ..).symm
    have hbyte := Rgb.toNat_channel_shade hs hb (value hue)
    rw [hc]
    refine ⟨?_, ?_, ?_, ?_, Rgb.extremes_ofHsv hs hb (value hue)⟩
    · rw [Rgb.ofHsv_real]
      exact hbyte 5
    · rw [Rgb.ofHsv_real]
      exact hbyte 3
    · rw [Rgb.ofHsv_real]
      exact hbyte 1
    · intro turned turns hturned
      rw [← Rgb.ofHsv_value, hturned, Rgb.ofHsv_real_add_turns]
  · intro id hid
    rw [GraphId.color_of_le hid]
    exact Rgb.extremes_saturated _

section Violet

open scoped Rationals

/-- A pale violet has a red between two bytes, which is rounded up, two turns on as well; and a
graph past the palette is green. -/
theorem channels_follow_hue_violet :
    let violet := Rgb.ofHsv (-75 : ℚ) 0.5 0.8
    let graph : GraphId := ⟨100⟩
    value (0.5 : ℚ) ∈ Set.Icc 0 1 ∧ value (0.8 : ℚ) ∈ Set.Icc 0 1 ∧ violet = ⟨179, 102, 204⟩ ∧
      round (255 * (0.8 - 0.8 * 0.5 * lack (place (5 + -75 / 60)))) = 179 ∧
      Rgb.ofHsv (645 : ℚ) 0.5 0.8 = violet ∧ GraphId.palette.length ≤ graph.value.toNat ∧
      graph.color ℚ = ⟨80, 217, 0⟩ ∧ (graph.color ℚ).largest = 217 ∧
      (graph.color ℚ).smallest = 0 := by
  intro violet graph
  have hhalf : value (0.5 : ℚ) = 0.5 := value_ofScientific ..
  have hbright : value (0.8 : ℚ) = 0.8 := value_ofScientific ..
  have hhue : value (-75 : ℚ) = -75 := by
    show ((-75 : ℚ) : ℝ) = -75
    norm_num
  have hturned : value (645 : ℚ) = value (-75 : ℚ) + 360 * (2 : ℤ) := by
    show ((645 : ℚ) : ℝ) = ((-75 : ℚ) : ℝ) + 360 * (2 : ℤ)
    norm_num
  have hs : value (0.5 : ℚ) ∈ Set.Icc 0 1 := by
    rw [hhalf]
    norm_num
  have hb : value (0.8 : ℚ) ∈ Set.Icc 0 1 := by
    rw [hbright]
    norm_num
  have hviolet : violet = ⟨179, 102, 204⟩ := by decide +kernel
  have hpast : GraphId.palette.length ≤ graph.value.toNat := by decide
  obtain ⟨hchannels, -, hcolors⟩ := channels_follow_hue (α := ℚ)
  obtain ⟨hred, -, -, hturns, -⟩ := hchannels (-75) 0.5 0.8 hs hb
  refine ⟨hs, hb, hviolet, ?_, hturns 645 2 hturned, hpast, by decide +kernel, hcolors graph hpast⟩
  rw [hhalf, hbright, hhue] at hred
  have hbyte : ((Rgb.ofHsv (-75 : ℚ) 0.5 0.8).r.toNat : ℤ) = 179 := by
    show (violet.r.toNat : ℤ) = 179
    rw [hviolet]
    rfl
  exact hred.symm.trans hbyte

end Violet

end RollingBall
