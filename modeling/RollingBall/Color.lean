import RollingBall.Scalar

/-!
# Colors

Colors have three channels of a byte each. They come from a number `0xrrggbb` (`Rgb.ofHex`) or from
hue, saturation and value (`Rgb.ofHsv`).
-/

namespace RollingBall

/-- A display color: its red, green and blue channel. -/
structure Rgb where
  r : UInt8
  g : UInt8
  b : UInt8
deriving DecidableEq, Repr

namespace Rgb

/-- The color `0xrrggbb`; higher bits are ignored. -/
def ofHex (rgb : UInt32) : Rgb :=
  ⟨(rgb >>> 16).toUInt8, (rgb >>> 8).toUInt8, rgb.toUInt8⟩

/-- A part of the full intensity as a byte. -/
def channel {α : Type} [Scalar α] (v : α) : UInt8 :=
  UInt8.ofNat (Scalar.truncate 255 (Scalar.clamp 0.0 255.0 (Scalar.round (v * 255.0))))

/-- The color of a hue in degrees, a saturation and a value, the last two from zero to one. The hue
picks one of six sextants, in each of which one channel is full, one is empty and one between. -/
def ofHsv {α : Type} [Scalar α] (hue saturation value : α) : Rgb :=
  let h := Scalar.modulo hue 360.0 / 60.0
  let full := value * saturation
  let between := full * (1.0 - Scalar.abs (Scalar.remainder h 2.0 - 1.0))
  let base := value - full
  let mix (r g b : α) : Rgb := ⟨channel (r + base), channel (g + base), channel (b + base)⟩
  match Scalar.truncate (UInt32.size - 1) h with
  | 0 => mix full between 0.0
  | 1 => mix between full 0.0
  | 2 => mix 0.0 full between
  | 3 => mix 0.0 between full
  | 4 => mix between 0.0 full
  | _ => mix full 0.0 between

end Rgb

end RollingBall
