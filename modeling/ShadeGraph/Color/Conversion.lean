import ShadeGraph.Color.Basic

/-!
# Color conversions

`srgbToLinear` decodes display-referred components. Hue, saturation and lightness are measured in
turns and fractions; `toHsl` treats a spread of at most `flatness` as gray, so that no quotient has
a vanishing divisor.
-/

namespace ShadeGraph

variable {α : Type} [Scalar α]

/-- The linear value of an sRGB component. -/
def srgbToLinear (v : α) : α :=
  if Scalar.le v 0.04045 then v / 12.92
  else Scalar.pow ((Scalar.maximum v 0.04045 + 0.055) / 1.055) 2.4

/-- Three color components. -/
@[ext] structure Rgb (α : Type) where
  red : α
  green : α
  blue : α
deriving DecidableEq, Repr

/-- Hue in turns, saturation and lightness. -/
@[ext] structure Hsl (α : Type) where
  hue : α
  saturation : α
  lightness : α
deriving DecidableEq, Repr

/-- Spreads and chroma scales up to here count as zero. -/
def flatness : α := 1e-12

/-- How much chroma fits between black and white at this lightness. -/
def chromaScale (lightness : α) : α := 1.0 - Scalar.abs (2.0 * lightness - 1.0)

def Rgb.toHsl (c : Rgb α) : Hsl α :=
  let high := Scalar.maximum (Scalar.maximum c.red c.green) c.blue
  let low := Scalar.minimum (Scalar.minimum c.red c.green) c.blue
  let spread := high - low
  let lightness := (high + low) / 2.0
  let scale := chromaScale lightness
  let gray := Scalar.le spread flatness
  let saturation := if gray || Scalar.le scale flatness then 0.0 else spread / scale
  let sixths :=
    if Scalar.eq high c.red then Scalar.wrap ((c.green - c.blue) / spread) 6.0
    else if Scalar.eq high c.green then (c.blue - c.red) / spread + 2.0
    else (c.red - c.green) / spread + 4.0
  ⟨if gray then 0.0 else sixths / 6.0, saturation, lightness⟩

def Hsl.toRgb (c : Hsl α) : Rgb α :=
  let chroma := chromaScale c.lightness * c.saturation
  let sixths := Scalar.wrap c.hue 1.0 * 6.0
  let second := chroma * (1.0 - Scalar.abs (Scalar.wrap sixths 2.0 - 1.0))
  let base := c.lightness - chroma / 2.0
  let place (r g b : α) : Rgb α := ⟨r + base, g + base, b + base⟩
  match Scalar.floor? sixths with
  | some 0 => place chroma second 0.0
  | some 1 => place second chroma 0.0
  | some 2 => place 0.0 chroma second
  | some 3 => place 0.0 second chroma
  | some 4 => place second 0.0 chroma
  | _ => place chroma 0.0 second

/-- Turns the hue, scales the saturation into `[0, 1]` and shifts the lightness by the first three
components of `control`. Alpha is kept. -/
def Rgba.correct (value control : Rgba α) : Rgba α :=
  let hsl := Rgb.toHsl ⟨value.red, value.green, value.blue⟩
  let rgb := Hsl.toRgb
    ⟨Scalar.wrap (hsl.hue + control.red) 1.0,
      Scalar.clip 0.0 1.0 (hsl.saturation * control.green),
      hsl.lightness + control.blue⟩
  ⟨rgb.red, rgb.green, rgb.blue, value.alpha⟩

end ShadeGraph
