import ShadeGraph.Proofs.Number.Partial
import ShadeGraph.Color.Conversion

/-!
# Hue, saturation and lightness

In exact arithmetic a color is its lightness plus its chroma in the direction of its hue. The
direction is a function of the hue without jumps, so neither the order in which components are
compared nor the sector that holds a hue makes a difference at the edges. Colors of the gamut come
back from the conversion and its inverse, and next to gray up to the spread of their components.
-/

namespace ShadeGraph

open Scalar

/-! ### Parts of the conversion -/

namespace Rgb

variable {α β : Type}

def map (f : α → β) (c : Rgb α) : Rgb β := ⟨f c.red, f c.green, f c.blue⟩

/-- All components are as told. -/
def All (P : α → Prop) (c : Rgb α) : Prop := P c.red ∧ P c.green ∧ P c.blue

theorem All.mono {P Q : α → Prop} {c : Rgb α} (h : c.All P) (hPQ : ∀ x, P x → Q x) : c.All Q :=
  ⟨hPQ _ h.1, hPQ _ h.2.1, hPQ _ h.2.2⟩

theorem map_map {γ : Type} (f : α → β) (g : β → γ) (c : Rgb α) :
    (c.map f).map g = c.map fun x => g (f x) := rfl

/-- The color of a sector of hues: its greatest component, the one in between and the least. -/
def ofSector (sector : Option Int) (most second least : α) : Rgb α :=
  match sector with
  | some 0 => ⟨most, second, least⟩
  | some 1 => ⟨second, most, least⟩
  | some 2 => ⟨least, most, second⟩
  | some 3 => ⟨least, second, most⟩
  | some 4 => ⟨second, least, most⟩
  | _ => ⟨most, least, second⟩

theorem map_ofSector (f : α → β) (sector : Option Int) (most second least : α) :
    (ofSector sector most second least).map f =
      ofSector sector (f most) (f second) (f least) := by
  fun_cases ofSector sector most second least <;> simp_all [ofSector, map]

theorem map_eq_map_iff {f g : α → β} {c : Rgb α} :
    c.map f = c.map g ↔ c.All fun x => f x = g x := by
  simp [map, All]

variable [Scalar α] (c : Rgb α)

/-- The greatest component. -/
def high : α := maximum (maximum c.red c.green) c.blue

/-- The least component. -/
def low : α := minimum (minimum c.red c.green) c.blue

def spread : α := c.high - c.low

def lightness : α := (c.high + c.low) / 2.0

/-- The components count as equal. -/
def isGray : Bool := le c.spread flatness

/-- There is no saturation to speak of. -/
def isFlat : Bool := c.isGray || le (chromaScale c.lightness) flatness

/-- The hue in sixths of a turn. -/
def sixths : α :=
  if eq c.high c.red then wrap ((c.green - c.blue) / c.spread) 6.0
  else if eq c.high c.green then (c.blue - c.red) / c.spread + 2.0
  else (c.red - c.green) / c.spread + 4.0

theorem toHsl_eq : c.toHsl =
    ⟨if c.isGray then 0.0 else c.sixths / 6.0,
      if c.isFlat then 0.0 else c.spread / chromaScale c.lightness, c.lightness⟩ := rfl

end Rgb

namespace Hsl

def map {α β : Type} (f : α → β) (c : Hsl α) : Hsl β := ⟨f c.hue, f c.saturation, f c.lightness⟩

variable {α : Type} [Scalar α] (c : Hsl α)

/-- How far the greatest component is above the least. -/
def chroma : α := chromaScale c.lightness * c.saturation

/-- The hue in sixths of a turn. -/
def sixths : α := wrap c.hue 1.0 * 6.0

theorem toRgb_eq : c.toRgb =
    (Rgb.ofSector (floor? c.sixths) c.chroma (c.chroma * (1.0 - abs (wrap c.sixths 2.0 - 1.0)))
      0.0).map (· + (c.lightness - c.chroma / 2.0)) := by
  rw [Rgb.map_ofSector]
  rfl

end Hsl

variable {α : Type} [Scalar.Exact α]

/-! ### Divisors -/

theorem flatness_pos : (0 : α) < flatness := by
  unfold flatness
  norm_num

@[simp] theorem chromaScale_of (l : α) : chromaScale (Partial.of l) = .of (chromaScale l) := by
  simp [chromaScale]

namespace Rgb

variable (c : Rgb α)

@[simp] theorem high_of : (c.map Partial.of).high = .of c.high := by simp [high, map]

@[simp] theorem low_of : (c.map Partial.of).low = .of c.low := by simp [low, map]

@[simp] theorem spread_of : (c.map Partial.of).spread = .of c.spread := by simp [spread]

@[simp] theorem lightness_of : (c.map Partial.of).lightness = .of c.lightness := by
  simp [lightness]

@[simp] theorem isGray_of : (c.map Partial.of).isGray = c.isGray := by
  rw [isGray, spread_of]
  exact Partial.le_of _ _

@[simp] theorem isFlat_of : (c.map Partial.of).isFlat = c.isFlat := by
  rw [isFlat, isGray_of, lightness_of, chromaScale_of]
  rfl

theorem sixths_of (hspread : c.spread ≠ 0) : (c.map Partial.of).sixths = .of c.sixths := by
  unfold sixths
  simp only [high_of, spread_of]
  simp only [map, Partial.of_sub, Partial.of_div _ hspread, Partial.literal, Partial.eq_of,
    Partial.of_add]
  rw [Partial.wrap_of _ (by norm_num)]
  split_ifs <;> rfl

/-- No division by zero goes into the hue, the saturation or the lightness of a color. -/
theorem toHsl_of : (c.map Partial.of).toHsl = c.toHsl.map .of := by
  have hgray (h : ¬ c.isGray = true) : c.spread ≠ 0 := by
    intro hzero
    refine h ?_
    rw [isGray, hzero, le_eq_decide, decide_eq_true_eq]
    exact flatness_pos.le
  have hflat (h : ¬ c.isFlat = true) : chromaScale c.lightness ≠ 0 := by
    intro hzero
    refine h ?_
    rw [isFlat, hzero, le_eq_decide, decide_eq_true flatness_pos.le, Bool.or_true]
  rw [toHsl_eq, toHsl_eq, isGray_of, isFlat_of, lightness_of, spread_of, chromaScale_of]
  refine Hsl.ext ?_ ?_ rfl
  · dsimp only [Hsl.map]
    split_ifs with h
    · rfl
    · rw [sixths_of c (hgray h), Partial.literal, Partial.of_div _ (by norm_num)]
  · dsimp only [Hsl.map]
    split_ifs with h
    · rfl
    · exact Partial.of_div _ (hflat h)

end Rgb

/-- Nor does one go into the color of a hue, a saturation and a lightness. -/
theorem Hsl.toRgb_of (c : Hsl α) : (c.map Partial.of).toRgb = c.toRgb.map .of := by
  have htwo : (2.0 : α) ≠ 0 := by norm_num
  have hchroma : (c.map Partial.of).chroma = .of c.chroma := by simp [chroma, map]
  have hsixths : (c.map Partial.of).sixths = .of c.sixths := by
    rw [sixths, map, Partial.literal, Partial.wrap_of _ (by norm_num)]
    rfl
  rw [toRgb_eq, toRgb_eq, hchroma, hsixths]
  simp only [Rgb.map_ofSector, map, Partial.literal, Partial.wrap_of _ htwo, Partial.of_sub,
    Partial.of_div _ htwo, Partial.abs_of, Partial.floor?_of, Partial.of_mul, Partial.of_add]

/-! ### Directions -/

/-- The color of full chroma with this hue, in sixths of a turn. -/
def Rgb.ofHue (h : α) : Rgb α :=
  ⟨max 0 (min 1 (max (2 - h) (h - 4))), max 0 (min 1 (min h (4 - h))),
    max 0 (min 1 (min (h - 2) (6 - h)))⟩

namespace Rgb

variable {h : α}

theorem ofHue_redToYellow (h0 : 0 ≤ h) (h1 : h ≤ 1) : ofHue h = ⟨1, h, 0⟩ := by
  simp only [ofHue, max_def, min_def]
  ext <;> dsimp only <;> split_ifs <;> linarith

theorem ofHue_yellowToGreen (h1 : 1 ≤ h) (h2 : h ≤ 2) : ofHue h = ⟨2 - h, 1, 0⟩ := by
  simp only [ofHue, max_def, min_def]
  ext <;> dsimp only <;> split_ifs <;> linarith

theorem ofHue_greenToCyan (h2 : 2 ≤ h) (h3 : h ≤ 3) : ofHue h = ⟨0, 1, h - 2⟩ := by
  simp only [ofHue, max_def, min_def]
  ext <;> dsimp only <;> split_ifs <;> linarith

theorem ofHue_cyanToBlue (h3 : 3 ≤ h) (h4 : h ≤ 4) : ofHue h = ⟨0, 4 - h, 1⟩ := by
  simp only [ofHue, max_def, min_def]
  ext <;> dsimp only <;> split_ifs <;> linarith

theorem ofHue_blueToMagenta (h4 : 4 ≤ h) (h5 : h ≤ 5) : ofHue h = ⟨h - 4, 0, 1⟩ := by
  simp only [ofHue, max_def, min_def]
  ext <;> dsimp only <;> split_ifs <;> linarith

theorem ofHue_magentaToRed (h5 : 5 ≤ h) (h6 : h ≤ 6) : ofHue h = ⟨1, 0, 6 - h⟩ := by
  simp only [ofHue, max_def, min_def]
  ext <;> dsimp only <;> split_ifs <;> linarith

/-- In the first half of two sectors the second component rises. -/
theorem second_rising {m : ℤ} (hlow : 2 * (m : α) ≤ h) (hhigh : h < 2 * (m : α) + 1) :
    1 - |wrap h 2 - 1| = h - 2 * m := by
  rw [wrap_eq two_pos hlow (by linarith), abs_of_nonpos (by linarith)]
  ring

theorem second_falling {m : ℤ} (hlow : 2 * (m : α) + 1 ≤ h) (hhigh : h < 2 * (m : α) + 2) :
    1 - |wrap h 2 - 1| = 2 * m + 2 - h := by
  rw [wrap_eq two_pos (by linarith) hhigh, abs_of_nonneg (by linarith)]
  ring

/-- Within each sector the direction is that of the hue. -/
theorem ofSector_floor (h0 : 0 ≤ h) (h6 : h < 6) :
    ofSector (some ⌊h⌋) 1 (1 - |wrap h 2 - 1|) 0 = ofHue h := by
  have hlow : 0 ≤ ⌊h⌋ := Int.floor_nonneg.mpr h0
  have hhigh : ⌊h⌋ < 6 := Int.floor_lt.mpr (by exact_mod_cast h6)
  generalize hk : ⌊h⌋ = k at hlow hhigh
  obtain ⟨hle, hlt⟩ := Int.floor_eq_iff.mp hk
  -- The second component rises in the even sectors and falls in the odd ones.
  interval_cases k <;> norm_num at hle hlt
  · rw [second_rising (m := 0) (by norm_num; exact hle) (by norm_num; exact hlt),
      ofHue_redToYellow hle hlt.le]
    simp [ofSector]
  · rw [second_falling (m := 0) (by norm_num; exact hle) (by norm_num; exact hlt),
      ofHue_yellowToGreen hle hlt.le]
    simp [ofSector]
  · rw [second_rising (m := 1) (by norm_num; exact hle) (by norm_num; exact hlt),
      ofHue_greenToCyan hle hlt.le]
    simp [ofSector]
  · rw [second_falling (m := 1) (by norm_num; exact hle) (by norm_num; exact hlt),
      ofHue_cyanToBlue hle hlt.le]
    norm_num [ofSector]
  · rw [second_rising (m := 2) (by norm_num; exact hle) (by norm_num; exact hlt),
      ofHue_blueToMagenta hle hlt.le]
    norm_num [ofSector]
  · rw [second_falling (m := 2) (by norm_num; exact hle) (by norm_num; exact hlt),
      ofHue_magentaToRed hle hlt.le]
    norm_num [ofSector]

end Rgb

/-- A color is its lightness plus its chroma in the direction of its hue. -/
theorem Hsl.toRgb_div_six {h : α} (h0 : 0 ≤ h) (h6 : h < 6) (s l : α) :
    (⟨h / 6, s, l⟩ : Hsl α).toRgb =
      (Rgb.ofHue h).map fun t => l + chromaScale l * s * (t - 1 / 2) := by
  have hsixths : (⟨h / 6, s, l⟩ : Hsl α).sixths = h := by
    have hfract : Int.fract (h / 6) = h / 6 := by
      rw [Int.fract_eq_self]
      constructor <;> linarith
    rw [sixths, one_literal, wrap_one, hfract, six_literal]
    ring
  rw [toRgb_eq, hsixths, ← Rgb.ofSector_floor h0 h6, Rgb.map_ofSector, Rgb.map_ofSector, chroma]
  simp only [floor?_exact, one_literal, two_literal, zero_literal, abs_exact]
  congr 1 <;> ring

namespace Rgb

/-! ### The hue of a color -/

variable (c : Rgb α)

theorem high_eq : c.high = max (max c.red c.green) c.blue := by simp [high]

theorem low_eq : c.low = min (min c.red c.green) c.blue := by simp [low]

theorem low_le : c.All (c.low ≤ ·) := by simp [All, low_eq]

theorem le_high : c.All (· ≤ c.high) := by simp [All, high_eq]

theorem le_low {c : Rgb α} {a : α} (h : c.All (a ≤ ·)) : a ≤ c.low := by
  simpa [low_eq, All, and_assoc] using h

theorem high_le {c : Rgb α} {a : α} (h : c.All (· ≤ a)) : c.high ≤ a := by
  simpa [high_eq, All, and_assoc] using h

theorem high_cases : c.high = c.red ∨ c.high = c.green ∨ c.high = c.blue := by
  rw [high_eq]
  rcases max_choice (max c.red c.green) c.blue with h | h
  · rw [h]
    exact (max_choice c.red c.green).imp_right .inl
  · exact .inr (.inr h)

theorem low_le_high : c.low ≤ c.high := c.low_le.1.trans c.le_high.1

/-- Where a component lies between the least and the greatest one. -/
def share (x : α) : α := (x - c.low) / c.spread

theorem share_mem : c.All fun x => c.share x ∈ Set.Icc (0 : α) 1 := by
  have hmem {x : α} (hlow : c.low ≤ x) (hhigh : x ≤ c.high) : c.share x ∈ Set.Icc (0 : α) 1 := by
    have hspread : 0 ≤ c.spread := sub_nonneg.mpr c.low_le_high
    refine ⟨div_nonneg (sub_nonneg.mpr hlow) hspread, div_le_one_of_le₀ ?_ hspread⟩
    exact sub_le_sub_right hhigh c.low
  exact ⟨hmem c.low_le.1 c.le_high.1, hmem c.low_le.2.1 c.le_high.2.1,
    hmem c.low_le.2.2 c.le_high.2.2⟩

@[simp] theorem share_low : c.share c.low = 0 := by simp [share]

variable {c}

theorem share_high (hspread : 0 < c.spread) : c.share c.high = 1 := div_self hspread.ne'

theorem sub_low_div (x : α) : (x - c.low) / c.spread = c.share x := rfl

theorem low_sub_div (x : α) : (c.low - x) / c.spread = -c.share x := by
  rw [share, ← neg_div, neg_sub]

theorem share_pos (hspread : 0 < c.spread) {x : α} (hx : c.low < x) : 0 < c.share x :=
  div_pos (sub_pos.mpr hx) hspread

/-- The hue is the direction of the color. -/
def IsAimed (c : Rgb α) : Prop := c.sixths ∈ Set.Ico (0 : α) 6 ∧ ofHue c.sixths = c.map c.share

theorem isAimed_of_red (hspread : 0 < c.spread) (h : c.high = c.red) : c.IsAimed := by
  obtain ⟨-, ⟨hgreen0, hgreen1⟩, ⟨-, hblue1⟩⟩ := c.share_mem
  obtain ⟨-, hgreen, hblue⟩ := c.le_high
  have hsixths : c.sixths = wrap ((c.green - c.blue) / c.spread) 6 := by simp [sixths, h]
  unfold IsAimed
  rw [hsixths, map, ← h, share_high hspread]
  rcases le_or_gt c.blue c.green with hle | hlt
  · have hlow : c.blue = c.low := (le_low ⟨h ▸ hblue, hle, le_rfl⟩).antisymm c.low_le.2.2
    have hwrap : wrap (c.share c.green) 6 = c.share c.green := by
      rw [wrap_eq (k := 0) (by norm_num) (by simpa using hgreen0) (by simp; linarith)]
      simp
    rw [hlow, share_low, sub_low_div, hwrap]
    exact ⟨⟨hgreen0, by linarith⟩, ofHue_redToYellow hgreen0 hgreen1⟩
  -- Between magenta and red the quotient is negative, and wrapping leads to the last sector.
  · have hlow : c.green = c.low := (le_low ⟨h ▸ hgreen, le_rfl, hlt.le⟩).antisymm c.low_le.2.1
    have hpos : 0 < c.share c.blue := share_pos hspread (hlow ▸ hlt)
    have hwrap : wrap (-c.share c.blue) 6 = 6 - c.share c.blue := by
      rw [wrap_eq (k := -1) (by norm_num) (by norm_num; linarith) (by norm_num; linarith)]
      norm_num
      ring
    rw [hlow, share_low, low_sub_div, hwrap]
    refine ⟨⟨by linarith, by linarith⟩, ?_⟩
    rw [ofHue_magentaToRed (by linarith) (by linarith), sub_sub_cancel]

theorem isAimed_of_green (hspread : 0 < c.spread) (hred : c.high ≠ c.red)
    (h : c.high = c.green) : c.IsAimed := by
  obtain ⟨⟨hred0, hred1⟩, -, ⟨hblue0, hblue1⟩⟩ := c.share_mem
  have hsixths : c.sixths = (c.blue - c.red) / c.spread + 2 := by
    simp only [sixths, eq_eq_decide, decide_eq_true_eq, if_neg hred, if_pos h, two_literal]
  unfold IsAimed
  rw [hsixths, map, ← h, share_high hspread]
  rcases le_total c.red c.blue with hle | hle
  · have hlow : c.red = c.low := (le_low ⟨le_rfl, h ▸ c.le_high.1, hle⟩).antisymm c.low_le.1
    rw [hlow, share_low, sub_low_div]
    refine ⟨⟨by linarith, by linarith⟩, ?_⟩
    rw [ofHue_greenToCyan (by linarith) (by linarith), add_sub_cancel_right]
  · have hlow : c.blue = c.low :=
      (le_low ⟨hle, h ▸ c.le_high.2.2, le_rfl⟩).antisymm c.low_le.2.2
    rw [hlow, share_low, low_sub_div]
    refine ⟨⟨by linarith, by linarith⟩, ?_⟩
    rw [ofHue_yellowToGreen (by linarith) (by linarith)]
    ring_nf

theorem isAimed_of_blue (hspread : 0 < c.spread) (hred : c.high ≠ c.red)
    (hgreen : c.high ≠ c.green) (h : c.high = c.blue) : c.IsAimed := by
  obtain ⟨⟨hred0, hred1⟩, ⟨hgreen0, hgreen1⟩, -⟩ := c.share_mem
  have hsixths : c.sixths = (c.red - c.green) / c.spread + 4 := by
    simp only [sixths, eq_eq_decide, decide_eq_true_eq, if_neg hred, if_neg hgreen, four_literal]
  unfold IsAimed
  rw [hsixths, map, ← h, share_high hspread]
  rcases le_total c.green c.red with hle | hle
  · have hlow : c.green = c.low :=
      (le_low ⟨hle, le_rfl, h ▸ c.le_high.2.1⟩).antisymm c.low_le.2.1
    rw [hlow, share_low, sub_low_div]
    refine ⟨⟨by linarith, by linarith⟩, ?_⟩
    rw [ofHue_blueToMagenta (by linarith) (by linarith), add_sub_cancel_right]
  · have hlow : c.red = c.low := (le_low ⟨le_rfl, hle, h ▸ c.le_high.1⟩).antisymm c.low_le.1
    rw [hlow, share_low, low_sub_div]
    refine ⟨⟨by linarith, by linarith⟩, ?_⟩
    rw [ofHue_cyanToBlue (by linarith) (by linarith)]
    ring_nf

/-- Ties go to red, then to green; they make no difference. -/
theorem isAimed (hspread : 0 < c.spread) : c.IsAimed := by
  by_cases hred : c.high = c.red
  · exact isAimed_of_red hspread hred
  by_cases hgreen : c.high = c.green
  · exact isAimed_of_green hspread hred hgreen
  · have hblue := (c.high_cases.resolve_left hred).resolve_left hgreen
    exact isAimed_of_blue hspread hred hgreen hblue

/-! ### There and back -/

variable (c)

theorem isGray_iff : c.isGray = true ↔ c.spread ≤ flatness := by simp [isGray]

theorem isFlat_iff : c.isFlat = true ↔
    c.spread ≤ flatness ∨ chromaScale c.lightness ≤ flatness := by simp [isFlat, isGray]

theorem spread_nonneg : 0 ≤ c.spread := sub_nonneg.mpr c.low_le_high

theorem spread_pos {c : Rgb α} (h : ¬ c.isGray = true) : 0 < c.spread :=
  flatness_pos.trans (not_le.mp (mt c.isGray_iff.mpr h))

theorem hue_mem : c.toHsl.hue ∈ Set.Ico (0 : α) 1 := by
  rw [toHsl_eq]
  dsimp only
  split_ifs with hgray
  · simp
  · obtain ⟨⟨h0, h6⟩, -⟩ := isAimed (spread_pos hgray)
    rw [six_literal]
    constructor <;> linarith

/-- The lightness lies halfway between the least and the greatest component. -/
theorem share_sub_half (hspread : 0 < c.spread) (x : α) :
    c.share x - 1 / 2 = (x - c.lightness) / c.spread := by
  rw [share, lightness, two_literal, div_sub' hspread.ne', spread]
  congr 1
  ring

/-- The color with its distance from the gray of its lightness scaled. -/
def drawn (k : α) : Rgb α := c.map fun x => c.lightness + (x - c.lightness) * k

theorem drawn_one : c.drawn 1 = c := by simp [drawn, map]

/-- The hue of a color with any saturation gives the color with its distance from gray scaled. A gray
has no hue and is to have no saturation either. -/
theorem toRgb_hue {s : α} (hs : c.isGray = true → s = 0) :
    (⟨c.toHsl.hue, s, c.lightness⟩ : Hsl α).toRgb =
      c.drawn (chromaScale c.lightness * s / c.spread) := by
  rw [toHsl_eq]
  dsimp only
  by_cases hgray : c.isGray = true
  · have hhue : (0.0 : α) = 0 / 6 := by norm_num
    rw [if_pos hgray, hs hgray, hhue, Hsl.toRgb_div_six le_rfl (by norm_num)]
    simp [drawn, map]
  · have hspread := spread_pos hgray
    obtain ⟨⟨h0, h6⟩, haimed⟩ := isAimed hspread
    rw [if_neg hgray, six_literal, Hsl.toRgb_div_six h0 h6, haimed, map_map]
    simp only [share_sub_half c hspread]
    refine map_eq_map_iff.mpr ⟨?_, ?_, ?_⟩ <;> ring

/-- Each component differs by at most this. -/
def Near (e : α) (c d : Rgb α) : Prop :=
  |c.red - d.red| ≤ e ∧ |c.green - d.green| ≤ e ∧ |c.blue - d.blue| ≤ e

theorem abs_sub_lightness : c.All fun x => |x - c.lightness| ≤ c.spread / 2 := by
  have hle {x : α} (hlow : c.low ≤ x) (hhigh : x ≤ c.high) : |x - c.lightness| ≤ c.spread / 2 := by
    rw [abs_le, lightness, spread, two_literal]
    constructor <;> linarith
  exact ⟨hle c.low_le.1 c.le_high.1, hle c.low_le.2.1 c.le_high.2.1,
    hle c.low_le.2.2 c.le_high.2.2⟩

/-- A gray comes out as its lightness. -/
theorem near_drawn_zero (h : c.spread ≤ flatness) : (c.drawn 0).Near flatness c := by
  have hclose := c.abs_sub_lightness.mono (Q := fun x => |c.lightness - x| ≤ flatness)
    fun x hx => by
      rw [abs_sub_comm]
      linarith [c.spread_nonneg]
  simpa [drawn, map, Near, All] using hclose

theorem drawn_zero_eq_iff : c.drawn 0 = c ↔ c.spread = 0 := by
  constructor
  · intro h
    have hall : c.All (· = c.lightness) := by
      have hfields := Rgb.ext_iff.mp h
      simp only [drawn, map, mul_zero, add_zero] at hfields
      exact ⟨hfields.1.symm, hfields.2.1.symm, hfields.2.2.symm⟩
    have hhigh := high_le (hall.mono fun _ => le_of_eq)
    have hlow := le_low (hall.mono fun _ => ge_of_eq)
    exact le_antisymm (sub_nonpos.mpr (hhigh.trans hlow)) c.spread_nonneg
  · intro h
    have hall : c.All fun x => c.lightness + (x - c.lightness) * 0 = x :=
      c.abs_sub_lightness.mono fun x hx => by
        rw [h, zero_div, abs_nonpos_iff, sub_eq_zero] at hx
        rw [hx]
        ring
    exact Rgb.ext hall.1 hall.2.1 hall.2.2

/-! ### The gamut -/

def InGamut : Prop := c.All (· ∈ Set.Icc (0 : α) 1)

end Rgb

def Hsl.InRange (c : Hsl α) : Prop :=
  c.hue ∈ Set.Ico (0 : α) 1 ∧ c.saturation ∈ Set.Icc (0 : α) 1 ∧ c.lightness ∈ Set.Icc (0 : α) 1

theorem chromaScale_exact (l : α) : chromaScale l = 1 - |2 * l - 1| := by simp [chromaScale]

namespace Rgb

variable {c : Rgb α}

theorem InGamut.low_nonneg (h : c.InGamut) : 0 ≤ c.low := le_low (h.mono fun _ hx => hx.1)

theorem InGamut.high_le_one (h : c.InGamut) : c.high ≤ 1 := high_le (h.mono fun _ hx => hx.2)

/-- Between black and white there is room for the spread of a color. -/
theorem InGamut.spread_le (h : c.InGamut) : c.spread ≤ chromaScale c.lightness := by
  have hlow := h.low_nonneg
  have hhigh := h.high_le_one
  have habs : |2 * c.lightness - 1| ≤ 1 - c.spread := by
    rw [abs_le, lightness, spread, two_literal]
    constructor <;> linarith
  rw [chromaScale_exact]
  linarith

/-- A color of the gamut has a saturation unless it is gray. -/
theorem InGamut.isFlat (h : c.InGamut) : c.isFlat = c.isGray := by
  rw [Bool.eq_iff_iff, isFlat_iff, isGray_iff, or_iff_left_iff_imp]
  exact h.spread_le.trans

theorem InGamut.inRange (h : c.InGamut) : c.toHsl.InRange := by
  refine ⟨c.hue_mem, ?_, ?_⟩ <;> rw [toHsl_eq, h.isFlat] <;> dsimp only
  · split_ifs with hgray
    · simp
    · have hscale := (spread_pos hgray).trans_le h.spread_le
      exact ⟨div_nonneg c.spread_nonneg hscale.le, div_le_one_of_le₀ h.spread_le hscale.le⟩
  · have hlow := h.low_nonneg
    have hhigh := h.high_le_one
    have hle := c.low_le_high
    rw [lightness, two_literal]
    constructor <;> linarith

theorem InGamut.toRgb_toHsl (h : c.InGamut) :
    c.toHsl.toRgb = c.drawn (if c.spread ≤ flatness then 0 else 1) := by
  have hrun := c.toRgb_hue (s := c.toHsl.saturation) fun hgray => by
    rw [toHsl_eq, h.isFlat]
    simp [hgray]
  have hsame : c.toHsl.toRgb = (⟨c.toHsl.hue, c.toHsl.saturation, c.lightness⟩ : Hsl α).toRgb := rfl
  rw [hsame, hrun, toHsl_eq, h.isFlat]
  dsimp only
  simp only [c.isGray_iff]
  split_ifs with hgray
  · simp
  · have hspread := spread_pos (mt c.isGray_iff.mp hgray)
    have hscale := hspread.trans_le h.spread_le
    rw [mul_div_cancel₀ _ hscale.ne', div_self hspread.ne']

/-- The conversion takes the gamut to hues, saturations and lightnesses without a division by zero,
and its inverse brings colors back: exactly those whose components are equal, or further apart than
what counts as gray. The others come back as the gray of their lightness. -/
theorem InGamut.toHsl_invertible (h : c.InGamut) :
    c.toHsl.InRange ∧
    (c.map Partial.of).toHsl = c.toHsl.map .of ∧
    (c.toHsl.map Partial.of).toRgb = c.toHsl.toRgb.map .of ∧
    (c.toHsl.toRgb = c ↔ c.spread = 0 ∨ flatness < c.spread) ∧
    c.toHsl.toRgb.Near flatness c := by
  refine ⟨h.inRange, c.toHsl_of, c.toHsl.toRgb_of, ?_⟩
  rw [h.toRgb_toHsl]
  by_cases hgray : c.spread ≤ flatness
  · rw [if_pos hgray, drawn_zero_eq_iff, or_iff_left hgray.not_gt]
    exact ⟨Iff.rfl, c.near_drawn_zero hgray⟩
  · rw [if_neg hgray, drawn_one]
    refine ⟨iff_of_true rfl (.inr (not_le.mp hgray)), ?_⟩
    simpa [Near] using flatness_pos.le

/-- A hue on the edge of two sectors, in the dark. -/
def olive : Rgb ℚ := ⟨1 / 4, 1 / 4, 0⟩

theorem toHsl_invertible_olive : olive.InGamut ∧ olive.toHsl = ⟨1 / 6, 1, 1 / 8⟩ ∧
    olive.toHsl.toRgb = olive := by
  have h : olive.InGamut := by
    simp only [InGamut, All, olive]
    norm_num
  have hspread : flatness < olive.spread := by decide +kernel
  exact ⟨h, by decide +kernel, h.toHsl_invertible.2.2.2.1.mpr (.inr hspread)⟩

end Rgb

end ShadeGraph
