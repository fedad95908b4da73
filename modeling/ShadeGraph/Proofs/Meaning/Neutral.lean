import ShadeGraph.Proofs.Color.Hsl
import ShadeGraph.Proofs.Compile.Foretelling
import ShadeGraph.Proofs.Composite.Shown

/-!
# Neutral corrections

A correction that changes nothing still converts colors to hue, saturation and lightness and back,
and saturations beyond one are cut off there. A color of the gamut comes through, next to gray up to
the spread that counts as gray. A color beyond the gamut is drawn towards the gray of its lightness
before it is clamped.
-/

namespace ShadeGraph

open Scalar

variable {α : Type} [Scalar.Exact α]

/-! ### What is kept of a color -/

namespace Rgb

variable (c : Rgb α)

/-- How much of its distance from gray a color keeps when its saturation is cut off at one. -/
def kept : α := if c.isFlat then 0 else min 1 (chromaScale c.lightness / c.spread)

/-- The color is nearly gray, or it has a saturation and is nearly in the gamut. -/
def Endures : Prop :=
  c.spread ≤ flatness + flatness ∨
    flatness < chromaScale c.lightness ∧ -flatness ≤ c.low ∧ c.high ≤ 1 + flatness

variable {c}

theorem toRgb_clip (c : Rgb α) :
    (⟨c.toHsl.hue, clip 0.0 1.0 c.toHsl.saturation, c.lightness⟩ : Hsl α).toRgb =
      c.drawn c.kept := by
  have hsaturation : c.toHsl.saturation =
      if c.isFlat then 0.0 else c.spread / chromaScale c.lightness := rfl
  rw [toRgb_hue, kept, hsaturation, zero_literal, one_literal, clip_eq]
  · congr 1
    split_ifs with hflat
    · simp
    · have hbounds := mt c.isFlat_iff.mpr hflat
      simp only [not_or, not_le] at hbounds
      have hspread := flatness_pos.trans hbounds.1
      have hscale := flatness_pos.trans hbounds.2
      rw [max_eq_left (div_nonneg hspread.le hscale.le), mul_min_of_nonneg _ _ hscale.le,
        mul_div_cancel₀ _ hscale.ne', mul_one, ← min_div_div_right hspread.le,
        div_self hspread.ne']
  · intro hgray
    have hflat : c.isFlat = true := by rw [isFlat, hgray, Bool.true_or]
    rw [hsaturation, hflat]
    simp

theorem kept_le_one (c : Rgb α) : c.kept ≤ 1 := by
  unfold kept
  split_ifs
  · exact zero_le_one
  · exact min_le_left _ _

/-- The greatest and the least component are moved furthest. -/
theorem near_drawn_iff {k e : α} (hk : k ≤ 1) :
    (c.drawn k).Near e c ↔ c.spread * (1 - k) ≤ 2 * e := by
  have hmoved (x : α) : |c.lightness + (x - c.lightness) * k - x| = |x - c.lightness| * (1 - k) := by
    rw [← abs_of_nonneg (sub_nonneg.mpr hk), ← abs_mul, ← abs_neg]
    congr 1
    ring
  have hnear : (c.drawn k).Near e c ↔ c.All fun x => |x - c.lightness| * (1 - k) ≤ e := by
    simp only [Near, drawn, map, hmoved, All]
  have hhigh : |c.high - c.lightness| = c.spread / 2 := by
    rw [abs_of_nonneg] <;> rw [lightness, two_literal]
    · rw [spread]
      ring
    · linarith [c.low_le_high]
  rw [hnear]
  constructor
  · rintro ⟨hred, hgreen, hblue⟩
    have hmost : |c.high - c.lightness| * (1 - k) ≤ e := by
      rcases c.high_cases with h | h | h
      · rwa [h]
      · rwa [h]
      · rwa [h]
    rw [hhigh] at hmost
    linarith
  · intro h
    refine c.abs_sub_lightness.mono fun x hx => ?_
    have hle := mul_le_mul_of_nonneg_right hx (sub_nonneg.mpr hk)
    linarith

/-- How far the spread goes beyond the room between black and white. -/
theorem spread_sub_chromaScale_le_iff {e : α} :
    c.spread - chromaScale c.lightness ≤ 2 * e ↔ -e ≤ c.low ∧ c.high ≤ 1 + e := by
  have hiff : c.spread - chromaScale c.lightness ≤ 2 * e ↔
      |2 * c.lightness - 1| ≤ 1 - c.spread + 2 * e := by
    rw [chromaScale_exact]
    constructor <;> intro h <;> linarith
  rw [hiff, abs_le, lightness, spread, two_literal]
  constructor <;> rintro ⟨h, h'⟩ <;> constructor <;> linarith

/-- Exactly the colors that endure come through, up to what counts as gray. -/
theorem near_kept_iff : (c.drawn c.kept).Near flatness c ↔ c.Endures := by
  have hpos : (0 : α) < flatness := flatness_pos
  rw [near_drawn_iff c.kept_le_one, kept, Endures, ← two_mul]
  split_ifs with hflat
  · rw [c.isFlat_iff] at hflat
    rw [sub_zero, mul_one]
    refine ⟨.inl, fun h => h.elim id fun h => ?_⟩
    have hspread := hflat.resolve_right h.1.not_ge
    linarith
  · have hbounds := mt c.isFlat_iff.mpr hflat
    simp only [not_or, not_le] at hbounds
    have hspread := flatness_pos.trans hbounds.1
    -- The spread that is lost is what does not fit between black and white.
    have hlost : c.spread * (1 - min 1 (chromaScale c.lightness / c.spread)) =
        c.spread - min c.spread (chromaScale c.lightness) := by
      rw [mul_sub, mul_one, mul_min_of_nonneg _ _ hspread.le, mul_one,
        mul_div_cancel₀ _ hspread.ne']
    rw [hlost, ← spread_sub_chromaScale_le_iff, and_iff_right hbounds.2]
    rcases min_choice c.spread (chromaScale c.lightness) with h | h
    · have hle := min_eq_left_iff.mp h
      rw [h]
      exact iff_of_true (by linarith) (.inr (by linarith))
    · rw [h]
      refine ⟨.inr, fun hcases => hcases.elim (fun h => ?_) id⟩
      linarith [hbounds.2]

theorem InGamut.endures (h : c.InGamut) : c.Endures := by
  have hpos : (0 : α) < flatness := flatness_pos
  by_cases hscale : chromaScale c.lightness ≤ flatness
  · exact .inl (by linarith [h.spread_le])
  · exact .inr ⟨not_le.mp hscale, by linarith [h.low_nonneg], by linarith [h.high_le_one]⟩

end Rgb

namespace Rgba

def color (v : Rgba α) : Rgb α := ⟨v.red, v.green, v.blue⟩

/-- What becomes of a color whose saturation is cut off before it is clamped. -/
def settled (v : Rgba α) : Rgba α :=
  let c := (v.color.drawn v.color.kept).map (clip 0.0 1.0)
  ⟨c.red, c.green, c.blue, clip 0.0 1.0 v.alpha⟩

/-- Each component differs by at most this. -/
def Near (e : α) (v w : Rgba α) : Prop := ∀ c, |v.get c - w.get c| ≤ e

theorem abs_clip_sub_clip (a b : α) : |clip 0.0 1.0 a - clip 0.0 1.0 b| ≤ |a - b| := by
  rw [clip_eq, clip_eq]
  refine (abs_min_sub_min_le_max _ _ _ _).trans (max_le ?_ (by simp))
  exact (abs_max_sub_max_le_max _ _ _ _).trans (max_le le_rfl (by simp))

/-- Clamping brings colors no further apart. -/
theorem settled_near {v : Rgba α} (h : v.color.Endures) :
    v.settled.Near flatness (v.map (clip 0.0 1.0)) := by
  obtain ⟨hred, hgreen, hblue⟩ := Rgb.near_kept_iff.mpr h
  intro c
  cases c with
  | red => exact (abs_clip_sub_clip _ _).trans hred
  | green => exact (abs_clip_sub_clip _ _).trans hgreen
  | blue => exact (abs_clip_sub_clip _ _).trans hblue
  | alpha => simpa [settled, get, map] using flatness_pos.le

/-- Without a turn, at full saturation and without a shift, only the saturation is cut off. -/
theorem correct_neutral (v : Rgba α) :
    (v.correct ⟨0, 1, 0, 1⟩).map (clip 0.0 1.0) = v.settled := by
  have hhue : wrap (v.color.toHsl.hue + 0) 1.0 = v.color.toHsl.hue := by
    rw [one_literal, add_zero, wrap_one, Int.fract_eq_self]
    exact v.color.hue_mem
  have hrgb : v.correct ⟨0, 1, 0, 1⟩ =
      let c := Hsl.toRgb ⟨wrap (v.color.toHsl.hue + 0) 1.0,
        clip 0.0 1.0 (v.color.toHsl.saturation * 1), v.color.lightness + 0⟩
      ⟨c.red, c.green, c.blue, v.alpha⟩ := rfl
  rw [hrgb, hhue, mul_one, add_zero, Rgb.toRgb_clip]
  rfl

end Rgba

/-! ### Neutral settings -/

/-- One as an exponent changes nothing, and two to the power of zero is one. -/
class Scalar.UnitPowers (α : Type) [Scalar α] : Prop where
  pow_one (a : α) : Scalar.pow a 1.0 = a
  exp2_zero : Scalar.exp2? (0.0 : α) = some 1.0

instance : Scalar.UnitPowers ℚ where
  pow_one a := by
    have hfloor : ⌊(1.0 : ℚ)⌋ = 1 := by norm_num
    change a ^ ⌊(1.0 : ℚ)⌋ = a
    rw [hfloor, zpow_one]
  exp2_zero := by decide +kernel

/-- The settings change nothing in this mode. -/
structure Exposure.IsNeutral (e : Exposure α) (mode : ExposureMode) : Prop where
  gain : e.gain = match mode with
    | .gain => 1
    | .fstops | .printer => 0
  gamma : e.gamma = 1
  pivot : e.pivot = 1
  lift : e.lift = 0

/-- The settings of a component change nothing, or are switched off and have a gain in range. -/
def Exposure.IsIdle (e : Exposure α) (mode : ExposureMode) (used : Bool) : Prop :=
  e.IsNeutral mode ∨ used = false ∧ e.check mode = some ()

/-- The correction changes nothing, by the model of lightness that is in use. -/
structure Correction.IsNeutral (params : Correction α) : Prop where
  rewire : params.rewire = .normal
  hueShift : params.hueShift = 0
  saturation : params.saturation = 100
  simple : params.useExposure = false → params.brightness = 0 ∧ params.contrast = 0
  common : params.useExposure = true → params.globalExposure.IsNeutral params.exposureMode
  red : params.useExposure = true → params.redExposure.IsIdle params.exposureMode params.redEnabled
  green : params.useExposure = true →
    params.greenExposure.IsIdle params.exposureMode params.greenEnabled
  blue : params.useExposure = true →
    params.blueExposure.IsIdle params.exposureMode params.blueEnabled

variable [Scalar.UnitPowers α]

namespace Exposure

variable {e : Exposure α} {mode : ExposureMode} {used : Bool}

theorem IsNeutral.factor? (h : e.IsNeutral mode) : e.factor? mode = some 1 := by
  have hgain := h.gain
  cases mode with
  | gain => exact congrArg some hgain
  | fstops | printer =>
    rw [Exposure.factor?, hgain, ← zero_literal, UnitPowers.exp2_zero, one_literal]

/-- A neutral pass only cuts off what is below zero. -/
theorem IsNeutral.expose (h : e.IsNeutral mode) (x : α) : e.expose 1 x = max x 0 := by
  have hgamma : e.usedGamma = 1 := by
    rw [usedGamma, h.gamma, orLeast]
    norm_num
  have hpivot : e.usedPivot = 1 := by
    rw [usedPivot, h.pivot, orLeast]
    norm_num
  rw [Exposure.expose, hgamma, hpivot, h.lift, maximum_eq_max, one_literal, div_one, div_one,
    ← one_literal, UnitPowers.pow_one]
  simp

theorem IsIdle.check (h : e.IsIdle mode used) : e.check mode = some () := by
  rcases h with h | ⟨-, h⟩
  · rw [Exposure.check, h.factor?]
    rfl
  · exact h

theorem IsIdle.exposed? (h : e.IsIdle mode used) {x : α} (hx : 0 ≤ x) :
    e.exposed? mode used x = some x := by
  cases used with
  | false => rfl
  | true =>
    have hneutral := h.resolve_right (by simp)
    rw [Exposure.exposed?, if_pos rfl, hneutral.factor?, Option.map_some, hneutral.expose,
      max_eq_left hx]

end Exposure

namespace Correction

variable {params : Correction α}

theorem IsNeutral.check (h : params.IsNeutral) : params.check = some () := by
  unfold Correction.check
  cases huse : params.useExposure with
  | false => rfl
  | true =>
    have hcommon : params.globalExposure.IsIdle params.exposureMode true := .inl (h.common huse)
    simp [hcommon.check, (h.red huse).check, (h.green huse).check, (h.blue huse).check]

/-- Whatever the model of lightness does below zero, the clamp does as well. -/
theorem IsNeutral.lightened? (h : params.IsNeutral) (v : Rgba α) :
    ∃ w, params.lightened? v = some w ∧ w.map (clip 0.0 1.0) = v.map (clip 0.0 1.0) := by
  unfold Correction.lightened?
  cases huse : params.useExposure with
  | false =>
    obtain ⟨hbrightness, hcontrast⟩ := h.simple huse
    exact ⟨v, by simp [Correction.simple, hbrightness, hcontrast], rfl⟩
  | true =>
    have hcommon := h.common huse
    have hpass : params.exposed? v = some ⟨max v.red 0, max v.green 0, max v.blue 0, v.alpha⟩ := by
      simp [Correction.exposed?, hcommon.factor?, hcommon.expose, (h.red huse).exposed?,
        (h.green huse).exposed?, (h.blue huse).exposed?]
    have hclip (x : α) : clip 0.0 1.0 (max x 0) = clip 0.0 1.0 x := by simp [clip_eq]
    exact ⟨_, hpass, by simp only [Rgba.map, hclip]⟩

theorem IsNeutral.value? (h : params.IsNeutral) (v : Rgba α) :
    params.value? v = some v.settled := by
  have hturn : (0 : α) / 360.0 = 0 := by norm_num
  have hscale : (100 : α) / 100.0 = 1 := by norm_num
  have htint : params.tinted v = v.correct ⟨0, 1, 0, 1⟩ := by
    rw [Rgba.correct_eq_tint, tinted, h.hueShift, h.saturation, hturn, hscale, zero_literal]
  obtain ⟨w, hw, hclip⟩ := h.lightened? (params.tinted v)
  have hrewire : params.rewired? v = some v := by rw [rewired?, h.rewire]
  rw [Correction.value?, hrewire]
  simp only [Option.bind_eq_bind, Option.bind_some, hw]
  rw [hclip, htint, Rgba.correct_neutral]
  rfl

end Correction

namespace Compile

variable {ctx : Context α}

/-- A neutral correction of any node evaluates to the values of the node with their saturations cut off
at one, clamped. -/
theorem exists_correct_neutral (hconstants : ctx.HasConstants) {n : NodeId}
    (hn : n < ctx.network.size) (scope : Scope) {params : Correction α} (h : params.IsNeutral) :
    ∃ root later, (correct scope n params).run.run ctx = (.ok root, later) ∧
      ∀ (images : ImageTable α) (uv : UvGrid α) (values : Samples α),
        ctx.network.evaluate images uv n = .ok values →
        (∀ results, later.network.evaluate images uv root = .ok results →
          results = values.map Rgba.settled) ∧
        (uv.lengths.length < Tensor.pairingLimit →
          ∃ results, later.network.evaluate images uv root = .ok results) := by
  have hwell : params.WellFormed := by simp [Correction.WellFormed, h.rewire]
  obtain ⟨root, later, hrun, -⟩ :=
    (foretells_correct scope n hwell ctx).exists_ok (by simp [h.check])
  refine ⟨root, later, hrun, fun images uv values hvalues => ?_⟩
  obtain ⟨hall, rfl⟩ := (Network.evaluate_eq_ok_iff hn values).mp hvalues
  have hroot (p : Uv α) : later.network.HasValue ⟨images, p, (·.HasImage images)⟩ root
      (ctx.network.valueAt images p n).settled := by
    have hsource : ctx.network.HasValue ⟨images, p, (·.HasImage images)⟩ n
        (ctx.network.valueAt images p n) := ⟨hn, rfl, hall.reads⟩
    obtain ⟨w, hw, hroot⟩ := ((adds_correct hconstants hsource scope params).ok hrun).2
    rw [h.value?] at hw
    exact Option.some.inj hw ▸ hroot
  have hlt := (hroot ⟨0, 0⟩).lt
  constructor
  · intro results hresults
    obtain ⟨-, rfl⟩ := (Network.evaluate_eq_ok_iff hlt results).mp hresults
    rw [Array.map_map]
    congr 1
    funext p
    exact (hroot p).eq
  · intro hdims
    exact ⟨_, (hroot ⟨0, 0⟩).reads.evaluate hlt hdims⟩

/-- A neutral correction of a source evaluates to the values of the source with their saturations cut
off at one, clamped. These are the values themselves, clamped, up to what counts as gray, where a color
endures; in the gamut each does. Before the clamp no other color comes through. -/
theorem compileCorrection_neutral (hconstants : ctx.HasConstants) {scope : Scope}
    {source : Option (Source α)} {n : NodeId} {middle : Context α}
    (hsource : (compileOptional scope source).run.run ctx = (.ok (some n), middle))
    {params : Correction α} (h : params.IsNeutral) :
    (∃ root later,
      (compileSource scope (.correction source params)).run.run ctx = (.ok (some root), later) ∧
      ∀ (images : ImageTable α) (uv : UvGrid α) (values : Samples α),
        middle.network.evaluate images uv n = .ok values →
        (∀ results, later.network.evaluate images uv root = .ok results →
          results = values.map Rgba.settled) ∧
        (uv.lengths.length < Tensor.pairingLimit →
          ∃ results, later.network.evaluate images uv root = .ok results)) ∧
    ∀ v : Rgba α,
      (v.color.Endures → v.settled.Near flatness (v.map (clip 0.0 1.0))) ∧
      (v.color.InGamut → v.color.Endures) ∧
      ((v.color.drawn v.color.kept).Near flatness v.color ↔ v.color.Endures) := by
  obtain ⟨hgrows, hnode⟩ :=
    (yields_compileOptional (goesOn_start hconstants [] ⟨0, 0⟩) scope source).ok hsource
  obtain ⟨_, -, hn⟩ := exists_of_rel_some hnode
  obtain ⟨root, later, hrun, hvalues⟩ :=
    exists_correct_neutral (hgrows.hasConstants hconstants) hn.lt scope h
  refine ⟨⟨root, later, ?_, hvalues⟩, fun v =>
    ⟨Rgba.settled_near, Rgb.InGamut.endures, Rgb.near_kept_iff⟩⟩
  rw [run_correction, hsource]
  exact run_bind_of_ok hrun _

/-- A color beyond the gamut. -/
def vivid : Shade ℚ := .components [3 / 2, 1 / 2, 1 / 4]

/-- Neutral stops for all components, and once more for red. -/
def neutralStops : Correction ℚ :=
  { Correction.neutral with
    useExposure := true
    exposureMode := .fstops
    globalExposure := ⟨0, 1, 1, 0⟩
    redEnabled := true
    redExposure := ⟨0, 1, 1, 0⟩ }

theorem compileCorrection_neutral_vivid :
    ∃ (n root : NodeId) (middle later : Context ℚ), exactFresh.HasConstants ∧
      (compileOptional floorScope (some (.color vivid))).run.run exactFresh =
        (.ok (some n), middle) ∧
      neutralStops.IsNeutral ∧
      (compileSource floorScope (.correction (some (.color vivid)) neutralStops)).run.run
        exactFresh = (.ok (some root), later) ∧
      middle.network.evaluate [] ⟨[1], #[⟨0, 0⟩]⟩ n = .ok #[⟨3 / 2, 1 / 2, 1 / 4, 1⟩] ∧
      later.network.evaluate [] ⟨[1], #[⟨0, 0⟩]⟩ root = .ok #[⟨1, 4 / 5, 3 / 4, 1⟩] := by
  have hvivid : vivid.toRgba 1.0 = .ok ⟨3 / 2, 1 / 2, 1 / 4, 1⟩ := by decide +kernel
  obtain ⟨n, middle, hsource, hshown⟩ :=
    shows_color hvivid exactFresh floorScope [] ⟨[1], #[⟨0, 0⟩]⟩
  have hvalues : middle.network.evaluate [] ⟨[1], #[⟨0, 0⟩]⟩ n =
      .ok #[⟨3 / 2, 1 / 2, 1 / 4, 1⟩] := hshown
  have hneutral : (⟨0, 1, 1, 0⟩ : Exposure ℚ).IsNeutral .fstops := ⟨rfl, rfl, rfl, rfl⟩
  have hidle : (Exposure.neutral : Exposure ℚ).IsIdle .fstops false :=
    .inr ⟨rfl, by decide +kernel⟩
  have hparams : neutralStops.IsNeutral :=
    { rewire := rfl
      hueShift := by norm_num [neutralStops, Correction.neutral]
      saturation := by norm_num [neutralStops, Correction.neutral]
      simple := by simp [neutralStops]
      common := fun _ => hneutral
      red := fun _ => .inl hneutral
      green := fun _ => hidle
      blue := fun _ => hidle }
  obtain ⟨⟨root, later, hrun, h⟩, -⟩ :=
    compileCorrection_neutral hasConstants_exactFresh hsource hparams
  obtain ⟨hresults, hexists⟩ := h _ _ _ hvalues
  obtain ⟨results, hlater⟩ := hexists (by decide)
  have hsettled : (⟨3 / 2, 1 / 2, 1 / 4, 1⟩ : Rgba ℚ).settled = ⟨1, 4 / 5, 3 / 4, 1⟩ := by
    decide +kernel
  obtain rfl := hresults results hlater
  rw [List.map_toArray, List.map_cons, List.map_nil, hsettled] at hlater
  exact ⟨n, root, middle, later, hasConstants_exactFresh, hsource, hparams, hrun, hvalues, hlater⟩

end Compile

end ShadeGraph
