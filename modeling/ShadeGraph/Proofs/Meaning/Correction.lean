import ShadeGraph.Channel.Compile
import ShadeGraph.Proofs.Compile.Growth

/-!
# What corrections compute

The settings of a correction tell what becomes of a color: it is rewired, tinted, changed in its
lightness and clamped. The network of a correction computes this from the value of its source.
-/

namespace ShadeGraph

variable {α : Type} [Scalar α]

/-! ### Rewiring -/

namespace Rgba

/-- The mean for all colors, with alpha kept. -/
def monochrome (v : Rgba α) : Rgba α := (Rgba.replicate v.average).withAlpha v.alpha

/-- The colors subtracted from one, with alpha kept. -/
def negative (v : Rgba α) : Rgba α := ⟨1.0 - v.red, 1.0 - v.green, 1.0 - v.blue, v.alpha⟩

end Rgba

/-- What is selected from a color. -/
def RewireChannel.pick (v : Rgba α) : RewireChannel → α
  | .direct c => v.get c
  | .inverted c => 1.0 - v.get c
  | .average => v.average
  | .one => 1.0
  | .zero => 0.0

/-- The color after the first stage; custom rewiring takes four channels. -/
def Correction.rewired? (params : Correction α) (v : Rgba α) : Option (Rgba α) :=
  match params.rewire with
  | .normal => some v
  | .monochrome => some v.monochrome
  | .invert => some v.negative
  | .custom =>
    match params.customChannels with
    | [r, g, b, a] => some ⟨r.pick v, g.pick v, b.pick v, a.pick v⟩
    | _ => none

/-! ### Hue, saturation and lightness -/

section

variable (v : Rgba α)

namespace Rgba

/-- The greatest of the colors. -/
def greatest : α := Scalar.maximum (Scalar.maximum v.red v.green) v.blue

/-- The least of the colors. -/
def least : α := Scalar.minimum (Scalar.minimum v.red v.green) v.blue

/-- The colors are too close to each other for a hue. -/
def isHueless : Bool := Scalar.le (v.greatest - v.least) 1e-12

/-- The hue in sixths of a turn. Red stands at zero, green at two and blue at four; what is counted from
the first of the greatest components is how far the other two are apart. -/
def hueSixths : α :=
  match Scalar.eq v.greatest v.red, Scalar.eq v.greatest v.green with
  | true, _ => Scalar.wrap ((v.green - v.blue) / (v.greatest - v.least)) 6.0
  | false, true => (v.blue - v.red) / (v.greatest - v.least) + 2.0
  | false, false => (v.red - v.green) / (v.greatest - v.least) + 4.0

/-- The hue in turns. -/
def hue : α := if v.isHueless then 0.0 else v.hueSixths / 6.0

def lightness : α := (v.greatest + v.least) / 2.0

end Rgba

/-- How far apart colors of this lightness can be between black and white. -/
def Scalar.roomAt (lightness : α) : α := 1.0 - Scalar.abs (2.0 * lightness - 1.0)

/-- How much of the room for it the distance between the colors takes. -/
def Rgba.saturation : α :=
  if v.isHueless || Scalar.le (Scalar.roomAt v.lightness) 1e-12 then 0.0
  else (v.greatest - v.least) / Scalar.roomAt v.lightness

/-- The sixth of a turn that is meant; the last one stands for all that is none of the others. -/
def Scalar.sixthOf (floor : Option Int) : Int :=
  match floor with
  | some k => if 0 ≤ k ∧ k < 5 then k else 5
  | none => 5

/-- What a component is along a turn that begins with its own hue: it is at its greatest, falls, is at
its least for a third of the turn, rises, and is at its greatest again. -/
def Scalar.along (greatest between least : α) (sixth : Int) : α :=
  match sixth % 6 with
  | 0 | 5 => greatest
  | 1 | 4 => between
  | _ => least

/-- The color of a hue in turns, a saturation and a lightness. Green and blue follow red by a third of a
turn each. -/
def Rgba.ofHue (hue saturation lightness alpha : α) : Rgba α :=
  let chroma := Scalar.roomAt lightness * saturation
  let sixths := Scalar.wrap hue 1.0 * 6.0
  let between := chroma * (1.0 - Scalar.abs (Scalar.wrap sixths 2.0 - 1.0))
  let sixth := Scalar.sixthOf (Scalar.floor? sixths)
  let component (start : Int) : α :=
    Scalar.along chroma between 0.0 (sixth - start) + (lightness - chroma / 2.0)
  ⟨component 0, component 2, component 4, alpha⟩

/-- The color with its hue turned, its saturation scaled up to one and its lightness moved. -/
def Rgba.tint (turn scale shift : α) : Rgba α :=
  .ofHue (Scalar.wrap (v.hue + turn) 1.0) (Scalar.clip 0.0 1.0 (v.saturation * scale))
    (v.lightness + shift) v.alpha

end

/-- The color with its hue turned by an angle and a percentage of its saturation. -/
def Correction.tinted (params : Correction α) (v : Rgba α) : Rgba α :=
  v.tint (params.hueShift / 360.0) (params.saturation / 100.0) 0.0

theorem Rgba.toHsl_eq_hue (v : Rgba α) :
    (⟨v.red, v.green, v.blue⟩ : Rgb α).toHsl = ⟨v.hue, v.saturation, v.lightness⟩ := by
  have hsixths : v.hueSixths =
      if Scalar.eq v.greatest v.red then
        Scalar.wrap ((v.green - v.blue) / (v.greatest - v.least)) 6.0
      else if Scalar.eq v.greatest v.green then (v.blue - v.red) / (v.greatest - v.least) + 2.0
      else (v.red - v.green) / (v.greatest - v.least) + 4.0 := by
    unfold hueSixths
    cases Scalar.eq v.greatest v.red
    · cases Scalar.eq v.greatest v.green <;> rfl
    · rfl
  rw [hue, hsixths]
  rfl

/-- The conversion of a hue gives the components in every sixth of a turn. -/
theorem Hsl.toRgb_eq_ofHue (hue saturation lightness alpha : α) :
    let v := Rgba.ofHue hue saturation lightness alpha
    (⟨hue, saturation, lightness⟩ : Hsl α).toRgb = ⟨v.red, v.green, v.blue⟩ := by
  dsimp only [Rgba.ofHue, toRgb]
  generalize Scalar.floor? (Scalar.wrap hue 1.0 * 6.0) = floor
  split
  case h_6 h0 h1 h2 h3 h4 =>
    have hlast : Scalar.sixthOf floor = 5 := by
      cases floor with
      | none => rfl
      | some k =>
        simp only [Option.some.injEq, imp_false] at h0 h1 h2 h3 h4
        have houtside : ¬ (0 ≤ k ∧ k < 5) := by omega
        exact if_neg houtside
    rw [hlast]
    rfl
  all_goals rfl

/-- The correction of a color is its tint by the components of the control. -/
theorem Rgba.correct_eq_tint (v control : Rgba α) :
    v.correct control = v.tint control.red control.green control.blue := by
  rw [correct, toHsl_eq_hue, Hsl.toRgb_eq_ofHue _ _ _ v.alpha]
  rfl

/-! ### Lightness -/

/-- The color with contrast about one half and brightness, or as it is if both are zero. -/
def Correction.simple (params : Correction α) (v : Rgba α) : Rgba α :=
  if Scalar.eq params.brightness 0.0 && Scalar.eq params.contrast 0.0 then v
  else
    let f (x : α) : α := (x - 0.5) * (1.0 + params.contrast) + (0.5 + params.brightness)
    ⟨f v.red, f v.green, f v.blue, v.alpha⟩

/-- A value, or the least one if its magnitude is less. -/
def Scalar.orLeast (value least : α) : α :=
  if Scalar.lt (Scalar.abs value) least then least else value

namespace Exposure

def usedGamma (e : Exposure α) : α := Scalar.orLeast e.gamma 0.01

def usedPivot (e : Exposure α) : α := Scalar.orLeast e.pivot 0.0001

/-- The factor of a gain: itself, or two to its power. -/
def factor? (e : Exposure α) : ExposureMode → Option α
  | .gain => some e.gain
  | .fstops | .printer => Scalar.exp2? e.gain

/-- One component exposed with a factor. -/
def expose (e : Exposure α) (factor x : α) : α :=
  Scalar.pow (Scalar.maximum (x * factor / e.usedPivot) 0.0) (1.0 / e.usedGamma) * e.usedPivot +
    e.lift

/-- One component exposed, if the settings are in use. -/
def exposed? (e : Exposure α) (mode : ExposureMode) (used : Bool) (x : α) : Option α :=
  if used then (e.factor? mode).map fun factor => e.expose factor x else some x

end Exposure

/-- The color after the common pass and those of single components, with alpha kept. -/
def Correction.exposed? (params : Correction α) (v : Rgba α) : Option (Rgba α) := do
  let mode := params.exposureMode
  let factor ← params.globalExposure.factor? mode
  let common := params.globalExposure.expose factor
  let red ← params.redExposure.exposed? mode params.redEnabled (common v.red)
  let green ← params.greenExposure.exposed? mode params.greenEnabled (common v.green)
  let blue ← params.blueExposure.exposed? mode params.blueEnabled (common v.blue)
  return ⟨red, green, blue, v.alpha⟩

/-- The color changed by the model of lightness that is in use. -/
def Correction.lightened? (params : Correction α) (v : Rgba α) : Option (Rgba α) :=
  if params.useExposure then params.exposed? v else some (params.simple v)

/-- The color after all stages, if there are four custom channels and no gain is out of range. -/
def Correction.value? (params : Correction α) (v : Rgba α) : Option (Rgba α) := do
  let w ← params.rewired? v
  let l ← params.lightened? (params.tinted w)
  return l.map (Scalar.clip 0.0 1.0)

/-! ### The networks of the stages -/

namespace Build

variable {net : Network α} {o : Probe α} {constants : Constants} {n : NodeId} {v : Rgba α}

theorem gives_inverted (hone : net.HasValue o constants.one (.replicate 1.0))
    (hn : net.HasValue o n v) : Gives o (inverted constants n) net (v.map (1.0 - ·)) :=
  gives_subtract hone hn

theorem gives_customRewire [Scalar.TellsDivisors α] {channels : Rgba RewireChannel}
    (hone : net.HasValue o constants.one (.replicate 1.0))
    (hzero : net.HasValue o constants.zero (.replicate 0.0)) (hn : net.HasValue o n v) :
    Gives o (customRewire constants n channels) net (channels.map (·.pick v)) := by
  refine (gives_inverted hone hn).bind fun inverse net₁ h₁ hinverse => ?_
  refine (gives_rgbAverage (hn.extends h₁)).bind fun average net₂ h₂ haverage => ?_
  have h := h₁.trans h₂
  -- A component is taken from one of five nodes; these are their values.
  let value : RewireChannel → Rgba α
    | .direct _ => v
    | .inverted _ => v.map (1.0 - ·)
    | .average => .replicate v.average
    | .one => .replicate 1.0
    | .zero => .replicate 0.0
  have hsource : ∀ channel, net₂.HasValue o
      (rewireSource constants n inverse average channel).1 (value channel) := by
    intro channel
    cases channel with
    | direct c => exact hn.extends h
    | inverted c => exact hinverse.extends h₂
    | average => exact haverage
    | one => exact hone.extends h
    | zero => exact hzero.extends h
  have hpick : ∀ channel,
      (value channel).get (rewireSource constants n inverse average channel).2 =
        channel.pick v := by
    intro channel
    cases channel with
    | direct c | average | one | zero => rfl
    | inverted c => exact Rgba.get_map _ v c
  have hresult : channels.map (·.pick v) = (channels.map value).map₂ Rgba.get
      ((channels.map (rewireSource constants n inverse average)).map (·.2)) := by
    simp only [Rgba.map, Rgba.map₂, hpick]
  rw [hresult]
  apply gives_swizzle
  intro c
  rw [Rgba.get_map, Rgba.get_map, Rgba.get_map]
  exact hsource _

theorem gives_hslTint (hn : net.HasValue o n v) (params : Correction α) :
    Gives o (hslTint n params) net (params.tinted v) := by
  refine (gives_color o _).bind fun control net₁ h hcontrol => ?_
  have hcorrect := gives_colorCorrection (hn.extends h) hcontrol
  rwa [Rgba.correct_eq_tint] at hcorrect

theorem gives_simpleLightness (hn : net.HasValue o n v) (params : Correction α) :
    Gives o (simpleLightness n params) net (params.simple v) := by
  unfold simpleLightness Correction.simple Correction.isPlain
  by_cases hplain : (Scalar.eq params.brightness 0.0 && Scalar.eq params.contrast 0.0) = true
  · rw [if_pos hplain, if_pos hplain]
    exact adds_pure hn
  · rw [if_neg hplain, if_neg hplain]
    refine (gives_color o _).bind fun half net₁ h₁ hhalf => ?_
    refine (gives_subtract (hn.extends h₁) hhalf).bind fun centered net₂ h₂ hcentered => ?_
    refine (gives_color o _).bind fun scale net₃ h₃ hscale => ?_
    refine (gives_multiply (hcentered.extends h₃) hscale).bind fun scaled net₄ h₄ hscaled => ?_
    refine (gives_color o _).bind fun shift net₅ h₅ hshift => ?_
    refine (gives_add (hscaled.extends h₅) hshift).bind fun shifted net₆ h₆ hshifted => ?_
    exact gives_replaceAlpha hshifted
      (((((hn.extends h₁).extends h₂).extends h₃).extends h₄).extends h₅ |>.extends h₆)

end Build

/-! ### Exposure -/

namespace ExposureTerm

/-- One component after a pass with these factors. -/
def apply (t : ExposureTerm α) (x : α) : α :=
  Scalar.power (Scalar.quotient (x * t.gain) t.pivot) t.inverseGamma * t.pivot + t.lift

/-- A color after a pass; in printer mode its alpha passes as well. -/
def pass (t : Rgba (ExposureTerm α)) (mode : ExposureMode) (v : Rgba α) : Rgba α :=
  let w := t.map₂ apply v
  match mode with
  | .printer => w
  | _ => w.withAlpha v.alpha

theorem pass_colors (t : Rgba (ExposureTerm α)) (mode : ExposureMode) (v : Rgba α) :
    (pass t mode v).red = t.red.apply v.red ∧ (pass t mode v).green = t.green.apply v.green ∧
      (pass t mode v).blue = t.blue.apply v.blue := by
  cases mode <;> exact ⟨rfl, rfl, rfl⟩

end ExposureTerm

/-- The factors for one set of settings, unless the gain is out of range. -/
def Exposure.term? (e : Exposure α) (mode : ExposureMode) : Option (ExposureTerm α) :=
  (e.factor? mode).map fun factor => ⟨factor, 1.0 / e.usedGamma, e.usedPivot, e.lift⟩

theorem Exposure.usedPivot_ne_zero [Scalar.TellsDivisors α] (e : Exposure α) :
    Scalar.eq e.usedPivot 0.0 = false := by
  unfold usedPivot Scalar.orLeast
  split
  · exact Scalar.TellsDivisors.leastPivot
  · rename_i hpivot
    by_contra hzero
    exact hpivot (Scalar.TellsDivisors.pivot e.pivot (by simpa using hzero))

/-- A pass never divides by zero, so it is the documented function. -/
theorem Exposure.apply_of_term? [Scalar.TellsDivisors α] {e : Exposure α} {mode : ExposureMode}
    {t : ExposureTerm α} (h : e.term? mode = some t) :
    ∃ factor, e.factor? mode = some factor ∧ t.apply = e.expose factor := by
  obtain ⟨factor, hfactor, rfl⟩ := Option.map_eq_some_iff.mp h
  refine ⟨factor, hfactor, funext fun x => ?_⟩
  have hquotient : Scalar.quotient (x * factor) e.usedPivot = x * factor / e.usedPivot :=
    Scalar.quotient_of_ne_zero e.usedPivot_ne_zero
  simp only [ExposureTerm.apply, hquotient]
  rfl

theorem Exposure.exposed?_of_term? [Scalar.TellsDivisors α] {e : Exposure α} {mode : ExposureMode}
    {used : Bool} {t : ExposureTerm α} (h : used = true → e.term? mode = some t) (x : α) :
    e.exposed? mode used x = some (if used then t.apply x else x) := by
  cases used with
  | false => rfl
  | true =>
    obtain ⟨factor, hfactor, happly⟩ := apply_of_term? (h rfl)
    simp [exposed?, hfactor, happly]

theorem Correction.exposed?_of_term? [Scalar.TellsDivisors α] {params : Correction α}
    {common : ExposureTerm α} (red green blue : ExposureTerm α)
    (hcommon : params.globalExposure.term? params.exposureMode = some common)
    (hred : params.redEnabled = true → params.redExposure.term? params.exposureMode = some red)
    (hgreen : params.greenEnabled = true →
      params.greenExposure.term? params.exposureMode = some green)
    (hblue : params.blueEnabled = true →
      params.blueExposure.term? params.exposureMode = some blue) (v : Rgba α) :
    params.exposed? v =
      some ⟨if params.redEnabled then red.apply (common.apply v.red) else common.apply v.red,
        if params.greenEnabled then green.apply (common.apply v.green) else common.apply v.green,
        if params.blueEnabled then blue.apply (common.apply v.blue) else common.apply v.blue,
        v.alpha⟩ := by
  obtain ⟨factor, hfactor, happly⟩ := Exposure.apply_of_term? hcommon
  simp [exposed?, hfactor, ← happly, Exposure.exposed?_of_term? hred,
    Exposure.exposed?_of_term? hgreen, Exposure.exposed?_of_term? hblue]

theorem Build.gives_exposurePass {net : Network α} {o : Probe α} {n : NodeId} {v : Rgba α}
    (hn : net.HasValue o n v) (mode : ExposureMode) (t : Rgba (ExposureTerm α)) :
    Gives o (exposurePass n mode (ExposureTerm.spread t)) net (ExposureTerm.pass t mode v) := by
  refine (gives_color o _).bind fun gain net₁ h₁ hgain => ?_
  refine (gives_multiply (hn.extends h₁) hgain).bind fun product net₂ h₂ hproduct => ?_
  refine (gives_color o _).bind fun pivot net₃ h₃ hpivot => ?_
  refine (gives_divide (hproduct.extends h₃) hpivot).bind fun scaled net₄ h₄ hscaled => ?_
  refine (gives_color o _).bind fun inverseGamma net₅ h₅ hinverse => ?_
  refine (gives_power (hscaled.extends h₅) hinverse).bind fun curved net₆ h₆ hcurved => ?_
  refine (gives_color o _).bind fun pivot' net₇ h₇ hpivot' => ?_
  refine (gives_multiply (hcurved.extends h₇) hpivot').bind fun scaled' net₈ h₈ hscaled' => ?_
  refine (gives_color o _).bind fun lift net₉ h₉ hlift => ?_
  refine (gives_add (hscaled'.extends h₉) hlift).bind fun result net₁₀ h₁₀ hresult => ?_
  have hn' := ((((hn.extends h₁).extends h₂).extends h₃).extends h₄).extends h₅
  have hlast := ((((hn'.extends h₆).extends h₇).extends h₈).extends h₉).extends h₁₀
  cases mode with
  | printer => exact adds_pure hresult
  | gain | fstops => exact gives_replaceAlpha hresult hlast

namespace Compile

variable {o : Probe α} {ctx : Context α} {n : NodeId} {v : Rgba α}

theorem adds_atLeast (what : String) (scope : Scope) (value least : α) :
    Adds (atLeast what scope value least) ctx fun used _ => used = Scalar.orLeast value least := by
  unfold atLeast Scalar.orLeast
  by_cases hsmall : Scalar.lt (Scalar.abs value) least = true
  · rw [if_pos hsmall, if_pos hsmall]
    exact (adds_warn ctx _).bind fun _ _ _ _ => adds_pure rfl
  · rw [if_neg hsmall, if_neg hsmall]
    exact adds_pure rfl

theorem adds_exposureTerm (scope : Scope) (mode : ExposureMode) (e : Exposure α) :
    Adds (exposureTerm scope mode e) ctx fun t _ => e.term? mode = some t := by
  refine (adds_atLeast "gamma" scope e.gamma leastGamma).bind ?_
  rintro gamma ctx₁ - rfl
  refine (adds_atLeast "pivot" scope e.pivot leastPivot).bind ?_
  rintro pivot ctx₂ - rfl
  have hterm (factor : α) (h : e.factor? mode = some factor) : e.term? mode =
      some ⟨factor, 1.0 / e.usedGamma, e.usedPivot, e.lift⟩ := Option.map_eq_some_iff.mpr ⟨_, h, rfl⟩
  cases mode with
  | gain => exact adds_pure (hterm e.gain rfl)
  | fstops | printer =>
    dsimp only
    cases hgain : Scalar.exp2? e.gain with
    | none => exact adds_throw _
    | some gain => exact adds_pure (hterm gain hgain)

theorem adds_rewire [Scalar.TellsDivisors α] (hconstants : ctx.HasConstants)
    (hn : ctx.network.HasValue o n v) (params : Correction α) :
    Adds (rewire n params) ctx fun m net =>
      ∃ w, params.rewired? v = some w ∧ net.HasValue o m w := by
  have hone := hconstants.one.hasValue o
  have hzero := hconstants.zero.hasValue o
  refine adds_constants_bind ?_
  unfold Correction.rewired?
  cases params.rewire with
  | normal => exact adds_pure ⟨v, rfl, hn⟩
  | monochrome =>
    have hstep := (Build.gives_rgbAverage hn).bind fun average _ h haverage =>
      Build.gives_replaceAlpha haverage (hn.extends h)
    exact (gives_build hstep).mono fun m net h => ⟨v.monochrome, rfl, h⟩
  | invert =>
    have hstep := (Build.gives_inverted hone hn).bind fun inverse _ h hinverse =>
      Build.gives_replaceAlpha hinverse (hn.extends h)
    exact (gives_build hstep).mono fun m net h => ⟨v.negative, rfl, h⟩
  | custom =>
    dsimp only
    generalize params.customChannels = channels
    match channels with
    | [r, g, b, a] =>
      exact (gives_build (Build.gives_customRewire hone hzero hn)).mono fun m net h => ⟨_, rfl, h⟩
    | [] | [_] | [_, _] | [_, _, _] | _ :: _ :: _ :: _ :: _ :: _ => exact adds_throw _

theorem adds_exposurePass (hn : ctx.network.HasValue o n v) (mode : ExposureMode)
    (t : Rgba (ExposureTerm α)) :
    Adds (build (Build.exposurePass n mode (ExposureTerm.spread t))) ctx fun m net =>
      ∃ w, net.HasValue o m w ∧ w.red = t.red.apply v.red ∧ w.green = t.green.apply v.green ∧
        w.blue = t.blue.apply v.blue :=
  (gives_build (Build.gives_exposurePass hn mode t)).mono fun _ _ hm =>
    ⟨_, hm, ExposureTerm.pass_colors t mode v⟩

theorem adds_exposureLightness [Scalar.TellsDivisors α] (hn : ctx.network.HasValue o n v)
    (scope : Scope) (params : Correction α) :
    Adds (exposureLightness scope n params) ctx fun m net =>
      ∃ w, params.exposed? v = some w ∧ net.HasValue o m w := by
  let mode := params.exposureMode
  refine (adds_exposureTerm scope mode params.globalExposure).bind fun t ctx₁ h₁ ht => ?_
  have hn₁ := hn.extends h₁.network
  refine (adds_exposurePass hn₁ mode (.replicate t)).bind ?_
  rintro common ctx₂ h₂ ⟨w, hcommon, hred, hgreen, hblue⟩
  have hn₂ := hn₁.extends h₂.network
  by_cases hany : (params.redEnabled || params.greenEnabled || params.blueEnabled) = true
  · rw [if_pos hany]
    refine (adds_exposureTerm scope mode params.redExposure).bind fun red ctx₃ h₃ hr => ?_
    refine (adds_exposureTerm scope mode params.greenExposure).bind fun green ctx₄ h₄ hg => ?_
    refine (adds_exposureTerm scope mode params.blueExposure).bind fun blue ctx₅ h₅ hb => ?_
    have h := ((h₃.trans h₄).trans h₅).network
    have hcommon₅ := hcommon.extends h
    refine (adds_exposurePass hcommon₅ mode ⟨red, green, blue, .neutral⟩).bind ?_
    rintro single ctx₆ h₆ ⟨u, hsingle, hred', hgreen', hblue'⟩
    have hpick (enabled : Bool) : ctx₆.network.HasValue o (if enabled then single else common)
        (if enabled then u else w) := by
      cases enabled with
      | false => exact hcommon₅.extends h₆.network
      | true => exact hsingle
    have hsources := Build.hasValue_get (hpick params.redEnabled) (hpick params.greenEnabled)
      (hpick params.blueEnabled) ((hn₂.extends h).extends h₆.network)
    refine (gives_build (Build.gives_swizzle hsources _)).mono fun m net hm => ⟨_, ?_, hm⟩
    rw [Correction.exposed?_of_term? red green blue ht (fun _ => hr) (fun _ => hg) fun _ => hb]
    simp only [Rgba.map₂, Rgba.get, apply_ite Rgba.red, apply_ite Rgba.green,
      apply_ite Rgba.blue, hred', hgreen', hblue', hred, hgreen, hblue]
    rfl
  · rw [if_neg hany]
    have hsources := Build.hasValue_get hcommon hcommon hcommon hn₂
    refine (gives_build (Build.gives_swizzle hsources _)).mono fun m net hm => ⟨_, ?_, hm⟩
    simp only [Bool.or_eq_true, not_or, Bool.not_eq_true] at hany
    obtain ⟨⟨hr, hg⟩, hb⟩ := hany
    rw [Correction.exposed?_of_term? .neutral .neutral .neutral ht (by simp [hr]) (by simp [hg])
      (by simp [hb])]
    simp only [Rgba.map₂, Rgba.get, hr, hg, hb, hred, hgreen, hblue]
    rfl

theorem adds_lightness [Scalar.TellsDivisors α] (hn : ctx.network.HasValue o n v) (scope : Scope)
    (params : Correction α) :
    Adds (lightness scope n params) ctx fun m net =>
      ∃ w, params.lightened? v = some w ∧ net.HasValue o m w := by
  unfold lightness Correction.lightened?
  by_cases hexposure : params.useExposure = true
  · rw [if_pos hexposure, if_pos hexposure]
    exact adds_exposureLightness hn scope params
  · rw [if_neg hexposure, if_neg hexposure]
    exact (gives_build (Build.gives_simpleLightness hn params)).mono fun m net h => ⟨_, rfl, h⟩

/-- The network of a correction computes the color after all stages. -/
theorem adds_correct [Scalar.TellsDivisors α] (hconstants : ctx.HasConstants)
    (hn : ctx.network.HasValue o n v) (scope : Scope) (params : Correction α) :
    Adds (correct scope n params) ctx fun m net =>
      ∃ w, params.value? v = some w ∧ net.HasValue o m w := by
  refine (adds_rewire hconstants hn params).bind ?_
  rintro rewired ctx₁ h₁ ⟨w, hw, hrewired⟩
  refine (gives_build (Build.gives_hslTint hrewired params)).bind fun tinted ctx₂ h₂ htinted => ?_
  refine (adds_lightness htinted scope params).bind ?_
  rintro result ctx₃ h₃ ⟨l, hl, hresult⟩
  refine adds_constants_bind ?_
  have hlater := ((h₁.trans h₂).trans h₃).hasConstants hconstants
  refine (gives_build (Build.gives_clamp hresult (hlater.zero.hasValue o)
    (hlater.one.hasValue o))).mono fun m net h => ⟨l.map (Scalar.clip 0.0 1.0), ?_, h⟩
  simp [Correction.value?, hw, hl]

end Compile

end ShadeGraph
