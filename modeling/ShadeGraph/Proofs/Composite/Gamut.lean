import Mathlib.Analysis.Convex.Basic
import ShadeGraph.Proofs.Composite.Shown

/-!
# Composites within the gamut

In exact arithmetic, layers between zero and one blend to a color between zero and one, whatever
masks and opacities they have. All blends but sums and differences move each component from the one
below towards another one in the gamut, by a share that is the alpha of the layer. Premultiplied,
the colors of a blend stay below its alpha.
-/

namespace ShadeGraph

variable {α : Type} [Scalar.Exact α]

/-! ### Colors -/

/-- All components lie between zero and one. -/
def Rgba.InGamut (v : Rgba α) : Prop := ∀ c, v.get c ∈ Set.Icc 0 1

/-- Alpha lies between zero and one, and the colors lie between zero and alpha. -/
structure Rgba.IsPremultiplied (v : Rgba α) : Prop where
  alpha_le_one : v.alpha ≤ 1
  mem_Icc : ∀ c, v.get c ∈ Set.Icc 0 v.alpha

theorem mul_mem_Icc {a b : α} (ha : a ∈ Set.Icc 0 1) (hb : b ∈ Set.Icc 0 1) :
    a * b ∈ Set.Icc 0 1 := ⟨mul_nonneg ha.1 hb.1, mul_le_one₀ ha.2 hb.1 hb.2⟩

/-- On the way from one number between zero and one to another one, by a share of it. -/
theorem towards_mem_Icc {a b share : α} (ha : a ∈ Set.Icc 0 1) (hb : b ∈ Set.Icc 0 1)
    (hshare : share ∈ Set.Icc 0 1) : a + (b - a) * share ∈ Set.Icc 0 1 := by
  rw [mul_comm]
  exact (convex_Icc (0 : α) 1).add_smul_sub_mem ha hb hshare

theorem Rgba.InGamut.premultiplied {v : Rgba α} (h : v.InGamut) :
    v.premultiplied.IsPremultiplied := by
  have halpha : v.alpha ∈ Set.Icc 0 1 := h .alpha
  have hcolor (c : Component) : v.get c * v.alpha ∈ Set.Icc 0 v.alpha :=
    ⟨mul_nonneg (h c).1 halpha.1, mul_le_of_le_one_left halpha.1 (h c).2⟩
  refine ⟨halpha.2, fun c => ?_⟩
  cases c with
  | red => exact hcolor .red
  | green => exact hcolor .green
  | blue => exact hcolor .blue
  | alpha => exact ⟨halpha.1, le_rfl⟩

/-! ### Blends -/

namespace BlendType

/-- The blends other than sums and differences. -/
def KeepsGamut (blend : BlendType) : Prop := blend ≠ .add ∧ blend ≠ .subtract

theorem component_mem_Icc {blend : BlendType} (h : blend.KeepsGamut) {below layer cover : α}
    (hbelow : below ∈ Set.Icc 0 1) (hlayer : layer ∈ Set.Icc 0 1) (hcover : cover ∈ Set.Icc 0 1) :
    blend.component below layer cover ∈ Set.Icc 0 1 := by
  have hone : (1 : α) ∈ Set.Icc 0 1 := ⟨zero_le_one, le_rfl⟩
  cases blend with
  | replace => exact hlayer
  | alpha => exact towards_mem_Icc hbelow hlayer hcover
  | add => exact absurd rfl h.1
  | subtract => exact absurd rfl h.2
  | multiply =>
    simp only [component, Scalar.one_literal]
    exact mul_mem_Icc hbelow (towards_mem_Icc hone hlayer hcover)
  | min =>
    simp only [component, Scalar.minimum_eq_min]
    refine towards_mem_Icc hbelow ?_ hcover
    exact ⟨le_min hbelow.1 hlayer.1, min_le_of_left_le hbelow.2⟩
  | max =>
    simp only [component, Scalar.maximum_eq_max]
    refine towards_mem_Icc hbelow ?_ hcover
    exact ⟨le_max_of_le_left hbelow.1, max_le hbelow.2 hlayer.2⟩

theorem inGamut_over {blend : BlendType} (h : blend.KeepsGamut) {below layer : Rgba α}
    (hbelow : below.InGamut) (hlayer : layer.InGamut) : (blend.over below layer).InGamut := by
  have hcolor (c : Component) :=
    component_mem_Icc h (hbelow c) (hlayer c) (hlayer .alpha : layer.alpha ∈ Set.Icc 0 1)
  -- The alpha of a blend lies on the way from the alpha below to one.
  have halpha : layer.alpha + below.alpha * (1.0 - layer.alpha) ∈ Set.Icc 0 1 := by
    have hway : layer.alpha + below.alpha * (1.0 - layer.alpha) =
        below.alpha + (1 - below.alpha) * layer.alpha := by
      rw [Scalar.one_literal]
      ring
    rw [hway]
    exact towards_mem_Icc (hbelow .alpha) ⟨zero_le_one, le_rfl⟩ (hlayer .alpha)
  intro c
  cases blend with
  | replace => exact hlayer c
  | add => exact absurd rfl h.1
  | subtract => exact absurd rfl h.2
  | alpha | multiply | min | max =>
    cases c with
    | red => exact hcolor .red
    | green => exact hcolor .green
    | blue => exact hcolor .blue
    | alpha => exact halpha

end BlendType

theorem inGamut_blendLayers {layers : List (BlendType × Rgba α)}
    (h : ∀ layer ∈ layers, layer.1.KeepsGamut ∧ layer.2.InGamut) :
    (blendLayers layers).InGamut := by
  refine List.foldlRecOn layers _ (fun c => ?_) fun below hbelow layer hlayer => ?_
  · simp
  · exact BlendType.inGamut_over (h layer hlayer).1 hbelow (h layer hlayer).2

/-! ### Layers -/

theorem maskCover_mem_Icc (mask : Option (Rgba α)) : maskCover mask ∈ Set.Icc 0 1 := by
  cases mask <;> simp [maskCover]

namespace LayerSettings

variable (settings : LayerSettings α)

theorem share_mem_Icc : settings.share ∈ Set.Icc 0 1 := by
  rw [share_exact]
  constructor
  · positivity
  · exact div_le_one_of_le₀ (min_le_right _ _) (by norm_num)

theorem inGamut_weighted {v : Rgba α} (hv : v.InGamut) (mask : Option (Rgba α)) :
    (settings.weighted v mask).InGamut := by
  have halpha : (settings.weighted v mask).alpha ∈ Set.Icc 0 1 := by
    rw [weighted_alpha]
    exact mul_mem_Icc (mul_mem_Icc (maskCover_mem_Icc mask) (hv .alpha)) settings.share_mem_Icc
  intro c
  cases c with
  | red => exact hv .red
  | green => exact hv .green
  | blue => exact hv .blue
  | alpha => exact halpha

/-- The mode is normal, multiply, darken, lighten or not supported. -/
def KeepsGamut {α : Type} (settings : LayerSettings α) : Prop :=
  ∀ mode, settings.blendMode = .text mode → Text.lower mode ∉ ["addition", "add", "subtract"]

theorem keepsGamut_blend {α : Type} {settings : LayerSettings α} {bottom : Bool}
    (h : bottom = false → settings.KeepsGamut) : (settings.blend bottom).KeepsGamut := by
  unfold blend BlendType.ofMode?
  cases bottom with
  | true => simp [BlendType.KeepsGamut]
  | false =>
    have hmode := h rfl
    unfold KeepsGamut at hmode
    split
    · contradiction
    · split
      · rename_i mode heq
        have hsupported := hmode mode heq
        split <;> simp_all [BlendType.KeepsGamut]
      · simp [BlendType.KeepsGamut]

end LayerSettings

namespace Layer

open Compile

/-- The source of the layer shows colors between zero and one. -/
def ShowsGamut (ctx : Context α) (scope : Scope) (images : ImageTable α) (uv : UvGrid α) :
    Layer α → Prop
  | .mk source _ _ =>
    ∃ values, Shows ctx scope.inner source images uv values ∧ ∀ v ∈ values, v.InGamut

def KeepsGamut {α : Type} : Layer α → Prop
  | .mk _ _ settings => settings.KeepsGamut

variable {ctx : Context α} {scope : Scope} {bottom : Bool}

theorem ShowsGamut.value? {layer : Layer α} {images : ImageTable α} {uv : UvGrid α}
    {value : BlendType × Rgba α} (hconstants : ctx.HasConstants)
    (h : layer.ShowsGamut ctx scope images uv) {p : Uv α} (hp : p ∈ uv.points)
    (hvalue : layer.value? (textureValue? ctx images p) scope bottom = some value) :
    value.2.InGamut := by
  cases layer with
  | mk source mask settings =>
    obtain ⟨values, hshows, hgamut⟩ := h
    obtain ⟨v, hv, rfl⟩ := exists_of_value? hvalue
    obtain ⟨w, hw, hshown⟩ := hshows.exists_value? hconstants hp
    obtain rfl := Option.some.inj (hv.symm.trans hshown)
    exact settings.inGamut_weighted (hgamut v hw) _

theorem keepsGamut_value? {texture : Scope → TextureSource α → Option (Rgba α)} {layer : Layer α}
    {value : BlendType × Rgba α} (h : bottom = false → layer.KeepsGamut)
    (hvalue : layer.value? texture scope bottom = some value) : value.1.KeepsGamut := by
  cases layer with
  | mk source mask settings =>
    obtain ⟨_, _, rfl⟩ := exists_of_value? hvalue
    exact LayerSettings.keepsGamut_blend h

/-- Once there is a usable layer, the layers above it must keep the gamut. -/
theorem values_keepGamut {texture : Scope → TextureSource α → Option (Rgba α)}
    {layers : List (Layer α)}
    (h : ∀ layer ∈ layers, ∀ b value, layer.value? texture scope b = some value →
      layer.Usable ctx scope ∧ value.2.InGamut)
    (hmodes : layers.Pairwise fun lower upper =>
      lower.Usable ctx scope → upper.Usable ctx scope → upper.KeepsGamut)
    (hfirst : bottom = false → ∀ layer ∈ layers, layer.Usable ctx scope → layer.KeepsGamut) :
    ∀ value ∈ Layer.values texture scope bottom layers, value.1.KeepsGamut ∧ value.2.InGamut := by
  induction layers generalizing bottom with
  | nil => simp [Layer.values]
  | cons layer layers ih =>
    obtain ⟨hlayer, hlayers⟩ := List.forall_mem_cons.mp h
    obtain ⟨hupper, hmodes⟩ := List.pairwise_cons.mp hmodes
    rw [Layer.values]
    cases hvalue : layer.value? texture scope bottom with
    | none =>
      refine ih hlayers hmodes fun hbottom => ?_
      exact (List.forall_mem_cons.mp (hfirst hbottom)).2
    | some value =>
      obtain ⟨husable, hgamut⟩ := hlayer bottom value hvalue
      have hkeeps : value.1.KeepsGamut :=
        keepsGamut_value? (fun hbottom => hfirst hbottom layer (by simp) husable) hvalue
      refine List.forall_mem_cons.mpr ⟨⟨hkeeps, hgamut⟩, ih hlayers hmodes fun _ upper hmem => ?_⟩
      exact hupper upper hmem husable

end Layer

/-! ### Composites -/

/-- A blend lies in the gamut; it is premultiplied unless the scope is not or is an opacity. -/
def Scope.InRange (scope : Scope) (v : Rgba α) : Prop :=
  if scope.premultiply && !scope.isOpacity then v.IsPremultiplied else v.InGamut

theorem Scope.inRange_composite? {scope : Scope} {layers : List (BlendType × Rgba α)} {v : Rgba α}
    (h : ∀ layer ∈ layers, layer.1.KeepsGamut ∧ layer.2.InGamut)
    (hv : scope.composite? layers = some v) : scope.InRange v := by
  have hblend := inGamut_blendLayers h
  cases layers with
  | nil => cases hv
  | cons layer layers =>
    obtain rfl := Option.some.inj hv
    rw [InRange, blended_eq]
    split
    · exact hblend.premultiplied
    · exact hblend

namespace Compile

/-- A composite whose usable layers show colors between zero and one, and are neither sums nor
differences above the first one, evaluates to colors in range. It has values if the masks in use
have, whatever these are. -/
theorem compileSource_inRange {ctx later : Context α} (hconstants : ctx.HasConstants)
    {scope : Scope} {layers : List (Layer α)} {root : NodeId}
    (hrun : (compileSource scope (.composite layers)).run.run ctx = (.ok (some root), later))
    {images : ImageTable α} {uv : UvGrid α}
    (hgamut : ∀ layer ∈ layers, layer.Usable ctx scope → layer.ShowsGamut ctx scope images uv)
    (hmodes : layers.Pairwise fun lower upper =>
      lower.Usable ctx scope → upper.Usable ctx scope → upper.KeepsGamut) :
    (∀ values, later.network.evaluate images uv root = .ok values →
      ∀ v ∈ values, scope.InRange v) ∧
    ((∀ layer ∈ layers, layer.Evaluable ctx scope images uv) →
      uv.lengths.length < Tensor.pairingLimit →
        ∃ values, later.network.evaluate images uv root = .ok values) := by
  refine ⟨fun values hvalues v hv => ?_, exists_values_of_evaluable hconstants hrun⟩
  have hyields (p : Uv α) :=
    yields_compileSource (goesOn_start hconstants images p) scope (.composite layers)
  have hmem : some v ∈ values.map some := Array.mem_map_of_mem hv
  rw [map_some_of_yields hyields hrun hvalues] at hmem
  obtain ⟨p, hp, hvalue⟩ := Array.mem_map.mp hmem
  rw [Source.value?] at hvalue
  let texture := textureValue? ctx images p
  have husable := (ends_usableComposite (goesOn_start hconstants images p) scope layers).ok hrun
  have hlayer (layer : Layer α) (hmem : layer ∈ layers) (b : Bool) (value : BlendType × Rgba α)
      (h : layer.value? texture scope b = some value) :
      layer.Usable ctx scope ∧ value.2.InGamut := by
    have hlayer := husable layer hmem b (by simp [h, texture])
    exact ⟨hlayer, (hgamut layer hmem hlayer).value? hconstants hp h⟩
  have hkeep : ∀ value ∈ Layer.values texture scope true layers,
      value.1.KeepsGamut ∧ value.2.InGamut := Layer.values_keepGamut hlayer hmodes (by simp)
  exact Scope.inRange_composite? hkeep hvalue

/-- A gray with too much opacity and too bright a mask, in a mode that does not count at the bottom;
a texture that is disabled; and a color that is multiplied, with a mask below zero. -/
def unbounded : List (Layer ℚ) :=
  [.mk (some (.color (.gray 0.75))) (some (.color (.gray 3.0)))
      { LayerSettings.plain with opacity := 250.0, blendMode := .text "Add" },
    .mk (some (.texture { name := "wood", path := some "wood.png" })) none
      { LayerSettings.plain with enabled := false, blendMode := .text "Subtract" },
    .mk (some (.color (.components [0.25, 0.5, 1.0, 0.5]))) (some (.color (.gray (-1.0))))
      { LayerSettings.plain with opacity := 50.0, blendMode := .text "Multiply" }]

theorem showsGamut_color {shade : Shade α} {v : Rgba α} (h : shade.toRgba 1.0 = .ok v)
    (hv : v.InGamut) (ctx : Context α) (scope : Scope) (images : ImageTable α) (uv : UvGrid α)
    (mask : Option (Source α)) (settings : LayerSettings α) :
    (Layer.mk (some (.color shade)) mask settings).ShowsGamut ctx scope images uv := by
  refine ⟨_, shows_color h ctx scope.inner images uv, fun w hw => ?_⟩
  obtain ⟨_, rfl⟩ := Array.mem_ofFn.mp hw
  exact hv

theorem showsGamut_unbounded (images : ImageTable ℚ) (uv : UvGrid ℚ) :
    ∀ layer ∈ unbounded, layer.Usable exactFresh floorScope →
      layer.ShowsGamut exactFresh floorScope images uv := by
  simp only [unbounded, List.forall_mem_cons]
  refine ⟨fun _ => ?_, fun husable => ?_, fun _ => ?_, by simp⟩
  · refine showsGamut_color rfl (fun c => ?_) ..
    cases c <;> norm_num [Rgba.get]
  · cases husable.1
  · refine showsGamut_color rfl (fun c => ?_) ..
    cases c <;> norm_num [Rgba.get]

theorem evaluable_unbounded (images : ImageTable ℚ) (uv : UvGrid ℚ) :
    ∀ layer ∈ unbounded, layer.Evaluable exactFresh floorScope images uv := by
  have hcolor (shade : Shade ℚ) (v : Rgba ℚ) (h : shade.toRgba 1.0 = .ok v) :=
    (shows_color h exactFresh floorScope.inner images uv).evaluable
  simp only [unbounded, List.forall_mem_cons]
  refine ⟨fun _ => ⟨hcolor _ _ rfl, fun _ => hcolor _ _ rfl⟩, fun henabled => ?_,
    fun _ => ⟨hcolor _ _ rfl, fun _ => hcolor _ _ rfl⟩, by simp⟩
  cases henabled

theorem keepsGamut_unbounded : unbounded.Pairwise fun lower upper =>
    lower.Usable exactFresh floorScope → upper.Usable exactFresh floorScope →
      upper.KeepsGamut := by
  have hdisabled {source mask : Option (Source ℚ)} {settings : LayerSettings ℚ}
      (h : settings.enabled = false)
      (husable : (Layer.mk source mask settings).Usable exactFresh floorScope) : False := by
    cases h.symm.trans husable.1
  have hmultiply {source mask : Option (Source ℚ)} {settings : LayerSettings ℚ}
      (h : settings.blendMode = .text "Multiply") :
      (Layer.mk source mask settings).KeepsGamut := by
    rintro mode hmode
    cases h.symm.trans hmode
    decide +kernel
  simp only [unbounded, List.pairwise_cons, List.forall_mem_cons]
  refine ⟨⟨fun _ h => (hdisabled rfl h).elim, fun _ _ => hmultiply rfl, by simp⟩,
    ⟨fun _ _ => hmultiply rfl, by simp⟩, by simp, .nil⟩

theorem compileSource_inRange_unbounded :
    ∃ later, exactFresh.HasConstants ∧
      (compileSource floorScope (.composite unbounded)).run.run exactFresh =
        (.ok (some 33), later) ∧
      ∀ (images : ImageTable ℚ) (uv : UvGrid ℚ), uv.lengths.length < Tensor.pairingLimit →
        ∃ values, later.network.evaluate images uv 33 = .ok values ∧
          ∀ v ∈ values, v.IsPremultiplied := by
  have hfirst : ((compileSource floorScope (.composite unbounded)).run.run exactFresh).1 =
      .ok (some 33) := by decide +kernel
  obtain ⟨later, hrun, -⟩ := exists_run_of_fst hfirst
  refine ⟨later, hasConstants_exactFresh, hrun, fun images uv hdims => ?_⟩
  obtain ⟨hrange, hvalues⟩ := compileSource_inRange hasConstants_exactFresh hrun
    (showsGamut_unbounded images uv) keepsGamut_unbounded
  obtain ⟨values, hvalues⟩ := hvalues (evaluable_unbounded images uv) hdims
  exact ⟨values, hvalues, hrange values hvalues⟩

end Compile

end ShadeGraph
