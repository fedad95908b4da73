import ShadeGraph.Proofs.Compile.Lockstep
import ShadeGraph.Proofs.Meaning.Neutral

/-!
# Alpha in opacity channels

An opacity channel is compiled as if there was nothing to do about alpha: every bitmap becomes its
texture node and every composite a blend of its layers, and nothing is multiplied by alpha. So it
does not matter where the alpha of a bitmap comes from and whether it was multiplied already.
-/

namespace ShadeGraph

variable {α : Type}

/-- A bitmap without anything special about its alpha. -/
def TextureSource.plainAlpha (source : TextureSource α) : TextureSource α :=
  { source with alphaSource := .file, premultiplied := .flag false }

mutual

/-- A source without anything special about the alpha of its bitmaps. -/
def Source.plainAlpha : Source α → Source α
  | .texture source => .texture source.plainAlpha
  | .color shade => .color shade
  | .product first second settings =>
    .product (Source.optionalPlainAlpha first) (Source.optionalPlainAlpha second) settings
  | .tint source columns => .tint (Source.optionalPlainAlpha source) columns
  | .composite layers => .composite (Layer.listPlainAlpha layers)
  | .correction source params => .correction (Source.optionalPlainAlpha source) params
  | .unsupported className description => .unsupported className description
  | .unknown className => .unknown className

def Source.optionalPlainAlpha : Option (Source α) → Option (Source α)
  | some source => some source.plainAlpha
  | none => none

def Layer.plainAlpha : Layer α → Layer α
  | .mk source mask settings =>
    .mk (Source.optionalPlainAlpha source) (Source.optionalPlainAlpha mask) settings

def Layer.listPlainAlpha : List (Layer α) → List (Layer α)
  | [] => []
  | layer :: layers => layer.plainAlpha :: Layer.listPlainAlpha layers

end

namespace Compile

variable [Scalar α]

/-! ### Without alpha -/

/-- The texture node of a bitmap. -/
def rawTexture (scope : Scope) (source : TextureSource α) : Compile α (Option NodeId) := do
  match ← bindTexture scope source with
  | some binding => return some (← build (Build.texture binding.toTextureLookup.settled))
  | none => return none

/-- The blend of the layers that could be compiled. -/
def rawBlend (scope : Scope) (layers : List (NodeId × BlendType)) :
    Compile α (Option NodeId) := do
  if layers.isEmpty then
    warn (noLayersText scope)
    return none
  else return some (← build (Build.layeredBlend layers))

mutual

/-- The node of a source for whose alpha nothing is done. -/
def rawSource (scope : Scope) : Source α → Compile α (Option NodeId)
  | .texture source => rawTexture scope source
  | .color shade => return some (← color shade)
  | .product first second settings => do
    let a ← if settings.firstEnabled then rawOptional scope first else pure none
    let a ← orColor a settings.firstColor
    let b ← if settings.secondEnabled then rawOptional scope second else pure none
    let b ← orColor b settings.secondColor
    return some (← build (Build.product a b settings.alphaFrom))
  | .tint source columns => do
    match ← rawOptional scope source with
    | some n => return some (← tint n columns)
    | none => return none
  | .composite layers => do rawBlend scope (← rawLayers scope 0 true layers)
  | .correction source params => do
    match ← rawOptional scope source with
    | some n => return some (← correct scope n params)
    | none => return none
  | .unsupported className description => do
    warn (unsupportedText scope className description)
    return none
  | .unknown className => do
    warn (unknownText scope className)
    return none

def rawOptional (scope : Scope) : Option (Source α) → Compile α (Option NodeId)
  | some source => rawSource scope source
  | none => return none

def rawLayer (scope : Scope) (index : Nat) (bottom : Bool) :
    Layer α → Compile α (Option (NodeId × BlendType))
  | .mk source mask settings => do
    if !settings.enabled then
      debug (disabledLayerText scope index)
      return none
    else
      match ← rawOptional scope.inner source with
      | none =>
        if source.isSome then warn (failedLayerText scope index)
        return none
      | some n =>
        let mask ← if settings.maskEnabled then rawOptional scope.inner mask else pure none
        let n ← build (Build.weightedLayer (← constants) n mask settings.share)
        let blend ← if bottom then pure .replace else blendTypeFor scope settings.blendMode
        return some (n, blend)

def rawLayers (scope : Scope) (index : Nat) (bottom : Bool) :
    List (Layer α) → Compile α (List (NodeId × BlendType))
  | [] => return []
  | layer :: layers => do
    match ← rawLayer scope index bottom layer with
    | some entry => return entry :: (← rawLayers scope (index + 1) false layers)
    | none => rawLayers scope (index + 1) bottom layers

end

/-! ### Opacity channels -/

section

variable {scope : Scope} (h : scope.isOpacity)
include h

theorem compileTexture_of_isOpacity (binding : TextureBinding α) :
    compileTexture scope binding = build (Build.texture binding.toTextureLookup.settled) := by
  simp only [compileTexture, Build.textureChannel, h, if_true, bind_pure, Bool.not_true,
    Bool.false_eq_true, if_false]
  rfl

theorem compileTextureSource_of_isOpacity (source : TextureSource α) :
    compileTextureSource scope source = rawTexture scope source := by
  have hsame : compileTexture (α := α) scope =
      fun binding => build (Build.texture binding.toTextureLookup.settled) :=
    funext (compileTexture_of_isOpacity h)
  rw [compileTextureSource, hsame]
  rfl

omit [Scalar α] in
theorem blendLayers_of_isOpacity (layers : List (NodeId × BlendType)) :
    blendLayers (α := α) scope layers = rawBlend scope layers := by
  simp only [blendLayers, rawBlend, Build.blendChannel, h, Bool.not_true, Bool.and_false,
    Bool.false_eq_true, if_false, bind_pure]

end

mutual

theorem compileSource_of_isOpacity {scope : Scope} (h : scope.isOpacity) (source : Source α) :
    compileSource scope source = rawSource scope source := by
  cases source with
  | texture source => exact compileTextureSource_of_isOpacity h source
  | product first second settings =>
    simp only [compileSource, rawSource, compileOptional_of_isOpacity h]
  | tint source columns =>
    rw [compileSource, compileOptional_of_isOpacity h source]
    rfl
  | composite layers =>
    simp only [compileSource, rawSource, compileLayers_of_isOpacity h, blendLayers_of_isOpacity h]
  | correction source params =>
    rw [compileSource, compileOptional_of_isOpacity h source]
    rfl
  | color shade => simp only [compileSource, rawSource]
  | unsupported className description => simp only [compileSource, rawSource]
  | unknown className => simp only [compileSource, rawSource]

theorem compileOptional_of_isOpacity {scope : Scope} (h : scope.isOpacity)
    (source : Option (Source α)) : compileOptional scope source = rawOptional scope source := by
  cases source with
  | some source => exact compileSource_of_isOpacity h source
  | none => rfl

theorem compileLayer_of_isOpacity {scope : Scope} (h : scope.isOpacity) (index : Nat)
    (bottom : Bool) (layer : Layer α) :
    compileLayer scope index bottom layer = rawLayer scope index bottom layer := by
  cases layer with
  | mk source mask settings =>
    have hinner : scope.inner.isOpacity := h
    rw [compileLayer, compileOptional_of_isOpacity hinner source,
      compileOptional_of_isOpacity hinner mask]
    rfl

theorem compileLayers_of_isOpacity {scope : Scope} (h : scope.isOpacity) (index : Nat)
    (bottom : Bool) (layers : List (Layer α)) :
    compileLayers scope index bottom layers = rawLayers scope index bottom layers := by
  cases layers with
  | nil => rfl
  | cons layer layers =>
    rw [compileLayers, compileLayer_of_isOpacity h index bottom layer,
      compileLayers_of_isOpacity h (index + 1) false layers,
      compileLayers_of_isOpacity h (index + 1) bottom layers]
    rfl

end

/-! ### Sources that differ in alpha -/

theorem rawTexture_plainAlpha (scope : Scope) (source : TextureSource α) :
    rawTexture scope source.plainAlpha = rawTexture scope source := by
  cases hpath : (source.path.getD "").isEmpty with
  | true =>
    have hplain : (source.plainAlpha.path.getD "").isEmpty = true := hpath
    unfold rawTexture bindTexture
    simp only [hpath, hplain, if_true]
    rfl
  | false =>
    funext ctx
    have hlookup : (bound ctx scope source.plainAlpha).toTextureLookup =
        (bound ctx scope source).toTextureLookup := rfl
    refine (run_bind_of_ok (run_bindTexture scope source.plainAlpha ctx hpath) _).trans ?_
    refine Eq.trans ?_ (run_bind_of_ok (run_bindTexture scope source ctx hpath) _).symm
    dsimp only
    rw [hlookup]
    rfl

mutual

theorem rawSource_plainAlpha (scope : Scope) (source : Source α) :
    rawSource scope source.plainAlpha = rawSource scope source := by
  cases source with
  | texture source => exact rawTexture_plainAlpha scope source
  | product first second settings =>
    simp only [Source.plainAlpha, rawSource, rawOptional_plainAlpha]
  | tint source columns => simp only [Source.plainAlpha, rawSource, rawOptional_plainAlpha]
  | composite layers => simp only [Source.plainAlpha, rawSource, rawLayers_plainAlpha]
  | correction source params => simp only [Source.plainAlpha, rawSource, rawOptional_plainAlpha]
  | color shade => simp only [Source.plainAlpha]
  | unsupported className description => simp only [Source.plainAlpha]
  | unknown className => simp only [Source.plainAlpha]

theorem rawOptional_plainAlpha (scope : Scope) (source : Option (Source α)) :
    rawOptional scope (Source.optionalPlainAlpha source) = rawOptional scope source := by
  cases source with
  | some source => exact rawSource_plainAlpha scope source
  | none => rfl

theorem rawLayer_plainAlpha (scope : Scope) (index : Nat) (bottom : Bool) (layer : Layer α) :
    rawLayer scope index bottom layer.plainAlpha = rawLayer scope index bottom layer := by
  cases layer with
  | mk source mask settings =>
    have hsome : (Source.optionalPlainAlpha source).isSome = source.isSome := by
      cases source <;> rfl
    simp only [Layer.plainAlpha, rawLayer, rawOptional_plainAlpha, hsome]

theorem rawLayers_plainAlpha (scope : Scope) (index : Nat) (bottom : Bool)
    (layers : List (Layer α)) :
    rawLayers scope index bottom (Layer.listPlainAlpha layers) =
      rawLayers scope index bottom layers := by
  cases layers with
  | nil => rfl
  | cons layer layers =>
    simp only [Layer.listPlainAlpha, rawLayers, rawLayer_plainAlpha, rawLayers_plainAlpha]

end

/-! ### Channels -/

/-- A channel for whose alpha nothing is done. -/
def rawChannel (material : String) (d : ChannelDescriptor α) : Compile α (Option NodeId) := do
  let scope := Scope.ofChannel material d.name
  match ← resolveOverride scope d.override with
  | some n => return some n
  | none =>
    match d.source with
    | none => return none
    | some source =>
      match ← rawSource scope source with
      | some n => return some n
      | none => return some (← build (fallbackNode d.name))

/-- Two descriptions of an opacity channel that differ at most in the alpha of bitmaps, at any depth,
are compiled to the same: from every session the same node of the same network comes out, or the
same error, with the same warnings and notes. Every bitmap contributes its texture node and every
composite the blend of its layers, without a multiplication by alpha. -/
theorem compileChannel_opacity (material : String) {d d' : ChannelDescriptor α}
    (hopacity : Channel.isOpacity d.name) (hname : d'.name = d.name)
    (hoverride : d'.override = d.override)
    (hsource : Source.optionalPlainAlpha d'.source = Source.optionalPlainAlpha d.source) :
    compileChannel material d' = compileChannel material d ∧
      compileChannel material d = rawChannel material d := by
  have hraw (d : ChannelDescriptor α) (hopacity : Channel.isOpacity d.name) :
      compileChannel material d = rawChannel material d := by
    have hscope : (Scope.ofChannel material d.name).isOpacity := hopacity
    have hsame : compileSource (α := α) (Scope.ofChannel material d.name) =
        rawSource (Scope.ofChannel material d.name) := funext (compileSource_of_isOpacity hscope)
    unfold compileChannel
    dsimp only
    rw [hsame]
    rfl
  have hplain (d : ChannelDescriptor α) : rawChannel material
      { d with source := Source.optionalPlainAlpha d.source } = rawChannel material d := by
    unfold rawChannel
    cases d.source with
    | none => rfl
    | some source =>
      dsimp only [Source.optionalPlainAlpha]
      rw [rawSource_plainAlpha]
  have hsame : { d' with source := Source.optionalPlainAlpha d'.source } =
      { d with source := Source.optionalPlainAlpha d.source } := by
    rw [hname, hoverride, hsource]
  refine ⟨?_, hraw d hopacity⟩
  rw [hraw d' (hname ▸ hopacity), ← hplain d', hsame, hplain d, hraw d hopacity]

/-- Wood under a mask, in an opacity channel. -/
def cutFloor (alpha : AlphaSource) (premultiplied : Bool) : ChannelDescriptor ℚ where
  name := "cutout"
  source := some (.composite
    [.mk (some (.texture { name := "wood", path := some "wood.png", alphaSource := alpha }))
      (some (.texture
        { name := "mask", path := some "mask.png", premultiplied := .flag premultiplied }))
      .plain])

/-- The alpha of the wood and of its mask makes no difference. -/
theorem compileChannel_opacity_cutFloor :
    Channel.isOpacity "cutout" = true ∧
    Source.optionalPlainAlpha (cutFloor .rgbAverage true).source =
      Source.optionalPlainAlpha (cutFloor .file false).source ∧
    compileChannel "M" (cutFloor .rgbAverage true) = compileChannel "M" (cutFloor .file false) ∧
    ((compileChannel "M" (cutFloor .file false)).run.run exactFresh).1 = .ok (some 15) := by
  have hopacity : Channel.isOpacity "cutout" = true := by decide +kernel
  have hsource : Source.optionalPlainAlpha (cutFloor .rgbAverage true).source =
      Source.optionalPlainAlpha (cutFloor .file false).source := rfl
  have hsame : compileChannel "M" (cutFloor .rgbAverage true) =
        compileChannel "M" (cutFloor .file false) ∧
      compileChannel "M" (cutFloor .file false) = rawChannel "M" (cutFloor .file false) :=
    compileChannel_opacity "M" hopacity rfl rfl hsource
  exact ⟨hopacity, hsource, hsame.1, by decide +kernel⟩

end Compile

end ShadeGraph
