import ShadeGraph.Channel.Compile
import ShadeGraph.Proofs.Running

/-!
# How many nodes a source makes

An operator puts a fixed number of nodes into the network, however large what it is applied to. So
compiling a source makes at most a constant number of nodes for each source and each layer of its
tree, whether it succeeds or not.
-/

namespace ShadeGraph

variable {α β γ : Type}

mutual

/-- The number of sources and layers in a tree, each as often as it occurs. -/
def Source.size : Source α → Nat
  | .texture _ => 1
  | .color _ => 1
  | .product first second _ => Source.optionalSize first + Source.optionalSize second + 1
  | .tint source _ => Source.optionalSize source + 1
  | .composite layers => Layer.listSize layers + 1
  | .correction source _ => Source.optionalSize source + 1
  | .unsupported _ _ => 1
  | .unknown _ => 1

def Source.optionalSize : Option (Source α) → Nat
  | some source => source.size
  | none => 0

def Layer.size : Layer α → Nat
  | .mk source mask _ => Source.optionalSize source + Source.optionalSize mask + 1

def Layer.listSize : List (Layer α) → Nat
  | [] => 0
  | layer :: layers => layer.size + Layer.listSize layers

end

/-! ### Operators -/

namespace Build

/-- The step puts at most `k` nodes into a network. -/
def Makes (k : Nat) (step : Build α β) : Prop := ∀ net, (step.run net).2.size ≤ net.size + k

variable {j k : Nat} {step : Build α β}

theorem makes_pure (b : β) : Makes 0 (pure b : Build α β) := fun net => Nat.le_refl net.size

theorem Makes.bind {f : β → Build α γ} (hstep : Makes j step) (hf : ∀ b, Makes k (f b)) :
    Makes (j + k) (step >>= f) := by
  intro net
  have hfirst := hstep net
  have hrest := hf (step.run net).1 (step.run net).2
  have hrun : (step >>= f).run net = (f (step.run net).1).run (step.run net).2 := rfl
  rw [hrun]
  omega

theorem Makes.mono (h : Makes j step) (hjk : j ≤ k) : Makes k step := fun net =>
  (h net).trans (Nat.add_le_add_left hjk net.size)

theorem makes_named (operation : Operation α) (ids : List NodeId) (name : String) :
    Makes 1 (named operation ids name) := fun net => (net.size_insert _).le

theorem makes_color (value : Rgba α) : Makes 1 (color value) := makes_named _ _ _

theorem makes_broadcast (n : NodeId) (c : Component) : Makes 1 (broadcast n c : Build α NodeId) :=
  makes_named _ _ _

theorem makes_replaceAlpha (m n : NodeId) : Makes 1 (replaceAlpha m n : Build α NodeId) :=
  makes_named _ _ _

theorem makes_pair (operation : Operation α) (m n : NodeId) : Makes 1 (node operation [m, n]) :=
  makes_named _ _ _

/-- A node and a color in one, and what follows. -/
theorem makes_with_color (operation : Operation α) (n : NodeId) (value : Rgba α)
    {f : NodeId → Build α β} (hf : ∀ m, Makes k (f m)) : Makes (2 + k) (do
      let c ← color value
      let m ← node operation [n, c]
      f m) :=
  ((makes_color value).bind fun c => (makes_pair operation n c).bind hf).mono (by omega)

theorem makes_premultiply (n : NodeId) : Makes 3 (premultiply n : Build α NodeId) :=
  (makes_broadcast n .alpha).bind fun alpha => (makes_pair .multiply n alpha).bind fun product =>
    makes_replaceAlpha product n

theorem makes_product (m n : NodeId) (alpha : ProductAlpha) :
    Makes 2 (product m n alpha : Build α NodeId) :=
  (makes_pair .multiply m n).bind fun _ => makes_replaceAlpha _ _

theorem makes_blendChannel (scope : Scope) (layers : List (NodeId × BlendType)) :
    Makes 4 (blendChannel scope layers : Build α NodeId) := by
  have hblend : Makes 1 (layeredBlend layers : Build α NodeId) := makes_named _ _ _
  refine hblend.bind (k := 3) fun n => ?_
  split
  · exact makes_premultiply n
  · exact (makes_pure n).mono (by omega)

theorem makes_exposurePass (n : NodeId) (mode : ExposureMode) (terms : ExposureTerms α) :
    Makes 11 (exposurePass n mode terms) := by
  refine makes_with_color _ _ _ fun product => makes_with_color _ _ _ fun scaled =>
    makes_with_color _ _ _ fun curved => makes_with_color _ _ _ fun back =>
      makes_with_color (k := 1) _ _ _ fun result => ?_
  cases mode with
  | printer => exact (makes_pure result).mono (by omega)
  | gain | fstops => exact makes_replaceAlpha result n

variable [Scalar α]

theorem makes_rgbAverage (n : NodeId) : Makes 7 (rgbAverage n : Build α NodeId) :=
  (makes_broadcast n .red).bind fun red => (makes_broadcast n .green).bind fun green =>
    (makes_pair .add red green).bind fun sum => (makes_broadcast n .blue).bind fun blue =>
      (makes_pair .add sum blue).bind fun total =>
        (makes_color (.replicate 3.0)).bind fun three => makes_pair .divide total three

theorem makes_textureChannel (constants : Constants) (scope : Scope) (b : TextureBinding α) :
    Makes 12 (textureChannel constants scope b) := by
  have htexture : Makes 1 (texture b.toTextureLookup.settled) := makes_named _ _ _
  have halpha (n : NodeId) : Makes 8 (applyAlphaSource constants n b.alphaSource : Build α _) := by
    cases b.alphaSource with
    | rgbAverage => exact (makes_rgbAverage n).bind fun average => makes_replaceAlpha n average
    | opaqueAlpha => exact (makes_replaceAlpha n constants.one).mono (by omega)
    | file => exact (makes_pure n).mono (by omega)
  refine htexture.bind (k := 11) fun n => ?_
  split
  · exact (makes_pure n).mono (by omega)
  · refine (halpha n).bind (k := 3) fun m => ?_
    split
    · exact makes_premultiply m
    · exact (makes_pure m).mono (by omega)

theorem makes_maskedAlpha (constants : Constants) (n mask : NodeId) :
    Makes 10 (maskedAlpha constants n mask : Build α NodeId) :=
  (makes_rgbAverage mask).bind fun average =>
    (makes_named .clamp [average, constants.zero, constants.one] "").bind fun cover =>
      (makes_broadcast n .alpha).bind fun alpha => makes_pair .multiply cover alpha

theorem makes_sharedAlpha (n : NodeId) (own : Option NodeId) (share : α) :
    Makes 3 (sharedAlpha n own share) := by
  have hshared (alpha : NodeId) : Makes 2 (do
      return some (← multiply alpha (← color (.replicate share)))) :=
    makes_with_color .multiply alpha _ fun product => makes_pure (some product)
  unfold sharedAlpha
  split
  · exact (makes_pure own).mono (by omega)
  · cases own with
    | some alpha => exact (hshared alpha).mono (by omega)
    | none => exact (makes_broadcast n .alpha).bind hshared

theorem makes_weightedLayer (constants : Constants) (n : NodeId) (mask : Option NodeId) (share : α) :
    Makes 14 (weightedLayer constants n mask share) := by
  -- the last step goes on with the alpha that the layer has, if any
  have hlayer {last : Option NodeId → Build α NodeId} (hkept : last none = pure n)
      (hnode : ∀ alpha, last (some alpha) = replaceAlpha n alpha) (own : Option NodeId) :
      Makes 4 (sharedAlpha n own share >>= last) := by
    refine (makes_sharedAlpha n own share).bind (k := 1) fun alpha => ?_
    cases alpha with
    | some alpha => exact hnode alpha ▸ makes_replaceAlpha n alpha
    | none => exact hkept ▸ (makes_pure n).mono (by omega)
  cases mask with
  | some mask =>
    have hown : Makes 10 (some <$> maskedAlpha constants n mask : Build α (Option NodeId)) := by
      rw [map_eq_pure_bind]
      exact (makes_maskedAlpha constants n mask).bind fun alpha => makes_pure (some alpha)
    exact hown.bind fun own => hlayer rfl (fun _ => rfl) own
  | none =>
    refine ((makes_pure none).bind (k := 4) fun own => ?_).mono (by omega)
    exact hlayer rfl (fun _ => rfl) own

theorem makes_customRewire (constants : Constants) (n : NodeId) (channels : Rgba RewireChannel) :
    Makes 9 (customRewire constants n channels : Build α NodeId) :=
  (makes_pair .subtract constants.one n).bind fun _ => (makes_rgbAverage n).bind fun _ =>
    makes_named _ _ _

theorem makes_hslTint (n : NodeId) (params : Correction α) : Makes 2 (hslTint n params) :=
  (makes_color _).bind fun control => makes_pair .colorCorrection n control

theorem makes_simpleLightness (n : NodeId) (params : Correction α) :
    Makes 7 (simpleLightness n params) := by
  unfold simpleLightness
  split
  · exact (makes_pure n).mono (by omega)
  · exact makes_with_color _ _ _ fun centered => makes_with_color _ _ _ fun scaled =>
      makes_with_color _ _ _ fun shifted => makes_replaceAlpha shifted n

end Build

namespace Compile

/-- The step puts at most `k` nodes into the network of a session, even if it ends in an error. -/
def Makes (k : Nat) (p : Compile α β) : Prop :=
  ∀ ctx : Context α, (p.run.run ctx).2.network.size ≤ ctx.network.size + k

section

variable {j k : Nat} {p : Compile α β}

theorem Makes.bind {f : β → Compile α γ} (hp : Makes j p) (hf : ∀ b, Makes k (f b)) :
    Makes (j + k) (p >>= f) := by
  intro ctx
  have hfirst := hp ctx
  rw [run_bind]
  rcases hrun : p.run.run ctx with ⟨e | b, later⟩ <;> rw [hrun] at hfirst
  · dsimp only at hfirst ⊢
    omega
  · have hrest := hf b later
    dsimp only at hfirst ⊢
    omega

theorem Makes.mono (h : Makes j p) (hjk : j ≤ k) : Makes k p := fun ctx =>
  (h ctx).trans (Nat.add_le_add_left hjk ctx.network.size)

/-- A step that makes no nodes, and what follows. -/
theorem Makes.silent_bind {f : β → Compile α γ} (hp : Makes 0 p) (hf : ∀ b, Makes k (f b)) :
    Makes k (p >>= f) := (Makes.bind hp hf).mono (Nat.zero_add k).le

theorem makes_pure (k : Nat) (b : β) : Makes k (pure b : Compile α β) :=
  fun _ => Nat.le_add_right _ k

theorem makes_throw (k : Nat) (e : CompileError) : Makes k (throw e : Compile α β) :=
  fun _ => Nat.le_add_right _ k

theorem makes_build {step : Build α β} (h : Build.Makes k step) : Makes k (build step) :=
  fun ctx => h ctx.network

theorem makes_debug (text : String) : Makes 0 (debug text : Compile α Unit) := fun _ => Nat.le_refl _

theorem makes_warn (text : String) : Makes 0 (warn text : Compile α Unit) := fun _ => Nat.le_refl _

theorem makes_note (f : Usage α → Usage α) : Makes 0 (note f) := fun _ => Nat.le_refl _

theorem makes_get : Makes 0 (get : Compile α (Context α)) := fun _ => Nat.le_refl _

theorem makes_constants : Makes 0 (constants : Compile α Constants) := fun _ => Nat.le_refl _

/-- A message in place of a node. -/
theorem makes_warn_none (k : Nat) (text : String) :
    Makes k (do warn text; return none : Compile α (Option β)) :=
  (makes_warn text).silent_bind fun _ => makes_pure k none

theorem Makes.return_some (h : Makes k p) : Makes k (do return some (← p)) :=
  h.bind fun b => makes_pure 0 (some b)

end

theorem makes_blendTypeFor (scope : Scope) (mode : Value α) : Makes 0 (blendTypeFor scope mode) := by
  unfold blendTypeFor
  split
  · split
    · exact makes_pure 0 _
    · exact (makes_warn _).silent_bind fun _ => makes_pure 0 _
  · exact makes_throw 0 _

theorem makes_blendLayers (scope : Scope) (layers : List (NodeId × BlendType)) :
    Makes 4 (blendLayers scope layers : Compile α (Option NodeId)) := by
  unfold blendLayers
  split
  · exact makes_warn_none 4 _
  · exact (makes_build (Build.makes_blendChannel scope layers)).return_some

variable [Scalar α]

theorem makes_color (shade : Shade α) : Makes 1 (color shade) := by
  unfold color
  split
  · exact makes_build (Build.makes_color _)
  · exact makes_throw 1 _

theorem makes_orColor (n : Option NodeId) (shade : Shade α) : Makes 1 (orColor n shade) := by
  cases n with
  | some n => exact makes_pure 1 n
  | none => exact makes_color shade

/-! ### Textures -/

theorem makes_compileTextureSource (scope : Scope) (source : TextureSource α) :
    Makes 12 (compileTextureSource scope source) := by
  have hproxy (binding : TextureBinding α) : Makes 0 (applyProxy binding) := by
    refine makes_get.silent_bind fun ctx => ?_
    dsimp only
    split
    · exact (makes_debug _).silent_bind fun _ => makes_pure 0 _
    · exact makes_pure 0 _
  have hbind : Makes 0 (bindTexture scope source) := by
    unfold bindTexture
    dsimp only
    split
    · exact makes_warn_none 0 _
    · exact makes_get.silent_bind fun _ => (hproxy _).silent_bind fun _ =>
        (makes_note _).silent_bind fun _ => makes_pure 0 _
  have hcompile (binding : TextureBinding α) : Makes 12 (compileTexture scope binding) := by
    refine makes_constants.silent_bind fun constants =>
      (makes_build (Build.makes_textureChannel constants scope binding)).bind (k := 0) fun n => ?_
    split
    · exact (makes_debug _).silent_bind fun _ => makes_pure 0 n
    · exact makes_pure 0 n
  refine hbind.silent_bind fun binding => ?_
  cases binding with
  | some binding => exact (hcompile binding).return_some
  | none => exact makes_pure 12 none

/-! ### Corrections and tints -/

theorem makes_rewire (n : NodeId) (params : Correction α) : Makes 9 (rewire n params) := by
  refine makes_constants.silent_bind fun constants => ?_
  cases params.rewire with
  | normal => exact makes_pure 9 n
  | monochrome =>
    exact makes_build (((Build.makes_rgbAverage n).bind fun average =>
      Build.makes_replaceAlpha average n).mono (by omega))
  | invert =>
    exact makes_build (((Build.makes_pair .subtract constants.one n).bind fun inverse =>
      Build.makes_replaceAlpha inverse n).mono (by omega))
  | custom =>
    dsimp only
    split
    · exact makes_build (Build.makes_customRewire _ _ _)
    · exact makes_throw 9 _

theorem makes_exposureTerm (scope : Scope) (mode : ExposureMode) (e : Exposure α) :
    Makes 0 (exposureTerm scope mode e) := by
  have hleast (what : String) (value least : α) : Makes 0 (atLeast what scope value least) := by
    unfold atLeast
    split
    · exact (makes_warn _).silent_bind fun _ => makes_pure 0 _
    · exact makes_pure 0 _
  refine (hleast _ _ _).silent_bind fun _ => (hleast _ _ _).silent_bind fun _ => ?_
  cases mode with
  | gain => exact makes_pure 0 _
  | fstops | printer =>
    dsimp only
    split
    · exact makes_pure 0 _
    · exact makes_throw 0 _

theorem makes_exposureLightness (scope : Scope) (n : NodeId) (params : Correction α) :
    Makes 23 (exposureLightness scope n params) := by
  have hpass (n : NodeId) (terms : ExposureTerms α) :
      Makes 11 (build (Build.exposurePass n params.exposureMode terms)) :=
    makes_build (Build.makes_exposurePass n _ terms)
  refine (makes_exposureTerm _ _ _).silent_bind fun common =>
    (hpass n _).bind (k := 12) fun result => ?_
  split
  · exact (makes_exposureTerm _ _ _).silent_bind fun _ =>
      (makes_exposureTerm _ _ _).silent_bind fun _ => (makes_exposureTerm _ _ _).silent_bind
        fun _ => (hpass result _).bind fun _ => makes_build (Build.makes_named _ _ _)
  · exact (makes_build (Build.makes_named _ _ _)).mono (by omega)

theorem makes_correct (scope : Scope) (n : NodeId) (params : Correction α) :
    Makes 35 (correct scope n params) := by
  have hlightness (tinted : NodeId) : Makes 23 (lightness scope tinted params) := by
    unfold lightness
    split
    · exact makes_exposureLightness scope tinted params
    · exact (makes_build (Build.makes_simpleLightness tinted params)).mono (by omega)
  exact (makes_rewire n params).bind fun _ => (makes_build (Build.makes_hslTint _ params)).bind
    fun tinted => (hlightness tinted).bind fun _ => makes_constants.silent_bind fun _ =>
      makes_build (Build.makes_named _ _ _)

theorem makes_tint (n : NodeId) (columns : TintColumns α) : Makes 12 (tint n columns) := by
  have hcolumn (c : Component) (shade : Shade α) : Makes 3 (do
      let share ← build (Build.broadcast n c)
      let value ← color shade
      build (Build.multiply share value)) :=
    (makes_build (Build.makes_broadcast n c)).bind fun share => (makes_color shade).bind fun value =>
      makes_build (Build.makes_pair .multiply share value)
  have hsum (red green blue : NodeId) : Build.Makes 3 (do
      let sum ← Build.add (← Build.add red green) blue
      Build.replaceAlpha sum n : Build α NodeId) :=
    (Build.makes_pair .add red green).bind fun some => (Build.makes_pair .add some blue).bind
      fun sum => Build.makes_replaceAlpha sum n
  exact (hcolumn .red columns.red).bind fun red => (hcolumn .green columns.green).bind fun green =>
    (hcolumn .blue columns.blue).bind fun blue => makes_build (hsum red green blue)

/-! ### Sources -/

mutual

theorem makes_compileSource (scope : Scope) (source : Source α) :
    Makes (40 * source.size) (compileSource scope source) := by
  cases source with
  | texture source => exact (makes_compileTextureSource scope source).mono (by simp [Source.size])
  | color shade => exact (makes_color shade).return_some.mono (by simp [Source.size])
  | product first second settings =>
    have hproduct (a : NodeId) (b : Option NodeId) : Makes 3 (do
        let b ← orColor b settings.secondColor
        return some (← build (Build.product a b settings.alphaFrom))) :=
      (makes_orColor b _).bind fun b => (makes_build (Build.makes_product a b _)).return_some
    have hsecond (a : NodeId) : Makes (40 * Source.optionalSize second + 3) (do
        let b ← if settings.secondEnabled then compileOptional scope second else pure none
        let b ← orColor b settings.secondColor
        return some (← build (Build.product a b settings.alphaFrom))) := by
      dsimp only
      split
      · exact (makes_compileOptional scope second).bind (hproduct a)
      · exact (makes_pure _ none).bind (hproduct a)
    refine Makes.mono (j := 40 * Source.optionalSize first +
      (1 + (40 * Source.optionalSize second + 3))) ?_ (by simp only [Source.size]; omega)
    unfold compileSource
    dsimp only
    split
    · exact (makes_compileOptional scope first).bind fun a => (makes_orColor a _).bind hsecond
    · exact (makes_pure _ none).bind fun a => (makes_orColor a _).bind hsecond
  | tint source columns =>
    refine ((makes_compileOptional scope source).bind (k := 12) fun n => ?_).mono
      (by simp only [Source.size]; omega)
    cases n with
    | some n => exact (makes_tint n columns).return_some
    | none => exact makes_pure 12 none
  | composite layers =>
    exact ((makes_compileLayers scope 0 true layers).bind fun _ => makes_blendLayers scope _).mono
      (by simp only [Source.size]; omega)
  | correction source params =>
    refine ((makes_compileOptional scope source).bind (k := 35) fun n => ?_).mono
      (by simp only [Source.size]; omega)
    cases n with
    | some n => exact (makes_correct scope n params).return_some
    | none => exact makes_pure 35 none
  | unsupported className description => exact makes_warn_none _ _
  | unknown className => exact makes_warn_none _ _

theorem makes_compileOptional (scope : Scope) (source : Option (Source α)) :
    Makes (40 * Source.optionalSize source) (compileOptional scope source) := by
  cases source with
  | some source => exact makes_compileSource scope source
  | none => exact makes_pure _ none

theorem makes_compileLayer (scope : Scope) (index : Nat) (bottom : Bool) (layer : Layer α) :
    Makes (40 * layer.size) (compileLayer scope index bottom layer) := by
  cases layer with
  | mk source mask settings =>
    have hweighted (n : NodeId) (mask : Option NodeId) : Makes 14 (do
        let n ← build (Build.weightedLayer (← Compile.constants) n mask settings.share)
        let blend ← if bottom then pure .replace else blendTypeFor scope settings.blendMode
        return some (n, blend)) := by
      refine makes_constants.silent_bind fun constants =>
        (makes_build (Build.makes_weightedLayer constants n mask _)).bind (k := 0) fun n => ?_
      split
      · exact makes_pure 0 _
      · exact (makes_blendTypeFor scope _).silent_bind fun _ => makes_pure 0 _
    unfold compileLayer
    dsimp only
    split
    · exact (makes_debug _).silent_bind fun _ => makes_pure _ none
    · refine ((makes_compileOptional scope.inner source).bind
        (k := 40 * Source.optionalSize mask + 14) fun compiled => ?_).mono
          (by simp only [Layer.size]; omega)
      cases compiled with
      | none =>
        dsimp only
        split
        · exact makes_warn_none _ _
        · exact makes_pure _ none
      | some n =>
        dsimp only
        split
        · exact (makes_compileOptional scope.inner mask).bind (hweighted n)
        · exact (makes_pure _ none).bind (hweighted n)

theorem makes_compileLayers (scope : Scope) (index : Nat) (bottom : Bool)
    (layers : List (Layer α)) :
    Makes (40 * Layer.listSize layers) (compileLayers scope index bottom layers) := by
  cases layers with
  | nil => exact makes_pure _ []
  | cons layer layers =>
    refine ((makes_compileLayer scope index bottom layer).bind
      (k := 40 * Layer.listSize layers) fun entry => ?_).mono (by simp only [Layer.listSize]; omega)
    cases entry with
    | some entry =>
      exact (makes_compileLayers scope (index + 1) false layers).bind fun _ => makes_pure 0 _
    | none => exact makes_compileLayers scope (index + 1) bottom layers

end

end Compile

end ShadeGraph
