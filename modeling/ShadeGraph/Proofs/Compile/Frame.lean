import ShadeGraph.Channel.Compile
import ShadeGraph.Proofs.Running

/-!
# What compiling a channel leaves alone

Compiling a channel adds nodes, messages and notes, whatever its source is and whether it succeeds
or not. Records, settings, overrides and proxies stay as they are, and warnings only come on top.
-/

namespace ShadeGraph

variable {α β γ : Type}

/-- A session before and after channels were compiled. -/
structure Context.Continues (ctx later : Context α) : Prop where
  options : later.options = ctx.options
  reporter : later.reporter = ctx.reporter
  registry : later.registrar.registry = ctx.registrar.registry
  ids : later.registrar.ids = ctx.registrar.ids
  constants : later.constants = ctx.constants
  overrides : later.overrides = ctx.overrides
  proxies : later.proxies = ctx.proxies
  warnings : ctx.warnings <+: later.warnings

namespace Context.Continues

variable {a b c : Context α}

theorem refl (ctx : Context α) : ctx.Continues ctx :=
  ⟨rfl, rfl, rfl, rfl, rfl, rfl, rfl, List.prefix_rfl⟩

theorem trans (hab : a.Continues b) (hbc : b.Continues c) : a.Continues c :=
  ⟨hbc.options.trans hab.options, hbc.reporter.trans hab.reporter,
    hbc.registry.trans hab.registry, hbc.ids.trans hab.ids, hbc.constants.trans hab.constants,
    hbc.overrides.trans hab.overrides, hbc.proxies.trans hab.proxies,
    hab.warnings.trans hbc.warnings⟩

end Context.Continues

namespace Compile

/-! ### Steps that keep the session -/

/-- The step keeps the session, even if it ends in an error. -/
def Keeps (p : Compile α β) : Prop := ∀ ctx : Context α, ctx.Continues (p.run.run ctx).2

theorem keeps_pure (b : β) : Keeps (pure b : Compile α β) := fun ctx => .refl ctx

theorem keeps_throw (e : CompileError) : Keeps (throw e : Compile α β) := fun ctx => .refl ctx

theorem Keeps.bind {p : Compile α β} {f : β → Compile α γ} (hp : Keeps p) (hf : ∀ b, Keeps (f b)) :
    Keeps (p >>= f) := by
  intro ctx
  have hfirst := hp ctx
  rw [run_bind]
  cases hrun : p.run.run ctx with
  | mk result ctx' =>
    rw [hrun] at hfirst
    cases result with
    | ok b => exact hfirst.trans (hf b ctx')
    | error e => exact hfirst

theorem keeps_get : Keeps (get : Compile α (Context α)) := fun ctx => .refl ctx

theorem keeps_build (step : Build α β) : Keeps (build step) :=
  fun _ => ⟨rfl, rfl, rfl, rfl, rfl, rfl, rfl, List.prefix_rfl⟩

theorem keeps_debug (text : String) : Keeps (debug text : Compile α Unit) :=
  fun _ => ⟨rfl, rfl, rfl, rfl, rfl, rfl, rfl, List.prefix_rfl⟩

theorem keeps_warn (text : String) : Keeps (warn text : Compile α Unit) :=
  fun _ => ⟨rfl, rfl, rfl, rfl, rfl, rfl, rfl, List.prefix_append _ _⟩

theorem keeps_note (f : Usage α → Usage α) : Keeps (note f) :=
  fun _ => ⟨rfl, rfl, rfl, rfl, rfl, rfl, rfl, List.prefix_rfl⟩

theorem keeps_constants : Keeps (constants : Compile α Constants) :=
  keeps_get.bind fun _ => keeps_pure _

theorem keeps_blendTypeFor (scope : Scope) (mode : Value α) : Keeps (blendTypeFor scope mode) := by
  unfold blendTypeFor
  split
  · split
    · exact keeps_pure _
    · exact (keeps_warn _).bind fun _ => keeps_pure _
  · exact keeps_throw _

theorem keeps_blendLayers (scope : Scope) (layers : List (NodeId × BlendType)) :
    Keeps (blendLayers (α := α) scope layers) := by
  unfold blendLayers
  split
  · exact (keeps_warn _).bind fun _ => keeps_pure _
  · exact (keeps_build _).bind fun _ => keeps_pure _

section

variable [Scalar α]

theorem keeps_color (shade : Shade α) : Keeps (color shade) := by
  unfold color
  split
  · exact keeps_build _
  · exact keeps_throw _

/-! ### Textures and overrides -/

theorem keeps_applyProxy (binding : TextureBinding α) : Keeps (applyProxy binding) := by
  refine keeps_get.bind fun ctx => ?_
  dsimp only
  split
  · exact (keeps_debug _).bind fun _ => keeps_pure _
  · exact keeps_pure _

theorem keeps_bindTexture (scope : Scope) (source : TextureSource α) :
    Keeps (bindTexture scope source) := by
  unfold bindTexture
  dsimp only
  split
  · exact (keeps_warn _).bind fun _ => keeps_pure _
  · exact keeps_get.bind fun _ => (keeps_applyProxy _).bind fun _ =>
      (keeps_note _).bind fun _ => keeps_pure _

theorem keeps_compileTexture (scope : Scope) (binding : TextureBinding α) :
    Keeps (compileTexture scope binding) := by
  refine keeps_constants.bind fun _ => (keeps_build _).bind fun n => ?_
  split
  · exact (keeps_debug _).bind fun _ => keeps_pure _
  · exact keeps_pure _

theorem keeps_compileTextureSource (scope : Scope) (source : TextureSource α) :
    Keeps (compileTextureSource scope source) := by
  refine (keeps_bindTexture scope source).bind fun binding => ?_
  cases binding with
  | some binding => exact (keeps_compileTexture scope binding).bind fun _ => keeps_pure _
  | none => exact keeps_pure _

theorem keeps_overrideTexture (scope : Scope) (file : TextureFile α) :
    Keeps (overrideTexture scope file) :=
  keeps_get.bind fun _ => (keeps_note _).bind fun _ => keeps_compileTexture _ _

theorem keeps_resolveOverride (scope : Scope) (own : Option (ChannelOverride α)) :
    Keeps (resolveOverride scope own) := by
  refine (keeps_get.bind fun _ => keeps_pure _ : Keeps (overrideFor scope own)).bind fun found => ?_
  rcases found with _ | shade | file | mapping
  · exact keeps_pure _
  · exact (keeps_debug _).bind fun _ => (keeps_color _).bind fun _ => keeps_pure _
  · exact (keeps_debug _).bind fun _ => (keeps_overrideTexture _ _).bind fun _ => keeps_pure _
  · exact keeps_throw _

/-! ### Color corrections -/

theorem keeps_rewire (n : NodeId) (p : Correction α) : Keeps (rewire n p) := by
  refine keeps_constants.bind fun constants => ?_
  cases p.rewire with
  | normal => exact keeps_pure _
  | monochrome => exact keeps_build _
  | invert => exact keeps_build _
  | custom =>
    dsimp only
    split
    · exact keeps_build _
    · exact keeps_throw _

theorem keeps_atLeast (what : String) (scope : Scope) (value least : α) :
    Keeps (atLeast what scope value least) := by
  unfold atLeast
  split
  · exact (keeps_warn _).bind fun _ => keeps_pure _
  · exact keeps_pure _

theorem keeps_exposureTerm (scope : Scope) (mode : ExposureMode) (e : Exposure α) :
    Keeps (exposureTerm scope mode e) := by
  refine (keeps_atLeast _ _ _ _).bind fun _ => (keeps_atLeast _ _ _ _).bind fun _ => ?_
  split
  · exact (keeps_pure _).bind fun _ => keeps_pure _
  · split
    · exact (keeps_pure _).bind fun _ => keeps_pure _
    · exact (keeps_throw _).bind fun _ => keeps_pure _

theorem keeps_exposureLightness (scope : Scope) (n : NodeId) (p : Correction α) :
    Keeps (exposureLightness scope n p) := by
  refine (keeps_exposureTerm _ _ _).bind fun _ => (keeps_build _).bind fun _ => ?_
  split
  · exact (keeps_exposureTerm _ _ _).bind fun _ => (keeps_exposureTerm _ _ _).bind fun _ =>
      (keeps_exposureTerm _ _ _).bind fun _ => (keeps_build _).bind fun _ => keeps_build _
  · exact keeps_build _

theorem keeps_correct (scope : Scope) (n : NodeId) (p : Correction α) :
    Keeps (correct scope n p) := by
  refine (keeps_rewire n p).bind fun _ => (keeps_build _).bind fun tinted => ?_
  have hlightness : Keeps (lightness scope tinted p) := by
    unfold lightness
    split
    · exact keeps_exposureLightness _ _ _
    · exact keeps_build _
  exact hlightness.bind fun _ => keeps_constants.bind fun _ => keeps_build _

theorem keeps_tint (n : NodeId) (columns : TintColumns α) : Keeps (tint n columns) := by
  have hcolumn (c : Component) (shade : Shade α) : Keeps (do
      let share ← build (Build.broadcast n c)
      let value ← color shade
      build (Build.multiply share value)) :=
    (keeps_build _).bind fun _ => (keeps_color _).bind fun _ => keeps_build _
  exact (hcolumn _ _).bind fun _ => (hcolumn _ _).bind fun _ => (hcolumn _ _).bind fun _ =>
    keeps_build _

/-! ### Sources -/

theorem keeps_orColor (n : Option NodeId) (shade : Shade α) : Keeps (orColor n shade) := by
  cases n with
  | some n => exact keeps_pure n
  | none => exact keeps_color shade

mutual

theorem keeps_compileSource (scope : Scope) (source : Source α) :
    Keeps (compileSource scope source) := by
  cases source with
  | texture source => exact keeps_compileTextureSource scope source
  | color shade => exact (keeps_color shade).bind fun _ => keeps_pure _
  | product first second settings =>
    have hproduct (a : NodeId) (b : Option NodeId) : Keeps (do
        let b ← orColor b settings.secondColor
        return some (← build (Build.product a b settings.alphaFrom))) :=
      (keeps_orColor b _).bind fun _ => (keeps_build _).bind fun _ => keeps_pure _
    have hsecond (a : NodeId) : Keeps (do
        let b ← if settings.secondEnabled then compileOptional scope second else pure none
        let b ← orColor b settings.secondColor
        return some (← build (Build.product a b settings.alphaFrom))) := by
      dsimp only
      split
      · exact (keeps_compileOptional scope second).bind (hproduct a)
      · exact (keeps_pure none).bind (hproduct a)
    unfold compileSource
    dsimp only
    split
    · exact (keeps_compileOptional scope first).bind fun a => (keeps_orColor a _).bind hsecond
    · exact (keeps_pure none).bind fun a => (keeps_orColor a _).bind hsecond
  | tint source columns =>
    refine (keeps_compileOptional scope source).bind fun n => ?_
    cases n with
    | some n => exact (keeps_tint n columns).bind fun _ => keeps_pure _
    | none => exact keeps_pure _
  | composite layers =>
    exact (keeps_compileLayers scope 0 true layers).bind fun _ => keeps_blendLayers _ _
  | correction source parameters =>
    refine (keeps_compileOptional scope source).bind fun n => ?_
    cases n with
    | some n => exact (keeps_correct scope n parameters).bind fun _ => keeps_pure _
    | none => exact keeps_pure _
  | unsupported className description => exact (keeps_warn _).bind fun _ => keeps_pure _
  | unknown className => exact (keeps_warn _).bind fun _ => keeps_pure _

theorem keeps_compileOptional (scope : Scope) (source : Option (Source α)) :
    Keeps (compileOptional scope source) := by
  cases source with
  | some source => exact keeps_compileSource scope source
  | none => exact keeps_pure _

theorem keeps_compileLayer (scope : Scope) (index : Nat) (bottom : Bool) (layer : Layer α) :
    Keeps (compileLayer scope index bottom layer) := by
  cases layer with
  | mk source mask settings =>
    have hweighted (n : NodeId) (mask : Option NodeId) : Keeps (do
        let n ← build (Build.weightedLayer (← constants) n mask settings.share)
        let blend ← if bottom then pure .replace else blendTypeFor scope settings.blendMode
        return some (n, blend)) := by
      refine keeps_constants.bind fun _ => (keeps_build _).bind fun n => ?_
      split
      · exact (keeps_pure _).bind fun _ => keeps_pure _
      · exact (keeps_blendTypeFor scope _).bind fun _ => keeps_pure _
    unfold compileLayer
    dsimp only
    split
    · exact (keeps_debug _).bind fun _ => keeps_pure _
    · refine (keeps_compileOptional scope.inner source).bind fun compiled => ?_
      cases compiled with
      | none =>
        dsimp only
        split
        · exact (keeps_warn _).bind fun _ => keeps_pure _
        · exact keeps_pure _
      | some n =>
        dsimp only
        split
        · exact (keeps_compileOptional scope.inner mask).bind (hweighted n)
        · exact (keeps_pure none).bind (hweighted n)

theorem keeps_compileLayers (scope : Scope) (index : Nat) (bottom : Bool)
    (layers : List (Layer α)) : Keeps (compileLayers scope index bottom layers) := by
  cases layers with
  | nil => exact keeps_pure _
  | cons layer layers =>
    refine (keeps_compileLayer scope index bottom layer).bind fun entry => ?_
    cases entry with
    | some entry => exact (keeps_compileLayers _ _ _ _).bind fun _ => keeps_pure _
    | none => exact keeps_compileLayers _ _ _ _

end

/-- Compiling a channel adds to the session, whatever becomes of the channel. -/
theorem keeps_compileChannel (material : String) (d : ChannelDescriptor α) :
    Keeps (compileChannel material d) := by
  refine (keeps_resolveOverride _ _).bind fun found => ?_
  cases found with
  | some n => exact keeps_pure _
  | none =>
    cases d.source with
    | none => exact keeps_pure _
    | some source =>
      refine (keeps_compileSource _ source).bind fun n => ?_
      cases n with
      | some n => exact keeps_pure _
      | none => exact (keeps_build _).bind fun _ => keeps_pure _

end

end Compile

end ShadeGraph
