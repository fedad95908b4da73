import ShadeGraph.Proofs.Meaning.Composite

/-!
# What sources compute

A source has a color wherever its textures have one, by recursion on its tree. A compiled source is a
node with this color, and a source without one is not compiled.
-/

namespace ShadeGraph

variable {α : Type} [Scalar α]

/-! ### Trees -/

section

variable (texture : Scope → TextureSource α → Option (Rgba α))

mutual

/-- The color of a source from those of its textures, if it has any. -/
def Source.value? (scope : Scope) : Source α → Option (Rgba α)
  | .texture source => texture scope source
  | .color shade => shade.value?
  | .product first second settings => do
    let first := if settings.firstEnabled then Source.optionalValue? scope first else none
    let second := if settings.secondEnabled then Source.optionalValue? scope second else none
    let v ← first <|> settings.firstColor.value?
    let w ← second <|> settings.secondColor.value?
    return v.product w settings.alphaFrom
  | .tint source columns => do columns.value? (← Source.optionalValue? scope source)
  | .composite layers => scope.composite? (Layer.values scope true layers)
  | .correction source params => do params.value? (← Source.optionalValue? scope source)
  | .unsupported _ _ => none
  | .unknown _ => none

def Source.optionalValue? (scope : Scope) : Option (Source α) → Option (Rgba α)
  | some source => source.value? scope
  | none => none

/-- The color of a layer with its blend; its source and its mask are not premultiplied. -/
def Layer.value? (scope : Scope) (bottom : Bool) : Layer α → Option (BlendType × Rgba α)
  | .mk source mask settings => do
    guard settings.enabled
    let v ← Source.optionalValue? scope.inner source
    let mask := if settings.maskEnabled then Source.optionalValue? scope.inner mask else none
    return (settings.blend bottom, settings.weighted v mask)

/-- The colors of the usable layers, the bottom one first. -/
def Layer.values (scope : Scope) (bottom : Bool) : List (Layer α) → List (BlendType × Rgba α)
  | [] => []
  | layer :: layers =>
    match layer.value? scope bottom with
    | some value => value :: Layer.values scope false layers
    | none => Layer.values scope bottom layers

end

end

/-! ### Textures in a session -/

namespace Compile

/-- The texture of a bitmap in a session. -/
def binding? (ctx : Context α) (scope : Scope) (source : TextureSource α) :
    Option (TextureBinding α) :=
  match (bindTexture scope source).run.run ctx with
  | (.ok b, _) => b
  | (.error _, _) => none

/-- The color of a bitmap in a channel at a point. -/
def textureValue? (ctx : Context α) (images : ImageTable α) (p : Uv α) (scope : Scope)
    (source : TextureSource α) : Option (Rgba α) :=
  (binding? ctx scope source).map fun b => b.shade scope (b.valueAt images p)

end Compile

/-! ### Compiled sources -/

namespace Compile

theorem ends_applyProxy (ctx : Context α) (b : TextureBinding α) {E : CompileError → Prop} :
    Ends (applyProxy b) ctx
      (fun bound _ => bound = { b with toTextureLookup := ctx.proxies.apply b.toTextureLookup })
      E := by
  refine Ends.bind ends_get ?_
  rintro _ _ ⟨rfl, rfl⟩
  dsimp only
  split
  · exact (ends_debug _).bind fun _ _ _ => ends_pure rfl
  · exact ends_pure rfl

/-- What a bitmap with a file is bound to. -/
def bound (ctx : Context α) (scope : Scope) (source : TextureSource α) : TextureBinding α :=
  let path := source.path.getD ""
  let plain := TextureLookup.plain (source.nodeName path) path
    (ctx.mappingChannel scope source.mappingChannel)
    (source.srgb.getD (ctx.options.srgb scope))
  let lookup :=
    match source.uvTransform with
    | some transform => plain.transform (transform ctx.options.time)
    | none => plain
  { toTextureLookup := ctx.proxies.apply lookup
    alphaSource := source.alphaSource
    premultiplied := source.premultiplied }

theorem ends_bindTexture (ctx : Context α) (scope : Scope) (source : TextureSource α) :
    Ends (bindTexture scope source) ctx
      (fun b _ => b = if (source.path.getD "").isEmpty then none else some (bound ctx scope source))
      fun _ => False := by
  unfold bindTexture
  by_cases hpath : (source.path.getD "").isEmpty = true
  · simp only [hpath, if_true]
    exact (ends_warn _).bind fun _ _ _ => ends_pure rfl
  · simp only [hpath]
    refine Ends.bind ends_get ?_
    rintro _ _ ⟨rfl, rfl⟩
    refine Ends.bind (ends_applyProxy _ _) ?_
    rintro _ _ rfl
    exact (ends_note _).bind fun _ _ _ => ends_pure rfl

theorem binding?_eq (ctx : Context α) (scope : Scope) (source : TextureSource α) :
    binding? ctx scope source =
      if (source.path.getD "").isEmpty then none else some (bound ctx scope source) := by
  obtain ⟨b, later, hrun, hb⟩ := (ends_bindTexture ctx scope source).exists_ok fun _ => id
  rw [binding?, hrun, ← hb]

theorem binding?_of_continues {ctx later : Context α} (h : ctx.Continues later) (scope : Scope)
    (source : TextureSource α) : binding? later scope source = binding? ctx scope source := by
  simp only [binding?_eq, bound, Context.mappingChannel, h.options, h.overrides, h.proxies]

variable {o : Probe α} {ctx : Context α} {n : NodeId} {v : Rgba α}

theorem adds_bindTexture (scope : Scope) (source : TextureSource α) :
    Adds (bindTexture scope source) ctx fun b _ => b = binding? ctx scope source := by
  have hproxy (later : Context α) (b : TextureBinding α) :
      Adds (applyProxy b) later fun _ _ => True := by
    refine adds_get_bind ?_
    dsimp only
    split
    · exact (adds_debug later _).bind fun _ _ _ _ => adds_pure trivial
    · exact adds_pure trivial
  have hgrows : Adds (bindTexture scope source) ctx fun _ _ => True := by
    unfold bindTexture
    dsimp only
    split
    · exact (adds_warn ctx _).bind fun _ _ _ _ => adds_pure trivial
    · exact adds_get_bind ((hproxy ctx _).bind fun _ later _ _ =>
        (adds_note later _).bind fun _ _ _ _ => adds_pure trivial)
  refine ⟨fun hrun => ⟨(hgrows.ok hrun).1, ?_⟩, fun _ => trivial⟩
  rw [binding?, hrun]

/-- The step adds nodes and returns one with this value, or none if there is none. -/
def Yields (o : Probe α) (p : Compile α (Option NodeId)) (ctx : Context α)
    (v : Option (Rgba α)) : Prop :=
  Adds p ctx fun n net => Option.Rel (net.HasValue o) n v

theorem textureValue?_of_continues {later : Context α} (h : ctx.Continues later) :
    textureValue? later = textureValue? ctx := by
  funext images p scope source
  rw [textureValue?, textureValue?, binding?_of_continues h]

theorem Yields.bind {p : Compile α (Option NodeId)} {f : NodeId → Compile α (Option NodeId)}
    {v : Option (Rgba α)} {g : Rgba α → Option (Rgba α)} (h : Yields o p ctx v)
    (hf : ∀ n w later, ctx.Grows later → later.network.HasValue o n w →
      Yields o (f n) later (g w)) :
    Yields o (do
      match ← p with
      | some n => f n
      | none => return none) ctx (v.bind g) := by
  refine Adds.bind h fun n later hgrows hn => ?_
  cases hn with
  | none => exact adds_pure .none
  | some hn => exact hf _ _ later hgrows hn

theorem yields_some {p : Compile α NodeId} {v : Option (Rgba α)}
    (h : Adds p ctx fun n net => ∃ w, v = some w ∧ net.HasValue o n w) :
    Yields o (do return some (← p)) ctx v := by
  refine h.bind ?_
  rintro n later - ⟨w, rfl, hn⟩
  exact adds_pure (.some hn)

variable (o) in
theorem adds_colorValue (shade : Shade α) :
    Adds (color shade) ctx fun n net => ∃ v, shade.value? = some v ∧ net.HasValue o n v := by
  refine (adds_color o ctx shade).mono fun n net ⟨v, hv, hn⟩ => ⟨v, ?_, hn⟩
  rw [Shade.value?, hv]
  rfl

/-! ### Operators -/

theorem yields_texture [Scalar.TellsDivisors α] (hconstants : ctx.HasConstants)
    (hall : ∀ lookup, o.kind lookup) (scope : Scope) (source : TextureSource α) :
    Yields o (compileTextureSource scope source) ctx
      (textureValue? ctx o.images o.point scope source) := by
  refine (adds_bindTexture scope source).bind ?_
  rintro b ctx₁ h₁ rfl
  unfold textureValue?
  cases binding? ctx scope source with
  | none => exact adds_pure .none
  | some b =>
    have hone := (h₁.hasConstants hconstants).one.hasValue o
    have hcompile : Gives o (compileTexture scope b) ctx₁
        (b.shade scope (b.valueAt o.images o.point)) := by
      refine adds_constants_bind ?_
      refine (gives_build (Build.gives_textureChannel hone scope b (hall _))).bind
        fun n ctx₂ h₂ hn => ?_
      split
      · exact (adds_debug ctx₂ _).bind fun _ _ h₃ _ => adds_pure (hn.extends h₃.network)
      · exact adds_pure hn
    exact hcompile.bind fun n _ _ hn => adds_pure (.some hn)

theorem adds_orColor {n : Option NodeId} {v : Option (Rgba α)}
    (h : Option.Rel (ctx.network.HasValue o) n v) (shade : Shade α) :
    Adds (orColor n shade) ctx fun m net =>
      ∃ w, (v <|> shade.value?) = some w ∧ net.HasValue o m w := by
  cases h with
  | some h => exact adds_pure ⟨_, rfl, h⟩
  | none => exact adds_colorValue o shade

theorem yields_product {a : NodeId} {b : Option NodeId} {w : Option (Rgba α)}
    (ha : ctx.network.HasValue o a v) (hb : Option.Rel (ctx.network.HasValue o) b w)
    (settings : ProductSettings α) :
    Yields o (do
      let b ← orColor b settings.secondColor
      return some (← build (Build.product a b settings.alphaFrom))) ctx (do
        let w ← w <|> settings.secondColor.value?
        return v.product w settings.alphaFrom) := by
  refine (adds_orColor hb settings.secondColor).bind ?_
  rintro b ctx₁ h₁ ⟨w, hw, hb⟩
  rw [hw]
  refine (gives_build (Build.gives_product (ha.extends h₁.network) hb settings.alphaFrom)).bind ?_
  exact fun n _ _ hn => adds_pure (.some hn)

theorem adds_tint (hn : ctx.network.HasValue o n v) (columns : TintColumns α) :
    Adds (tint n columns) ctx fun m net =>
      ∃ w, columns.value? v = some w ∧ net.HasValue o m w := by
  have hcolumn (c : Component) (shade : Shade α) {later : Context α} (h : ctx.Grows later) :
      Adds (do
        let share ← build (Build.broadcast n c)
        let value ← color shade
        build (Build.multiply share value)) later fun m net =>
          ∃ w, shade.value? = some w ∧ net.HasValue o m (w.map (v.get c * ·)) := by
    refine (gives_build (Build.gives_broadcast (hn.extends h.network) c)).bind
      fun share ctx₁ h₁ hshare => ?_
    refine (adds_colorValue o shade).bind ?_
    rintro value ctx₂ h₂ ⟨w, hw, hvalue⟩
    have hproduct := Build.gives_multiply (hshare.extends h₂.network) hvalue
    exact (gives_build hproduct).mono fun m net hm => ⟨w, hw, hm⟩
  refine (hcolumn .red columns.red (.refl ctx)).bind ?_
  rintro red ctx₁ h₁ ⟨r, hr, hred⟩
  refine (hcolumn .green columns.green h₁).bind ?_
  rintro green ctx₂ h₂ ⟨g, hg, hgreen⟩
  refine (hcolumn .blue columns.blue (h₁.trans h₂)).bind ?_
  rintro blue ctx₃ h₃ ⟨b, hb, hblue⟩
  have hsum := Build.gives_add ((hred.extends h₂.network).extends h₃.network)
    (hgreen.extends h₃.network)
  have hstep := hsum.bind fun sum net₁ k₁ hsum =>
    (Build.gives_add hsum (hblue.extends k₁)).bind fun total net₂ k₂ htotal =>
      Build.gives_replaceAlpha htotal
        ((hn.extends ((h₁.trans h₂).trans h₃).network).extends (k₁.trans k₂))
  refine (gives_build hstep).mono fun m net hm => ⟨_, ?_, hm⟩
  simp only [TintColumns.value?, hr, hg, hb]
  rfl

omit [Scalar α] in
theorem adds_blendTypeFor (scope : Scope) (settings : LayerSettings α) :
    Adds (blendTypeFor scope settings.blendMode) ctx fun blend _ =>
      blend = settings.blend false := by
  unfold blendTypeFor
  split
  · rename_i mode hmode
    have hblend : settings.blend false = (BlendType.ofMode? mode).getD .alpha := by
      rw [LayerSettings.blend, hmode]
      rfl
    rw [hblend]
    cases BlendType.ofMode? mode with
    | some blend => exact adds_pure rfl
    | none => exact (adds_warn ctx _).bind fun _ _ _ _ => adds_pure rfl
  · exact adds_throw _

theorem yields_blendLayers {layers : List (NodeId × BlendType)}
    {values : List (BlendType × Rgba α)} (scope : Scope)
    (h : List.Forall₂ (ctx.network.HasLayer o) layers values) :
    Yields o (blendLayers scope layers) ctx (scope.composite? values) := by
  unfold blendLayers
  cases h with
  | nil => exact (adds_warn ctx _).bind fun _ _ _ _ => adds_pure .none
  | cons hfirst hrest =>
    exact (gives_build (Build.gives_blendChannel scope (.cons hfirst hrest))).bind
      fun n _ _ hn => adds_pure (.some hn)

/-- The step gives a layer with this blend and value, or none if there is none. -/
def YieldsLayer (o : Probe α) (p : Compile α (Option (NodeId × BlendType))) (ctx : Context α)
    (value : Option (BlendType × Rgba α)) : Prop :=
  Adds p ctx fun layer net => Option.Rel (net.HasLayer o) layer value

theorem yieldsLayer_weighted [Scalar.TellsDivisors α] {mask : Option NodeId}
    {m : Option (Rgba α)} (hconstants : ctx.HasConstants) (hn : ctx.network.HasValue o n v)
    (hmask : Option.Rel (ctx.network.HasValue o) mask m) (scope : Scope) (bottom : Bool)
    (settings : LayerSettings α) :
    YieldsLayer o (do
      let n ← build (Build.weightedLayer (← constants) n mask settings.share)
      let blend ← if bottom then pure .replace else blendTypeFor scope settings.blendMode
      return some (n, blend)) ctx (some (settings.blend bottom, settings.weighted v m)) := by
  refine adds_constants_bind ?_
  refine (gives_build (Build.gives_weightedLayer (hconstants.one.hasValue o)
    (hconstants.zero.hasValue o) hn hmask settings)).bind fun n ctx₁ h₁ hn => ?_
  cases bottom with
  | true => exact adds_pure (.some ⟨rfl, hn⟩)
  | false =>
    refine (adds_blendTypeFor scope settings).bind ?_
    rintro blend ctx₂ h₂ rfl
    exact adds_pure (.some ⟨rfl, hn.extends h₂.network⟩)

/-! ### Trees -/

/-- A session goes on from one with its constants, and all textures may be read in it. -/
structure GoesOn (o : Probe α) (start ctx : Context α) : Prop where
  constants : start.HasConstants
  grows : start.Grows ctx
  all : ∀ lookup, o.kind lookup

theorem GoesOn.to {o : Probe α} {start ctx later : Context α} (h : GoesOn o start ctx)
    (hgrows : ctx.Grows later) : GoesOn o start later :=
  ⟨h.constants, h.grows.trans hgrows, h.all⟩

theorem GoesOn.hasConstants {o : Probe α} {start ctx : Context α}
    (h : GoesOn o start ctx) : ctx.HasConstants := h.grows.hasConstants h.constants

variable {start : Context α}

mutual

theorem yields_compileSource [Scalar.TellsDivisors α] {ctx : Context α} (h : GoesOn o start ctx)
    (scope : Scope) (source : Source α) : Yields o (compileSource scope source) ctx
      (source.value? (textureValue? start o.images o.point) scope) := by
  cases source with
  | texture source =>
    have htexture := yields_texture h.hasConstants h.all scope source
    rwa [textureValue?_of_continues h.grows.toContinues] at htexture
  | color shade => exact yields_some (adds_colorValue o shade)
  | product first second settings =>
    have hsecond {ctx : Context α} {a : NodeId} {v : Rgba α} (h : GoesOn o start ctx)
        (ha : ctx.network.HasValue o a v) : Yields o (do
          let b ← if settings.secondEnabled then compileOptional scope second else pure none
          let b ← orColor b settings.secondColor
          return some (← build (Build.product a b settings.alphaFrom))) ctx (do
            let w ← (if settings.secondEnabled then
              Source.optionalValue? (textureValue? start o.images o.point) scope second
              else none) <|> settings.secondColor.value?
            return v.product w settings.alphaFrom) := by
      by_cases henabled : settings.secondEnabled = true
      · simp only [henabled, if_true]
        exact Adds.bind (yields_compileOptional h scope second) fun b ctx₁ h₁ hb =>
          yields_product (ha.extends h₁.network) hb settings
      · simp only [henabled]
        exact yields_product ha .none settings
    have hfirst {ctx : Context α} {a : Option NodeId} {v : Option (Rgba α)}
        (h : GoesOn o start ctx) (ha : Option.Rel (ctx.network.HasValue o) a v) : Yields o (do
          let a ← orColor a settings.firstColor
          let b ← if settings.secondEnabled then compileOptional scope second else pure none
          let b ← orColor b settings.secondColor
          return some (← build (Build.product a b settings.alphaFrom))) ctx (do
            let v ← v <|> settings.firstColor.value?
            let w ← (if settings.secondEnabled then
              Source.optionalValue? (textureValue? start o.images o.point) scope second
              else none) <|> settings.secondColor.value?
            return v.product w settings.alphaFrom) := by
      refine (adds_orColor ha settings.firstColor).bind ?_
      rintro a ctx₁ h₁ ⟨v, hv, ha⟩
      rw [hv]
      exact hsecond (h.to h₁) ha
    unfold compileSource Source.value?
    by_cases henabled : settings.firstEnabled = true
    · simp only [henabled, if_true]
      exact Adds.bind (yields_compileOptional h scope first) fun a ctx₁ h₁ ha =>
        hfirst (h.to h₁) ha
    · simp only [henabled]
      exact hfirst h .none
  | tint source columns =>
    exact (yields_compileOptional h scope source).bind fun n v ctx₁ _ hn =>
      yields_some (adds_tint hn columns)
  | composite layers =>
    exact Adds.bind (adds_compileLayers h scope 0 true layers) fun layers ctx₁ _ hlayers =>
      yields_blendLayers scope hlayers
  | correction source params =>
    exact (yields_compileOptional h scope source).bind fun n v ctx₁ h₁ hn =>
      yields_some (adds_correct ((h.to h₁).hasConstants) hn scope params)
  | unsupported className description => exact (adds_warn ctx _).bind fun _ _ _ _ => adds_pure .none
  | unknown className => exact (adds_warn ctx _).bind fun _ _ _ _ => adds_pure .none

theorem yields_compileOptional [Scalar.TellsDivisors α] {ctx : Context α} (h : GoesOn o start ctx)
    (scope : Scope) (source : Option (Source α)) : Yields o (compileOptional scope source) ctx
      (Source.optionalValue? (textureValue? start o.images o.point) scope source) := by
  cases source with
  | some source => exact yields_compileSource h scope source
  | none => exact adds_pure .none

theorem yields_compileLayer [Scalar.TellsDivisors α] {ctx : Context α} (h : GoesOn o start ctx)
    (scope : Scope) (index : Nat) (bottom : Bool) (layer : Layer α) :
    YieldsLayer o (compileLayer scope index bottom layer) ctx
      (layer.value? (textureValue? start o.images o.point) scope bottom) := by
  cases layer with
  | mk source mask settings =>
    unfold compileLayer Layer.value?
    by_cases henabled : settings.enabled = true
    · simp only [henabled]
      refine Adds.bind (yields_compileOptional h scope.inner source) fun n ctx₁ h₁ hn => ?_
      generalize Source.optionalValue? (textureValue? start o.images o.point) scope.inner source =
        v at hn
      cases hn with
      | none =>
        dsimp only
        split
        · exact (adds_warn ctx₁ _).bind fun _ _ _ _ => adds_pure .none
        · exact adds_pure .none
      | some hn =>
        by_cases hmask : settings.maskEnabled = true
        · simp only [hmask, if_true]
          refine Adds.bind (yields_compileOptional (h.to h₁) scope.inner mask)
            fun mask ctx₂ h₂ hmask => ?_
          exact yieldsLayer_weighted ((h.to h₁).to h₂).hasConstants (hn.extends h₂.network) hmask
            scope bottom settings
        · simp only [hmask]
          exact yieldsLayer_weighted (h.to h₁).hasConstants hn .none scope bottom settings
    · simp only [henabled]
      exact (adds_debug ctx _).bind fun _ _ _ _ => adds_pure .none

theorem adds_compileLayers [Scalar.TellsDivisors α] {ctx : Context α} (h : GoesOn o start ctx)
    (scope : Scope) (index : Nat) (bottom : Bool) (layers : List (Layer α)) :
    Adds (compileLayers scope index bottom layers) ctx fun entries net =>
      List.Forall₂ (net.HasLayer o) entries
        (Layer.values (textureValue? start o.images o.point) scope bottom layers) := by
  cases layers with
  | nil => exact adds_pure .nil
  | cons layer layers =>
    refine Adds.bind (yields_compileLayer h scope index bottom layer) fun entry ctx₁ h₁ hentry => ?_
    rw [Layer.values]
    generalize layer.value? (textureValue? start o.images o.point) scope bottom = value at hentry
    cases hentry with
    | none => exact adds_compileLayers (h.to h₁) scope (index + 1) bottom layers
    | some hentry =>
      refine (adds_compileLayers (h.to h₁) scope (index + 1) false layers).bind
        fun entries ctx₂ h₂ hentries => ?_
      exact adds_pure (.cons ⟨hentry.1, hentry.2.extends h₂.network⟩ hentries)

end

end Compile

end ShadeGraph
