import ShadeGraph.Proofs.Meaning.Source

/-!
# Which textures a node reads

A node reads the textures at and below it. Every operator reads what its inputs read and nothing
besides, with one exception: a custom rewiring that selects constants alone reads none of what it
rewires.
-/

namespace ShadeGraph

/-- Whether the component comes from what is rewired. -/
def RewireChannel.readsInput : RewireChannel → Bool
  | .one | .zero => false
  | _ => true

/-- Whether anything of what is corrected is left behind the first stage. -/
def Correction.readsInput {α : Type} (params : Correction α) : Bool :=
  match params.rewire with
  | .custom => params.customChannels.any RewireChannel.readsInput
  | _ => true

namespace Network

variable {α : Type} {net later : Network α}

/-- The textures at and below a node, as they are looked up. -/
def texturesBelow (net : Network α) (root : NodeId) : Set (TextureLookup α) :=
  { lookup | ∃ id node, net.Below root id ∧ net.get? id = some node ∧
    node.operation = .texture lookup }

theorem mem_texturesBelow_iff {root : NodeId} {lookup : TextureLookup α} :
    lookup ∈ net.texturesBelow root ↔ ¬ net.All (· ≠ .texture lookup) root := by
  simp only [texturesBelow, All, Set.mem_ofPred_eq, not_forall, ne_eq, not_not, exists_prop]

theorem texturesBelow_of_extends (h : net.Extends later) {id : NodeId} (hid : id < net.size) :
    later.texturesBelow id = net.texturesBelow id := by
  ext lookup
  rw [mem_texturesBelow_iff, mem_texturesBelow_iff, all_iff_of_extends h _ hid]

theorem texturesBelow_of_get? {id : NodeId} {node : Node α} (h : net.get? id = some node)
    (htexture : node.operation.texture? = none) :
    net.texturesBelow id = ⋃ j ∈ node.inputs, net.texturesBelow j := by
  ext lookup
  have hoperation : node.operation ≠ .texture lookup := by
    intro heq
    rw [heq] at htexture
    cases htexture
  simp only [mem_texturesBelow_iff, all_iff h, Set.mem_iUnion, hoperation, ne_eq,
    not_false_eq_true, true_and, not_forall, exists_prop]

/-- The network has this node, and these are the textures it reads. -/
structure Gathers (net : Network α) (n : NodeId) (textures : Set (TextureLookup α)) : Prop where
  lt : n < net.size
  eq : net.texturesBelow n = textures

theorem Gathers.extends {n : NodeId} {T : Set (TextureLookup α)} (h : net.Gathers n T)
    (hlater : net.Extends later) : later.Gathers n T :=
  ⟨hlater.lt_size h.lt, (texturesBelow_of_extends hlater h.lt).trans h.eq⟩

theorem gathers_insert {node : Node α} (htexture : node.operation.texture? = none)
    {sets : List (Set (TextureLookup α))} (h : List.Forall₂ net.Gathers node.inputs sets) :
    (net.insert node).Gathers net.size (sets.foldr (· ∪ ·) ∅) := by
  have hlt : ∀ {ids : List NodeId} {sets}, List.Forall₂ net.Gathers ids sets →
      ∀ j ∈ ids, j < net.size := by
    intro ids sets h
    induction h with
    | nil => exact fun _ hj => nomatch hj
    | cons hfirst _ ih => exact List.forall_mem_cons.mpr ⟨hfirst.lt, ih⟩
  have hunion : ∀ {ids : List NodeId} {sets}, List.Forall₂ net.Gathers ids sets →
      ⋃ j ∈ ids, (net.insert node).texturesBelow j = sets.foldr (· ∪ ·) ∅ := by
    intro ids sets h
    induction h with
    | nil => simp
    | cons hfirst _ ih =>
      simp only [List.mem_cons, Set.iUnion_iUnion_eq_or_left, List.foldr_cons, ih]
      rw [texturesBelow_of_extends (.insert net node) hfirst.lt, hfirst.eq]
  have hnode := net.get?_insert_size (hlt h)
  exact ⟨lt_size_of_get? hnode, (texturesBelow_of_get? hnode htexture).trans (hunion h)⟩

theorem gathers_insert_texture (net : Network α) (lookup : TextureLookup α) (name : String) :
    (net.insert { operation := .texture lookup, inputs := [], name }).Gathers net.size {lookup} := by
  let node : Node α := { operation := .texture lookup, inputs := [], name }
  have hnode : (net.insert node).get? net.size = some node :=
    net.get?_insert_size (by simp [node])
  refine ⟨lt_size_of_get? hnode, ?_⟩
  ext other
  rw [mem_texturesBelow_iff, all_iff hnode]
  simp [node, eq_comm]

theorem HasColor.gathers {n : NodeId} {v : Rgba α} (h : net.HasColor n v) : net.Gathers n ∅ := by
  obtain ⟨name, hnode⟩ := h
  exact ⟨lt_size_of_get? hnode, by rw [texturesBelow_of_get? hnode rfl]; simp⟩

end Network

namespace Build

variable {α : Type} {net : Network α} {a b c n : NodeId} {T U V : Set (TextureLookup α)}

/-- The step adds nodes and returns one that reads these textures. -/
abbrev Gathers (step : Build α NodeId) (net : Network α) (T : Set (TextureLookup α)) : Prop :=
  Adds step net fun n later => later.Gathers n T

/-! ### Single nodes -/

theorem gathers_node {operation : Operation α} (htexture : operation.texture? = none)
    {ids : List NodeId} {sets : List (Set (TextureLookup α))}
    (h : List.Forall₂ net.Gathers ids sets) (hT : sets.foldr (· ∪ ·) ∅ = T) :
    Gathers (node operation ids) net T :=
  ⟨.insert net _, hT ▸ Network.gathers_insert htexture h⟩

theorem gathers_texture (lookup : TextureLookup α) : Gathers (texture lookup) net {lookup} :=
  ⟨.insert net _, net.gathers_insert_texture lookup _⟩

theorem gathers_color (v : Rgba α) : Gathers (color v) net ∅ := gathers_node rfl .nil rfl

theorem gathers_pair {operation : Operation α} (htexture : operation.texture? = none)
    (ha : net.Gathers a T) (hb : net.Gathers b U) :
    Gathers (node operation [a, b]) net (T ∪ U) :=
  gathers_node htexture (.cons ha (.cons hb .nil)) (by simp)

/-- A node and one without textures. -/
theorem gathers_with_plain {operation : Operation α} (htexture : operation.texture? = none)
    (ha : net.Gathers a T) (hb : net.Gathers b ∅) : Gathers (node operation [a, b]) net T :=
  gathers_node htexture (.cons ha (.cons hb .nil)) (by simp)

/-- A node and a color in one, and what follows. -/
theorem gathers_with_color {operation : Operation α} (htexture : operation.texture? = none)
    (ha : net.Gathers a T) {v : Rgba α} {f : NodeId → Build α NodeId}
    (hf : ∀ n later, net.Extends later → later.Gathers n T → Gathers (f n) later U) :
    Gathers (do
      let value ← color v
      let n ← node operation [a, value]
      f n) net U := by
  refine (gathers_color v).bind fun value net₁ h₁ hvalue => ?_
  refine (gathers_with_plain htexture (ha.extends h₁) hvalue).bind fun n net₂ h₂ hn => ?_
  exact hf n net₂ (h₁.trans h₂) hn

/-- A node and one that reads the same. -/
theorem gathers_both {operation : Operation α} (htexture : operation.texture? = none)
    (ha : net.Gathers a T) (hb : net.Gathers b T) : Gathers (node operation [a, b]) net T :=
  gathers_node htexture (.cons ha (.cons hb .nil)) (by simp)

theorem gathers_clamp (ha : net.Gathers a T) (hb : net.Gathers b ∅) (hc : net.Gathers c ∅) :
    Gathers (clamp a b c) net T :=
  gathers_node rfl (.cons ha (.cons hb (.cons hc .nil))) (by simp)

theorem gathers_broadcast (ha : net.Gathers a T) (c : Component) :
    Gathers (broadcast a c) net T :=
  gathers_node rfl (.cons ha (.cons ha (.cons ha (.cons ha .nil)))) (by simp)

theorem gathers_replaceAlpha (ha : net.Gathers a T) (hb : net.Gathers b U) :
    Gathers (replaceAlpha a b) net (T ∪ U) :=
  gathers_node rfl (.cons ha (.cons ha (.cons ha (.cons hb .nil)))) (by simp [← Set.union_assoc])

/-- A node keeps what it reads when its alpha comes from something that reads no more. -/
theorem gathers_replaceAlpha_of_subset (ha : net.Gathers a T) (hb : net.Gathers b U) (h : U ⊆ T) :
    Gathers (replaceAlpha a b) net T := by
  have hboth := gathers_replaceAlpha ha hb
  rwa [Set.union_eq_left.mpr h] at hboth

theorem gathers_premultiply (ha : net.Gathers a T) : Gathers (premultiply a) net T := by
  refine (gathers_broadcast ha .alpha).bind fun alpha net₁ h₁ halpha => ?_
  have ha₁ := ha.extends h₁
  refine (gathers_both rfl ha₁ halpha).bind fun product net₂ h₂ hproduct => ?_
  exact gathers_replaceAlpha_of_subset hproduct (ha₁.extends h₂) (.refl T)

theorem gathers_product (ha : net.Gathers a T) (hb : net.Gathers b U) (alpha : ProductAlpha) :
    Gathers (product a b alpha) net (T ∪ U) := by
  refine (gathers_pair rfl ha hb).bind fun product net₁ h₁ hproduct => ?_
  cases alpha with
  | first => exact gathers_replaceAlpha_of_subset hproduct (ha.extends h₁) Set.subset_union_left
  | second => exact gathers_replaceAlpha_of_subset hproduct (hb.extends h₁) Set.subset_union_right
  | blend => exact gathers_replaceAlpha_of_subset hproduct hproduct (.refl _)

theorem gathers_blendChannel (scope : Scope) {layers : List (NodeId × BlendType)}
    {sets : List (Set (TextureLookup α))}
    (h : List.Forall₂ (fun layer => net.Gathers layer.1) layers sets) :
    Gathers (blendChannel scope layers) net (sets.foldr (· ∪ ·) ∅) := by
  have hblend : Gathers (layeredBlend layers) net (sets.foldr (· ∪ ·) ∅) :=
    gathers_node rfl (List.forall₂_map_left_iff.mpr h) rfl
  refine hblend.bind fun n net₁ _ hn => ?_
  split
  · exact gathers_premultiply hn
  · exact adds_pure hn

/-! ### Operators of several nodes -/

variable [Scalar α]

theorem gathers_rgbAverage (ha : net.Gathers a T) : Gathers (rgbAverage a) net T := by
  refine (gathers_broadcast ha .red).bind fun red net₁ h₁ hred => ?_
  refine (gathers_broadcast (ha.extends h₁) .green).bind fun green net₂ h₂ hgreen => ?_
  refine (gathers_both rfl (hred.extends h₂) hgreen).bind fun sum net₃ h₃ hsum => ?_
  have ha₃ := ((ha.extends h₁).extends h₂).extends h₃
  refine (gathers_broadcast ha₃ .blue).bind fun blue net₄ h₄ hblue => ?_
  refine (gathers_both rfl (hsum.extends h₄) hblue).bind fun total net₅ _ htotal => ?_
  refine (gathers_color (.replicate 3.0)).bind fun three net₆ h₆ hthree => ?_
  exact gathers_with_plain rfl (htotal.extends h₆) hthree

variable {constants : Constants}

theorem gathers_applyAlphaSource (hone : net.Gathers constants.one ∅) (ha : net.Gathers a T)
    (source : AlphaSource) : Gathers (applyAlphaSource constants a source) net T := by
  cases source with
  | rgbAverage =>
    exact (gathers_rgbAverage ha).bind fun average net₁ h₁ haverage =>
      gathers_replaceAlpha_of_subset (ha.extends h₁) haverage (.refl T)
  | opaqueAlpha => exact gathers_replaceAlpha_of_subset ha hone (Set.empty_subset T)
  | file => exact adds_pure ha

theorem gathers_textureChannel (hone : net.Gathers constants.one ∅) (scope : Scope)
    (b : TextureBinding α) :
    Gathers (textureChannel constants scope b) net {b.toTextureLookup.settled} := by
  refine (gathers_texture b.toTextureLookup.settled).bind fun n net₁ h₁ hn => ?_
  split
  · exact adds_pure hn
  · refine (gathers_applyAlphaSource (hone.extends h₁) hn b.alphaSource).bind
      fun m net₂ _ hm => ?_
    split
    · exact gathers_premultiply hm
    · exact adds_pure hm

/-! ### Layers -/

theorem gathers_maskedAlpha (hone : net.Gathers constants.one ∅)
    (hzero : net.Gathers constants.zero ∅) (ha : net.Gathers a T) (hb : net.Gathers b U) :
    Gathers (maskedAlpha constants a b) net (U ∪ T) := by
  refine (gathers_rgbAverage hb).bind fun average net₁ h₁ haverage => ?_
  refine (gathers_clamp haverage (hzero.extends h₁) (hone.extends h₁)).bind
    fun cover net₂ h₂ hcover => ?_
  refine (gathers_broadcast ((ha.extends h₁).extends h₂) .alpha).bind fun alpha net₃ h₃ halpha => ?_
  exact gathers_pair rfl (hcover.extends h₃) halpha

/-- The alpha of a layer; without one, the layer keeps that of its source. -/
theorem gathers_sharedAlpha (ha : net.Gathers a T) {own : Option NodeId}
    (hown : ∀ i ∈ own, net.Gathers i U) (hnone : own = none → U = T) (share : α) :
    Adds (sharedAlpha a own share) net fun alpha later =>
      (∀ i ∈ alpha, later.Gathers i U) ∧ (alpha = none → U = T) := by
  have hshared {net : Network α} {alpha : NodeId} (halpha : net.Gathers alpha U) :
      Adds (do return some (← multiply alpha (← color (.replicate share)))) net
        fun alpha later => (∀ i ∈ alpha, later.Gathers i U) ∧ (alpha = none → U = T) := by
    refine (gathers_color (.replicate share)).bind fun value net₁ h₁ hvalue => ?_
    refine (gathers_with_plain rfl (halpha.extends h₁) hvalue).bind fun product net₂ _ hproduct => ?_
    exact adds_pure ⟨by simpa using hproduct, fun h => nomatch h⟩
  unfold sharedAlpha
  split
  · exact adds_pure ⟨hown, hnone⟩
  · cases own with
    | some alpha => exact hshared (hown alpha rfl)
    | none =>
      rw [hnone rfl] at hshared ⊢
      exact (gathers_broadcast ha .alpha).bind fun alpha _ _ halpha => hshared halpha

theorem gathers_sharedLayer (ha : net.Gathers a T) {own : Option NodeId}
    (hown : ∀ i ∈ own, net.Gathers i U) (hnone : own = none → U = T) (share : α) :
    Gathers (do
      match ← sharedAlpha a own share with
      | some alpha => replaceAlpha a alpha
      | none => return a) net (T ∪ U) := by
  refine (gathers_sharedAlpha ha hown hnone share).bind fun alpha net₁ h₁ halpha => ?_
  cases alpha with
  | some alpha => exact gathers_replaceAlpha (ha.extends h₁) (halpha.1 alpha rfl)
  | none =>
    rw [halpha.2 rfl, Set.union_self]
    exact adds_pure (ha.extends h₁)

theorem gathers_weightedLayer (hone : net.Gathers constants.one ∅)
    (hzero : net.Gathers constants.zero ∅) (ha : net.Gathers a T) {mask : Option NodeId}
    {M : Option (Set (TextureLookup α))} (hmask : Option.Rel net.Gathers mask M) (share : α) :
    Gathers (weightedLayer constants a mask share) net (T ∪ M.getD ∅) := by
  cases hmask with
  | none =>
    have hown : ∀ i ∈ (none : Option NodeId), net.Gathers i T := by simp
    have hlayer := gathers_sharedLayer ha hown (fun _ => rfl) share
    rwa [Set.union_self, ← Set.union_empty T] at hlayer
  | @some b M hb =>
    have hunion : T ∪ M = T ∪ (M ∪ T) := by
      rw [Set.union_comm M T, ← Set.union_assoc, Set.union_self]
    rw [Option.getD_some, hunion]
    unfold weightedLayer
    dsimp only
    rw [map_eq_pure_bind, bind_assoc]
    refine (gathers_maskedAlpha hone hzero ha hb).bind fun own net₁ h₁ hown => ?_
    have hmasked : ∀ i ∈ some own, net₁.Gathers i (M ∪ T) := by simpa using hown
    rw [pure_bind]
    exact gathers_sharedLayer (ha.extends h₁) hmasked (by simp) share

/-! ### Stages of a correction -/

theorem gathers_customRewire (hone : net.Gathers constants.one ∅)
    (hzero : net.Gathers constants.zero ∅) (ha : net.Gathers a T) (channels : Rgba RewireChannel) :
    Gathers (customRewire constants a channels) net
      (if channels.toList.any RewireChannel.readsInput then T else ∅) := by
  have hinverted : Gathers (inverted constants a) net T :=
    gathers_node rfl (.cons hone (.cons ha .nil)) (by simp)
  refine hinverted.bind fun inverse net₁ h₁ hinverse => ?_
  refine (gathers_rgbAverage (ha.extends h₁)).bind fun average net₂ h₂ haverage => ?_
  have hsource (channel : RewireChannel) :
      net₂.Gathers (rewireSource constants a inverse average channel).1
        (if channel.readsInput then T else ∅) := by
    cases channel with
    | direct c => exact (ha.extends h₁).extends h₂
    | inverted c => exact hinverse.extends h₂
    | average => exact haverage
    | one => exact (hone.extends h₁).extends h₂
    | zero => exact (hzero.extends h₁).extends h₂
  refine gathers_node rfl (.cons (hsource channels.red) (.cons (hsource channels.green)
    (.cons (hsource channels.blue) (.cons (hsource channels.alpha) .nil)))) ?_
  have hany : channels.toList.any RewireChannel.readsInput = (channels.red.readsInput ||
      channels.green.readsInput || channels.blue.readsInput || channels.alpha.readsInput) := by
    simp [Rgba.toList, Bool.or_assoc]
  rw [hany]
  cases channels.red.readsInput <;> cases channels.green.readsInput <;>
    cases channels.blue.readsInput <;> cases channels.alpha.readsInput <;> simp

theorem gathers_hslTint (ha : net.Gathers a T) (params : Correction α) :
    Gathers (hslTint a params) net T :=
  (gathers_color _).bind fun _ _ h₁ hcontrol => gathers_with_plain rfl (ha.extends h₁) hcontrol

theorem gathers_simpleLightness (ha : net.Gathers a T) (params : Correction α) :
    Gathers (simpleLightness a params) net T := by
  unfold simpleLightness
  split
  · exact adds_pure ha
  · refine gathers_with_color rfl ha fun centered net₁ h₁ hcentered => ?_
    refine gathers_with_color rfl hcentered fun scaled net₂ h₂ hscaled => ?_
    refine gathers_with_color rfl hscaled fun shifted net₃ h₃ hshifted => ?_
    exact gathers_replaceAlpha_of_subset hshifted (ha.extends (h₁.trans (h₂.trans h₃))) (.refl T)

omit [Scalar α] in
theorem gathers_exposurePass (ha : net.Gathers a T) (mode : ExposureMode)
    (terms : ExposureTerms α) : Gathers (exposurePass a mode terms) net T := by
  refine gathers_with_color rfl ha fun product net₁ h₁ hproduct => ?_
  refine gathers_with_color rfl hproduct fun scaled net₂ h₂ hscaled => ?_
  refine gathers_with_color rfl hscaled fun curved net₃ h₃ hcurved => ?_
  refine gathers_with_color rfl hcurved fun back net₄ h₄ hback => ?_
  refine gathers_with_color rfl hback fun result net₅ h₅ hresult => ?_
  have hgrows := h₁.trans (h₂.trans (h₃.trans (h₄.trans h₅)))
  cases mode with
  | printer => exact adds_pure hresult
  | gain | fstops =>
    exact gathers_replaceAlpha_of_subset hresult (ha.extends hgrows) (.refl T)

end Build

namespace Compile

variable {α : Type} {ctx : Context α} {n : NodeId} {T : Set (TextureLookup α)}

/-- The step adds nodes and returns one that reads these textures. -/
abbrev Gathers (p : Compile α NodeId) (ctx : Context α) (T : Set (TextureLookup α)) : Prop :=
  Adds p ctx fun n net => net.Gathers n T

theorem gathers_build {step : Build α NodeId} (h : Build.Gathers step ctx.network T) :
    Gathers (build step) ctx T := adds_build h

variable [Scalar α]

theorem gathers_color (ctx : Context α) (shade : Shade α) : Gathers (color shade) ctx ∅ := by
  unfold color
  split
  · exact gathers_build (Build.gathers_color _)
  · exact adds_throw _

theorem gathers_orColor {n : Option NodeId} {T : Option (Set (TextureLookup α))}
    (h : Option.Rel ctx.network.Gathers n T) (shade : Shade α) :
    Gathers (orColor n shade) ctx (T.getD ∅) := by
  cases h with
  | some h => exact adds_pure h
  | none => exact gathers_color ctx shade

theorem gathers_compileTexture (hconstants : ctx.HasConstants) (scope : Scope)
    (b : TextureBinding α) :
    Gathers (compileTexture scope b) ctx {b.toTextureLookup.settled} := by
  refine adds_constants_bind ?_
  refine (gathers_build (Build.gathers_textureChannel hconstants.one.gathers scope b)).bind
    fun n ctx₁ _ hn => ?_
  split
  · exact (adds_debug ctx₁ _).bind fun _ _ h₂ _ => adds_pure (hn.extends h₂.network)
  · exact adds_pure hn

theorem gathers_tint (hn : ctx.network.Gathers n T) (columns : TintColumns α) :
    Gathers (tint n columns) ctx T := by
  have hcolumn (c : Component) (shade : Shade α) {later : Context α} (h : ctx.Grows later) :
      Gathers (do
        let share ← build (Build.broadcast n c)
        let value ← color shade
        build (Build.multiply share value)) later T := by
    refine (gathers_build (Build.gathers_broadcast (hn.extends h.network) c)).bind
      fun share ctx₁ h₁ hshare => ?_
    refine (gathers_color ctx₁ shade).bind fun value ctx₂ h₂ hvalue => ?_
    exact gathers_build (Build.gathers_with_plain rfl (hshare.extends h₂.network) hvalue)
  refine (hcolumn .red columns.red (.refl ctx)).bind fun red ctx₁ h₁ hred => ?_
  refine (hcolumn .green columns.green h₁).bind fun green ctx₂ h₂ hgreen => ?_
  refine (hcolumn .blue columns.blue (h₁.trans h₂)).bind fun blue ctx₃ h₃ hblue => ?_
  have hred₃ := (hred.extends h₂.network).extends h₃.network
  have hn₃ := hn.extends ((h₁.trans h₂).trans h₃).network
  refine gathers_build ?_
  refine (Build.gathers_both rfl hred₃ (hgreen.extends h₃.network)).bind
    fun first net₁ k₁ hfirst => ?_
  refine (Build.gathers_both rfl hfirst (hblue.extends k₁)).bind fun sum net₂ k₂ hsum => ?_
  exact Build.gathers_replaceAlpha_of_subset hsum (hn₃.extends (k₁.trans k₂)) (.refl T)

theorem gathers_rewire (hconstants : ctx.HasConstants) (hn : ctx.network.Gathers n T)
    (params : Correction α) :
    Gathers (rewire n params) ctx (if params.readsInput then T else ∅) := by
  have hone := hconstants.one.gathers
  have hzero := hconstants.zero.gathers
  refine adds_constants_bind ?_
  unfold Correction.readsInput
  cases params.rewire with
  | normal => exact adds_pure hn
  | monochrome =>
    exact gathers_build ((Build.gathers_rgbAverage hn).bind fun _ _ h₁ haverage =>
      Build.gathers_replaceAlpha_of_subset haverage (hn.extends h₁) (.refl T))
  | invert =>
    have hinverted : Build.Gathers (Build.inverted ctx.constants n) ctx.network T :=
      Build.gathers_node rfl (.cons hone (.cons hn .nil)) (by simp)
    exact gathers_build (hinverted.bind fun _ _ h₁ hinverse =>
      Build.gathers_replaceAlpha_of_subset hinverse (hn.extends h₁) (.refl T))
  | custom =>
    dsimp only
    split
    · rename_i r g b a hchannels
      rw [hchannels]
      exact gathers_build (Build.gathers_customRewire hone hzero hn ⟨r, g, b, a⟩)
    · exact adds_throw _

theorem gathers_exposureLightness (scope : Scope) (hn : ctx.network.Gathers n T)
    (params : Correction α) : Gathers (exposureLightness scope n params) ctx T := by
  have hpass {n : NodeId} {later : Context α} (hn : later.network.Gathers n T)
      (terms : ExposureTerms α) :
      Gathers (build (Build.exposurePass n params.exposureMode terms)) later T :=
    gathers_build (Build.gathers_exposurePass hn _ _)
  refine (adds_exposureTerm scope _ params.globalExposure).bind fun common ctx₁ h₁ _ => ?_
  refine (hpass (hn.extends h₁.network) _).bind fun result ctx₂ h₂ hresult => ?_
  have hn₂ := hn.extends (h₁.trans h₂).network
  split
  · refine (adds_exposureTerm scope _ params.redExposure).bind fun red ctx₃ h₃ _ => ?_
    refine (adds_exposureTerm scope _ params.greenExposure).bind fun green ctx₄ h₄ _ => ?_
    refine (adds_exposureTerm scope _ params.blueExposure).bind fun blue ctx₅ h₅ _ => ?_
    have hgrows := (h₃.trans (h₄.trans h₅)).network
    refine (hpass (hresult.extends hgrows) _).bind fun single ctx₆ h₆ hsingle => ?_
    have hresult₆ := (hresult.extends hgrows).extends h₆.network
    have hpick (enabled : Bool) :
        ctx₆.network.Gathers (if enabled then single else result) T := by
      cases enabled with
      | true => exact hsingle
      | false => exact hresult₆
    have hn₆ := (hn₂.extends hgrows).extends h₆.network
    exact gathers_build (Build.gathers_node rfl
      (.cons (hpick _) (.cons (hpick _) (.cons (hpick _) (.cons hn₆ .nil)))) (by simp))
  · exact gathers_build (Build.gathers_node rfl
      (.cons hresult (.cons hresult (.cons hresult (.cons hn₂ .nil)))) (by simp))

/-- Behind the first stage, a correction goes on reading what is left. -/
theorem gathers_correct (hconstants : ctx.HasConstants) (scope : Scope)
    (hn : ctx.network.Gathers n T) (params : Correction α) :
    Gathers (correct scope n params) ctx (if params.readsInput then T else ∅) := by
  refine (gathers_rewire hconstants hn params).bind fun rewired ctx₁ h₁ hrewired => ?_
  generalize (if params.readsInput then T else ∅) = S at hrewired ⊢
  refine (gathers_build (Build.gathers_hslTint hrewired params)).bind
    fun tinted ctx₂ h₂ htinted => ?_
  have hlightness : Gathers (lightness scope tinted params) ctx₂ S := by
    unfold lightness
    split
    · exact gathers_exposureLightness scope htinted params
    · exact gathers_build (Build.gathers_simpleLightness htinted params)
  refine hlightness.bind fun result ctx₃ h₃ hresult => adds_constants_bind ?_
  have hlast := (h₁.trans (h₂.trans h₃)).hasConstants hconstants
  exact gathers_build (Build.gathers_clamp hresult hlast.zero.gathers hlast.one.gathers)

omit [Scalar α] in
/-- The blend of layers reads what the layers read; without layers there is none. -/
theorem gathers_blendLayers (scope : Scope) {layers : List (NodeId × BlendType)}
    {sets : List (Set (TextureLookup α))}
    (h : List.Forall₂ (fun layer => ctx.network.Gathers layer.1) layers sets) :
    Adds (blendLayers scope layers) ctx fun n net => Option.Rel net.Gathers n
      (if sets.isEmpty then none else some (sets.foldr (· ∪ ·) ∅)) := by
  unfold blendLayers
  cases h with
  | nil => exact (adds_warn ctx _).bind fun _ _ _ _ => adds_pure .none
  | cons hfirst hrest =>
    exact (gathers_build (Build.gathers_blendChannel scope (.cons hfirst hrest))).bind
      fun n _ _ hn => adds_pure (.some hn)

end Compile

end ShadeGraph
