import ShadeGraph.Proofs.Meaning.Correction

/-!
# What operators compute

The colors that products, tints, layers and the channels of textures have by their settings, and the
networks that compute these from the colors of their parts.
-/

namespace ShadeGraph

variable {α : Type} [Scalar α]

/-! ### Colors -/

def Shade.value? (shade : Shade α) : Option (Rgba α) := (shade.toRgba 1.0).toOption

/-- The color with its alpha from its source. -/
def AlphaSource.apply (v : Rgba α) : AlphaSource → Rgba α
  | .rgbAverage => v.withAlpha v.average
  | .opaqueAlpha => v.withAlpha 1.0
  | .file => v

/-- The color of a texture in a channel from its sample. -/
def TextureBinding.shade (b : TextureBinding α) (scope : Scope) (s : Rgba α) : Rgba α :=
  if scope.isOpacity then s
  else
    let v := b.alphaSource.apply s
    if scope.premultiply && !b.premultiplied.toBool then v.premultiplied else v

/-- The product of two colors, with the alpha of one of them or of both. -/
def Rgba.product (v w : Rgba α) : ProductAlpha → Rgba α
  | .first => (v.map₂ (· * ·) w).withAlpha v.alpha
  | .second => (v.map₂ (· * ·) w).withAlpha w.alpha
  | .blend => v.map₂ (· * ·) w

/-- The color with each of its colors spread over a column. -/
def TintColumns.value? (columns : TintColumns α) (v : Rgba α) : Option (Rgba α) := do
  let red ← columns.red.value?
  let green ← columns.green.value?
  let blue ← columns.blue.value?
  let out (c : Component) : α := v.red * red.get c + v.green * green.get c + v.blue * blue.get c
  return ⟨out .red, out .green, out .blue, v.alpha⟩

/-- The blend of a layer: the bottom one replaces, and one of an unsupported mode is a normal one. -/
def LayerSettings.blend (settings : LayerSettings α) (bottom : Bool) : BlendType :=
  if bottom then .replace
  else
    match settings.blendMode with
    | .text mode => (BlendType.ofMode? mode).getD .alpha
    | _ => .alpha

/-- The color of a layer, weighted by its mask and its share. -/
def LayerSettings.weighted (settings : LayerSettings α) (v : Rgba α) (mask : Option (Rgba α)) :
    Rgba α :=
  let own :=
    match mask with
    | some m => Scalar.clip 0.0 1.0 m.average * v.alpha
    | none => v.alpha
  v.withAlpha (if Scalar.eq settings.share 1.0 then own else own * settings.share)

/-- One component of a layer on top of `x`. A layer that replaces hides what is below. Any other one
covers as much of it as its alpha, and the blend tells what the color becomes where it is covered. -/
def BlendType.laid (blend : BlendType) (c : Component) (v : Rgba α) (x : α) : α :=
  let y := v.get c
  match blend, c with
  | .replace, _ => y
  | _, .alpha => v.alpha + x * (1.0 - v.alpha)
  | .alpha, _ => x + (y - x) * v.alpha
  | .add, _ => x + y * v.alpha
  | .subtract, _ => x - y * v.alpha
  | .multiply, _ => x * (1.0 + (y - 1.0) * v.alpha)
  | .min, _ => x + (Scalar.minimum x y - x) * v.alpha
  | .max, _ => x + (Scalar.maximum x y - x) * v.alpha

/-- One component of layers on top of nothing, the top one first. -/
def stacked (c : Component) : List (BlendType × Rgba α) → α
  | [] => 0.0
  | (blend, v) :: below => blend.laid c v (stacked c below)

/-- The color of layers in a channel, the bottom one first. -/
def Scope.blended (scope : Scope) (layers : List (BlendType × Rgba α)) : Rgba α :=
  let component (c : Component) : α := stacked c layers.reverse
  let v : Rgba α := ⟨component .red, component .green, component .blue, component .alpha⟩
  if scope.premultiply && !scope.isOpacity then v.premultiplied else v

/-- The color of a composite of these layers, if there are any. -/
def Scope.composite? (scope : Scope) : List (BlendType × Rgba α) → Option (Rgba α)
  | [] => none
  | layers => some (scope.blended layers)

theorem BlendType.laid_get (blend : BlendType) (c : Component) (v w : Rgba α) :
    blend.laid c v (w.get c) = (blend.over w v).get c := by
  cases blend <;> cases c <;> rfl

/-- Blending the layers from the bottom up gives the color of the stack. -/
theorem stacked_reverse (c : Component) (layers : List (BlendType × Rgba α)) :
    stacked c layers.reverse = (blendLayers layers).get c := by
  induction layers using List.reverseRecOn with
  | nil => exact (Rgba.get_replicate _ c).symm
  | append_singleton layers layer ih =>
    have hlast : blendLayers (layers ++ [layer]) = layer.1.over (blendLayers layers) layer.2 := by
      rw [blendLayers, List.foldl_append]
      rfl
    rw [List.reverse_append, List.reverse_singleton, List.singleton_append, stacked, ih,
      BlendType.laid_get, hlast]

theorem Scope.blended_eq (scope : Scope) (layers : List (BlendType × Rgba α)) :
    scope.blended layers =
      if scope.premultiply && !scope.isOpacity then (blendLayers layers).premultiplied
      else blendLayers layers := by
  simp only [blended, stacked_reverse]
  rfl

/-! ### Their networks -/

/-- An alpha for a color: the value of a node, or the one that the color has. -/
inductive HasAlpha (net : Network α) (o : Probe α) (v : Rgba α) : Option NodeId → α → Prop
  | kept : HasAlpha net o v none v.alpha
  | node {a : NodeId} {x : α} (h : net.HasValue o a (.replicate x)) : HasAlpha net o v (some a) x

/-- A layer has this blend, and its node this value. -/
def Network.HasLayer (net : Network α) (o : Probe α) (layer : NodeId × BlendType)
    (value : BlendType × Rgba α) : Prop :=
  layer.2 = value.1 ∧ net.HasValue o layer.1 value.2

namespace Build

variable {net : Network α} {o : Probe α} {constants : Constants} {a b n : NodeId} {v w : Rgba α}

theorem gives_product (ha : net.HasValue o a v) (hb : net.HasValue o b w) (alpha : ProductAlpha) :
    Gives o (product a b alpha) net (v.product w alpha) := by
  refine (gives_multiply ha hb).bind fun n net₁ h₁ hn => ?_
  cases alpha with
  | first => exact gives_replaceAlpha hn (ha.extends h₁)
  | second => exact gives_replaceAlpha hn (hb.extends h₁)
  | blend => exact gives_replaceAlpha hn hn

theorem gives_maskedAlpha [Scalar.TellsDivisors α] {mask : NodeId} {m : Rgba α}
    (hone : net.HasValue o constants.one (.replicate 1.0))
    (hzero : net.HasValue o constants.zero (.replicate 0.0)) (hn : net.HasValue o n v)
    (hmask : net.HasValue o mask m) : Gives o (maskedAlpha constants n mask) net
      (.replicate (Scalar.clip 0.0 1.0 m.average * v.alpha)) := by
  refine (gives_rgbAverage hmask).bind fun average net₁ h₁ haverage => ?_
  refine (gives_clamp haverage (hzero.extends h₁) (hone.extends h₁)).bind
    fun cover net₂ h₂ hcover => ?_
  refine (gives_broadcast ((hn.extends h₁).extends h₂) .alpha).bind fun alpha net₃ h₃ halpha => ?_
  exact gives_multiply (hcover.extends h₃) halpha

theorem adds_sharedAlpha {own : Option NodeId} {x : α} (hn : net.HasValue o n v)
    (hown : HasAlpha net o v own x) (share : α) :
    Adds (sharedAlpha n own share) net fun result later =>
      HasAlpha later o v result (if Scalar.eq share 1.0 then x else x * share) := by
  unfold sharedAlpha
  by_cases hshare : Scalar.eq share 1.0 = true
  · rw [if_pos hshare, if_pos hshare]
    exact adds_pure hown
  · rw [if_neg hshare, if_neg hshare]
    have hproduct (a : NodeId) (net₁ : Network α) (ha : net₁.HasValue o a (.replicate x)) :
        Adds (do return some (← multiply a (← color (.replicate share)))) net₁
          fun result later => HasAlpha later o v result (x * share) :=
      (gives_color o _).bind fun s net₂ h₂ hs => (gives_multiply (ha.extends h₂) hs).bind
        fun product net₃ _ hproduct => adds_pure (.node hproduct)
    cases hown with
    | kept =>
      exact (gives_broadcast hn .alpha).bind fun alpha net₁ _ halpha => hproduct alpha net₁ halpha
    | node ha => exact hproduct _ net ha

theorem gives_sharedLayer {own : Option NodeId} {x : α} (hn : net.HasValue o n v)
    (hown : HasAlpha net o v own x) (share : α) :
    Gives o (do
      match ← sharedAlpha n own share with
      | some alpha => replaceAlpha n alpha
      | none => return n) net (v.withAlpha (if Scalar.eq share 1.0 then x else x * share)) := by
  refine (adds_sharedAlpha hn hown share).bind fun alpha net₁ h₁ halpha => ?_
  have hn₁ := hn.extends h₁
  generalize (if Scalar.eq share 1.0 then x else x * share) = y at halpha ⊢
  cases halpha with
  | kept => exact adds_pure hn₁
  | node halpha => exact gives_replaceAlpha hn₁ halpha

theorem gives_weightedLayer [Scalar.TellsDivisors α] {mask : Option NodeId} {m : Option (Rgba α)}
    (hone : net.HasValue o constants.one (.replicate 1.0))
    (hzero : net.HasValue o constants.zero (.replicate 0.0)) (hn : net.HasValue o n v)
    (hmask : Option.Rel (net.HasValue o) mask m) (settings : LayerSettings α) :
    Gives o (weightedLayer constants n mask settings.share) net (settings.weighted v m) := by
  cases hmask with
  | none => exact gives_sharedLayer hn .kept settings.share
  | some hmask =>
    exact (gives_maskedAlpha hone hzero hn hmask).bind fun a net₁ h₁ ha =>
      gives_sharedLayer (hn.extends h₁) (.node ha) settings.share

theorem gives_blendChannel {layers : List (NodeId × BlendType)}
    {values : List (BlendType × Rgba α)} (scope : Scope)
    (h : List.Forall₂ (net.HasLayer o) layers values) :
    Gives o (blendChannel scope layers) net (scope.blended values) := by
  have hinputs : List.Forall₂ (net.HasValue o) (layers.map (·.1)) (values.map (·.2)) := by
    rw [List.forall₂_map_left_iff, List.forall₂_map_right_iff]
    exact h.imp fun _ _ => And.right
  have hblends : (layers.map (·.2)).zip (values.map (·.2)) = values := by
    clear hinputs
    induction h with
    | nil => rfl
    | cons hfirst _ ih => simp [hfirst.1, ih]
  have hblend : Gives o (layeredBlend layers) net (blendLayers values) := by
    have hvalue : (Operation.layeredBlend (layers.map (·.2))).valueAt o.images o.point
        (values.map (·.2)) = blendLayers ((layers.map (·.2)).zip (values.map (·.2))) := rfl
    rw [hblends] at hvalue
    rw [← hvalue]
    exact gives_node hinputs rfl
  refine hblend.bind fun n net₁ _ hn => ?_
  rw [Scope.blended_eq]
  by_cases hpremultiply : (scope.premultiply && !scope.isOpacity) = true
  · rw [if_pos hpremultiply, if_pos hpremultiply]
    exact gives_premultiply hn
  · rw [if_neg hpremultiply, if_neg hpremultiply]
    exact adds_pure hn

theorem gives_applyAlphaSource [Scalar.TellsDivisors α]
    (hone : net.HasValue o constants.one (.replicate 1.0)) (hn : net.HasValue o n v)
    (source : AlphaSource) : Gives o (applyAlphaSource constants n source) net (source.apply v) := by
  cases source with
  | rgbAverage =>
    exact (gives_rgbAverage hn).bind fun average _ h haverage =>
      gives_replaceAlpha (hn.extends h) haverage
  | opaqueAlpha => exact gives_replaceAlpha hn hone
  | file => exact adds_pure hn

theorem gives_textureChannel [Scalar.TellsDivisors α]
    (hone : net.HasValue o constants.one (.replicate 1.0)) (scope : Scope) (b : TextureBinding α)
    (hkind : o.kind b.toTextureLookup.settled) : Gives o (textureChannel constants scope b) net
      (b.shade scope (b.valueAt o.images o.point)) := by
  have hsettled : b.toTextureLookup.settled.valueAt o.images o.point =
      b.valueAt o.images o.point := rfl
  refine (gives_texture hkind).bind fun n net₁ h₁ hn => ?_
  rw [hsettled] at hn
  unfold TextureBinding.shade
  by_cases hopacity : scope.isOpacity = true
  · rw [if_pos hopacity, if_pos hopacity]
    exact adds_pure hn
  · rw [if_neg hopacity, if_neg hopacity]
    refine (gives_applyAlphaSource (hone.extends h₁) hn b.alphaSource).bind fun m net₂ _ hm => ?_
    dsimp only
    by_cases hpremultiply : (scope.premultiply && !b.premultiplied.toBool) = true
    · rw [if_pos hpremultiply, if_pos hpremultiply]
      exact gives_premultiply hm
    · rw [if_neg hpremultiply, if_neg hpremultiply]
      exact adds_pure hm

end Build

end ShadeGraph
