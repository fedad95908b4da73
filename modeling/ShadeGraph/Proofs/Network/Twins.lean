import ShadeGraph.Channel.Composite
import ShadeGraph.Channel.Correction
import ShadeGraph.Channel.Texture
import ShadeGraph.Proofs.Network.Samples

/-!
# Two networks side by side

Nodes of two networks are alike if evaluating them comes to the same, whatever the images and the
coordinates are. Nodes that are put together from like ones in the same way are alike again, so an
operator mirrors itself wherever its inputs stand.
-/

namespace ShadeGraph

variable {α β γ δ ε : Type}

/-- What evaluating two nodes may come to, with the same images and coordinates. -/
abbrev OutcomeRelation (α : Type) :=
  ImageTable α → UvGrid α → Except EvaluationError (Samples α) →
    Except EvaluationError (Samples α) → Prop

/-- Two networks. -/
structure Twins (α : Type) where
  left : Network α
  right : Network α

namespace Twins

variable {nets later last : Twins α}

/-- Nothing is lost from either network. -/
structure Extend (nets later : Twins α) : Prop where
  left : nets.left.Extends later.left
  right : nets.right.Extends later.right

theorem Extend.refl (nets : Twins α) : nets.Extend nets := ⟨.refl nets.left, .refl nets.right⟩

theorem Extend.trans (h : nets.Extend later) (hlast : later.Extend last) : nets.Extend last :=
  ⟨h.left.trans hlast.left, h.right.trans hlast.right⟩

variable [Scalar α] {a b : NodeId} {images : ImageTable α} {uv : UvGrid α}

/-- Evaluating the one node comes to the same as evaluating the other one. -/
def Alike (nets : Twins α) (a b : NodeId) : Prop :=
  ∀ images uv, ∃ d, nets.left.HasOutcome images uv a d ∧ nets.right.HasOutcome images uv b d

theorem Alike.extend (h : nets.Alike a b) (hlater : nets.Extend later) : later.Alike a b := by
  intro images uv
  obtain ⟨d, ha, hb⟩ := h images uv
  exact ⟨d, ha.extends hlater.left, hb.extends hlater.right⟩

/-- Evaluating the one node and the other one comes to outcomes as told. -/
def Related (r : OutcomeRelation α) (nets : Twins α) (a b : NodeId) : Prop :=
  ∀ images uv, ∃ d d', nets.left.HasOutcome images uv a d ∧
    nets.right.HasOutcome images uv b d' ∧ r images uv d d'

theorem Related.extend {r : OutcomeRelation α} (h : nets.Related r a b)
    (hlater : nets.Extend later) : later.Related r a b := by
  intro images uv
  obtain ⟨d, d', ha, hb, hr⟩ := h images uv
  exact ⟨d, d', ha.extends hlater.left, hb.extends hlater.right, hr⟩

theorem Related.mono {r s : OutcomeRelation α} (h : nets.Related r a b)
    (hrs : ∀ images uv d d', r images uv d d' → s images uv d d') : nets.Related s a b := by
  intro images uv
  obtain ⟨d, d', ha, hb, hr⟩ := h images uv
  exact ⟨d, d', ha, hb, hrs images uv d d' hr⟩

theorem Related.evaluate {r : OutcomeRelation α} (h : nets.Related r a b)
    (images : ImageTable α) (uv : UvGrid α) :
    r images uv (nets.left.evaluate images uv a) (nets.right.evaluate images uv b) := by
  obtain ⟨d, d', ha, hb, hr⟩ := h images uv
  rwa [ha.evaluate, hb.evaluate]

theorem Alike.related (h : nets.Alike a b) : nets.Related (fun _ _ d d' => d = d') a b := by
  intro images uv
  obtain ⟨d, ha, hb⟩ := h images uv
  exact ⟨d, d, ha, hb, rfl⟩

theorem exists_outcomes {ids ids' : List NodeId} (h : List.Forall₂ nets.Alike ids ids')
    (images : ImageTable α) (uv : UvGrid α) :
    ∃ ds, List.Forall₂ (nets.left.HasOutcome images uv) ids ds ∧
      List.Forall₂ (nets.right.HasOutcome images uv) ids' ds := by
  induction h with
  | nil => exact ⟨[], .nil, .nil⟩
  | cons hfirst _ ih =>
    obtain ⟨d, ha, hb⟩ := hfirst images uv
    obtain ⟨ds, hids, hids'⟩ := ih
    exact ⟨d :: ds, .cons ha hids, .cons hb hids'⟩

/-- Two layers with the same blend, whose nodes are alike. -/
def AlikeLayer (nets : Twins α) (layer layer' : NodeId × BlendType) : Prop :=
  layer.2 = layer'.2 ∧ nets.Alike layer.1 layer'.1

theorem exists_layerOutcomes {layers layers' : List (NodeId × BlendType)}
    (h : List.Forall₂ nets.AlikeLayer layers layers') (images : ImageTable α) (uv : UvGrid α) :
    ∃ ds, List.Forall₂ (nets.left.HasLayerOutcome images uv) layers ds ∧
      List.Forall₂ (nets.right.HasLayerOutcome images uv) layers' ds := by
  induction h with
  | nil => exact ⟨[], .nil, .nil⟩
  | @cons layer layer' _ _ hfirst _ ih =>
    obtain ⟨d, ha, hb⟩ := hfirst.2 images uv
    obtain ⟨ds, hlayers, hlayers'⟩ := ih
    exact ⟨(layer.2, d) :: ds, .cons ⟨rfl, ha⟩ hlayers, .cons ⟨hfirst.1.symm, hb⟩ hlayers'⟩

theorem AlikeLayer.extend {layer layer' : NodeId × BlendType} (h : nets.AlikeLayer layer layer')
    (hlater : nets.Extend later) : later.AlikeLayer layer layer' := ⟨h.1, h.2.extend hlater⟩

/-- Layers that come to the same when they are blended. -/
def AlikeBlend (nets : Twins α) (layers layers' : List (NodeId × BlendType)) : Prop :=
  ∀ images uv, ∃ ds ds', List.Forall₂ (nets.left.HasLayerOutcome images uv) layers ds ∧
    List.Forall₂ (nets.right.HasLayerOutcome images uv) layers' ds' ∧
    blendOutcomes uv ds = blendOutcomes uv ds'

theorem alikeBlend_of_forall₂ {layers layers' : List (NodeId × BlendType)}
    (h : List.Forall₂ nets.AlikeLayer layers layers') : nets.AlikeBlend layers layers' := by
  intro images uv
  obtain ⟨ds, hlayers, hlayers'⟩ := exists_layerOutcomes h images uv
  exact ⟨ds, ds, hlayers, hlayers', rfl⟩

end Twins

namespace Build

/-- Both steps only add nodes, and leave results and networks as told. -/
structure Agree (p : Build α β) (q : Build α γ) (nets : Twins α) (R : β → γ → Twins α → Prop) :
    Prop where
  grows : nets.Extend ⟨(p.run nets.left).2, (q.run nets.right).2⟩
  result : R (p.run nets.left).1 (q.run nets.right).1
    ⟨(p.run nets.left).2, (q.run nets.right).2⟩

section

variable {nets : Twins α} {p : Build α β} {q : Build α γ} {R : β → γ → Twins α → Prop}

theorem agree_pure {b : β} {c : γ} (h : R b c nets) : Agree (pure b) (pure c) nets R :=
  ⟨.refl nets, h⟩

theorem Agree.bind {f : β → Build α δ} {g : γ → Build α ε} {S : δ → ε → Twins α → Prop}
    (h : Agree p q nets R)
    (hfg : ∀ b c later, nets.Extend later → R b c later → Agree (f b) (g c) later S) :
    Agree (p >>= f) (q >>= g) nets S := by
  have hlast := hfg _ _ _ h.grows h.result
  exact ⟨h.grows.trans hlast.grows, hlast.result⟩

theorem Agree.mono {S : β → γ → Twins α → Prop} (h : Agree p q nets R)
    (hS : ∀ b c later, R b c later → S b c later) : Agree p q nets S :=
  ⟨h.grows, hS _ _ _ h.result⟩

end

variable [Scalar α] {nets : Twins α} {a a' b b' c c' n n' : NodeId}

theorem agree_of_evaluates {p q : Build α NodeId}
    {r : OutcomeRelation α} (h : ∀ images uv, ∃ d d', Evaluates p nets.left images uv d ∧
      Evaluates q nets.right images uv d' ∧ r images uv d d') :
    Agree p q nets fun a b later => later.Related r a b := by
  obtain ⟨_, _, hp, hq, _⟩ := h [] { lengths := [], points := #[] }
  refine ⟨⟨hp.grows, hq.grows⟩, fun images uv => ?_⟩
  obtain ⟨d, d', hp, hq, hr⟩ := h images uv
  exact ⟨d, d', hp.result, hq.result, hr⟩

/-- Both steps only add nodes, and return like ones. -/
abbrev Mirrors (p q : Build α NodeId) (nets : Twins α) : Prop :=
  Agree p q nets fun a b later => later.Alike a b

/-! ### Single nodes -/

theorem mirrors_named {ids ids' : List NodeId} (h : List.Forall₂ nets.Alike ids ids')
    (operation : Operation α) (name : String) :
    Mirrors (named operation ids name) (named operation ids' name) nets := by
  refine ⟨⟨.insert _ _, .insert _ _⟩, fun images uv => ?_⟩
  obtain ⟨ds, hids, hids'⟩ := Twins.exists_outcomes h images uv
  exact ⟨_, (evaluates_named hids operation name).result,
    (evaluates_named hids' operation name).result⟩

variable (nets) in
theorem mirrors_color (v : Rgba α) : Mirrors (color v) (color v) nets := mirrors_named .nil _ _

variable (nets) in
theorem mirrors_texture (lookup : TextureLookup α) :
    Mirrors (texture lookup) (texture lookup) nets := mirrors_named .nil _ _

theorem mirrors_pair (ha : nets.Alike a a') (hb : nets.Alike b b') (operation : Operation α) :
    Mirrors (node operation [a, b]) (node operation [a', b']) nets :=
  mirrors_named (.cons ha (.cons hb .nil)) _ _

theorem mirrors_clamp (ha : nets.Alike a a') (hb : nets.Alike b b') (hc : nets.Alike c c') :
    Mirrors (clamp a b c) (clamp a' b' c') nets :=
  mirrors_named (.cons ha (.cons hb (.cons hc .nil))) _ _

theorem mirrors_swizzle {sources sources' : Rgba NodeId}
    (h : ∀ c, nets.Alike (sources.get c) (sources'.get c)) (selection : Rgba Component) :
    Mirrors (swizzle sources selection) (swizzle sources' selection) nets :=
  mirrors_named (.cons (h .red) (.cons (h .green) (.cons (h .blue) (.cons (h .alpha) .nil)))) _ _

theorem mirrors_broadcast (ha : nets.Alike a a') (c : Component) :
    Mirrors (broadcast a c) (broadcast a' c) nets :=
  mirrors_swizzle (fun c => by simpa using ha) _

theorem mirrors_replaceAlpha (ha : nets.Alike a a') (hb : nets.Alike b b') :
    Mirrors (replaceAlpha a b) (replaceAlpha a' b') nets := by
  refine mirrors_swizzle (fun c => ?_) _
  cases c with
  | red | green | blue => exact ha
  | alpha => exact hb

/-! ### Operators of several nodes -/

theorem mirrors_rgbAverage (ha : nets.Alike a a') :
    Mirrors (rgbAverage a) (rgbAverage a') nets := by
  refine (mirrors_broadcast ha .red).bind fun red red' net₁ h₁ hred => ?_
  refine (mirrors_broadcast (ha.extend h₁) .green).bind fun green green' net₂ h₂ hgreen => ?_
  refine (mirrors_pair (hred.extend h₂) hgreen .add).bind fun sum sum' net₃ h₃ hsum => ?_
  have ha₃ := ((ha.extend h₁).extend h₂).extend h₃
  refine (mirrors_broadcast ha₃ .blue).bind fun blue blue' net₄ h₄ hblue => ?_
  refine (mirrors_pair (hsum.extend h₄) hblue .add).bind fun total total' net₅ _ htotal => ?_
  refine (mirrors_color net₅ _).bind fun three three' net₆ h₆ hthree => ?_
  exact mirrors_pair (htotal.extend h₆) hthree .divide

theorem mirrors_premultiply (ha : nets.Alike a a') :
    Mirrors (premultiply a) (premultiply a') nets := by
  refine (mirrors_broadcast ha .alpha).bind fun alpha alpha' net₁ h₁ halpha => ?_
  have ha₁ := ha.extend h₁
  refine (mirrors_pair ha₁ halpha .multiply).bind fun product product' net₂ h₂ hproduct => ?_
  exact mirrors_replaceAlpha hproduct (ha₁.extend h₂)

theorem mirrors_product (ha : nets.Alike a a') (hb : nets.Alike b b') (alpha : ProductAlpha) :
    Mirrors (product a b alpha) (product a' b' alpha) nets := by
  refine (mirrors_pair ha hb .multiply).bind fun n n' net₁ h₁ hn => ?_
  cases alpha with
  | first => exact mirrors_replaceAlpha hn (ha.extend h₁)
  | second => exact mirrors_replaceAlpha hn (hb.extend h₁)
  | blend => exact mirrors_replaceAlpha hn hn

/-! ### Layers -/

section

variable {constants constants' : Constants}

theorem mirrors_maskedAlpha {mask mask' : NodeId}
    (hone : nets.Alike constants.one constants'.one)
    (hzero : nets.Alike constants.zero constants'.zero) (hn : nets.Alike n n')
    (hmask : nets.Alike mask mask') :
    Mirrors (maskedAlpha constants n mask) (maskedAlpha constants' n' mask') nets := by
  refine (mirrors_rgbAverage hmask).bind fun average average' net₁ h₁ haverage => ?_
  refine (mirrors_clamp haverage (hzero.extend h₁) (hone.extend h₁)).bind
    fun cover cover' net₂ h₂ hcover => ?_
  refine (mirrors_broadcast ((hn.extend h₁).extend h₂) .alpha).bind
    fun alpha alpha' net₃ h₃ halpha => ?_
  exact mirrors_pair (hcover.extend h₃) halpha .multiply

theorem agree_sharedAlpha {own own' : Option NodeId} (hn : nets.Alike n n')
    (hown : Option.Rel nets.Alike own own') (share : α) :
    Agree (sharedAlpha n own share) (sharedAlpha n' own' share) nets
      fun alpha alpha' later => Option.Rel later.Alike alpha alpha' := by
  unfold sharedAlpha
  split
  · exact agree_pure hown
  · have hproduct (a a' : NodeId) (net₁ : Twins α) (ha : net₁.Alike a a') :
        Agree (do return some (← multiply a (← color (.replicate share))))
          (do return some (← multiply a' (← color (.replicate share)))) net₁
          fun alpha alpha' later => Option.Rel later.Alike alpha alpha' :=
      (mirrors_color net₁ _).bind fun s s' net₂ h₂ hs =>
        (mirrors_pair (ha.extend h₂) hs .multiply).bind fun product product' net₃ _ hproduct =>
          agree_pure (.some hproduct)
    cases hown with
    | none =>
      exact (mirrors_broadcast hn .alpha).bind fun alpha alpha' net₁ _ halpha =>
        hproduct alpha alpha' net₁ halpha
    | some ha => exact hproduct _ _ nets ha

theorem mirrors_sharedLayer {own own' : Option NodeId} (hn : nets.Alike n n')
    (hown : Option.Rel nets.Alike own own') (share : α) :
    Mirrors (do
      match ← sharedAlpha n own share with
      | some alpha => replaceAlpha n alpha
      | none => return n) (do
      match ← sharedAlpha n' own' share with
      | some alpha => replaceAlpha n' alpha
      | none => return n') nets := by
  refine (agree_sharedAlpha hn hown share).bind fun alpha alpha' net₁ h₁ halpha => ?_
  cases halpha with
  | none => exact agree_pure (hn.extend h₁)
  | some halpha => exact mirrors_replaceAlpha (hn.extend h₁) halpha

theorem mirrors_weightedLayer {mask mask' : Option NodeId}
    (hone : nets.Alike constants.one constants'.one)
    (hzero : nets.Alike constants.zero constants'.zero) (hn : nets.Alike n n')
    (hmask : Option.Rel nets.Alike mask mask') (share : α) :
    Mirrors (weightedLayer constants n mask share) (weightedLayer constants' n' mask' share)
      nets := by
  cases hmask with
  | none => exact mirrors_sharedLayer hn .none share
  | some hmask =>
    exact (mirrors_maskedAlpha hone hzero hn hmask).bind fun a a' net₁ h₁ ha =>
      mirrors_sharedLayer (hn.extend h₁) (.some ha) share

theorem mirrors_layeredBlend {layers layers' : List (NodeId × BlendType)}
    (h : nets.AlikeBlend layers layers') :
    Mirrors (layeredBlend layers) (layeredBlend layers') nets := by
  refine ⟨⟨.insert _ _, .insert _ _⟩, fun images uv => ?_⟩
  obtain ⟨ds, ds', hlayers, hlayers', hsame⟩ := h images uv
  have hleft := (evaluates_layeredBlend hlayers).result
  rw [hsame] at hleft
  exact ⟨_, hleft, (evaluates_layeredBlend hlayers').result⟩

theorem mirrors_blendChannel (scope : Scope) {layers layers' : List (NodeId × BlendType)}
    (h : nets.AlikeBlend layers layers') :
    Mirrors (blendChannel scope layers) (blendChannel scope layers') nets := by
  refine (mirrors_layeredBlend h).bind fun n n' net₁ _ hn => ?_
  split
  · exact mirrors_premultiply hn
  · exact agree_pure hn

/-! ### Textures -/

theorem mirrors_applyAlphaSource (hone : nets.Alike constants.one constants'.one)
    (hn : nets.Alike n n') (source : AlphaSource) :
    Mirrors (applyAlphaSource constants n source) (applyAlphaSource constants' n' source)
      nets := by
  cases source with
  | rgbAverage =>
    exact (mirrors_rgbAverage hn).bind fun average average' _ h haverage =>
      mirrors_replaceAlpha (hn.extend h) haverage
  | opaqueAlpha => exact mirrors_replaceAlpha hn hone
  | file => exact agree_pure hn

theorem mirrors_textureChannel (hone : nets.Alike constants.one constants'.one) (scope : Scope)
    (b : TextureBinding α) :
    Mirrors (textureChannel constants scope b) (textureChannel constants' scope b) nets := by
  refine (mirrors_texture nets _).bind fun n n' net₁ h₁ hn => ?_
  split
  · exact agree_pure hn
  · refine (mirrors_applyAlphaSource (hone.extend h₁) hn _).bind fun m m' net₂ _ hm => ?_
    split
    · exact mirrors_premultiply hm
    · exact agree_pure hm

/-! ### Corrections -/

theorem mirrors_customRewire (hone : nets.Alike constants.one constants'.one)
    (hzero : nets.Alike constants.zero constants'.zero) (hn : nets.Alike n n')
    (channels : Rgba RewireChannel) :
    Mirrors (customRewire constants n channels) (customRewire constants' n' channels) nets := by
  refine (mirrors_pair hone hn .subtract).bind fun inverse inverse' net₁ h₁ hinverse => ?_
  refine (mirrors_rgbAverage (hn.extend h₁)).bind fun average average' net₂ h₂ haverage => ?_
  have h₁₂ := h₁.trans h₂
  have hsource (channel : RewireChannel) :
      (rewireSource constants n inverse average channel).2 =
        (rewireSource constants' n' inverse' average' channel).2 ∧
      net₂.Alike (rewireSource constants n inverse average channel).1
        (rewireSource constants' n' inverse' average' channel).1 := by
    cases channel with
    | direct c => exact ⟨rfl, hn.extend h₁₂⟩
    | inverted c => exact ⟨rfl, hinverse.extend h₂⟩
    | average => exact ⟨rfl, haverage⟩
    | one => exact ⟨rfl, hone.extend h₁₂⟩
    | zero => exact ⟨rfl, hzero.extend h₁₂⟩
  have hselection : (channels.map (rewireSource constants n inverse average)).map (·.2) =
      (channels.map (rewireSource constants' n' inverse' average')).map (·.2) :=
    Rgba.ext_get fun c => by simpa using (hsource (channels.get c)).1
  dsimp only
  rw [hselection]
  exact mirrors_swizzle (fun c => by simpa using (hsource (channels.get c)).2) _

theorem mirrors_hslTint (hn : nets.Alike n n') (p : Correction α) :
    Mirrors (hslTint n p) (hslTint n' p) nets :=
  (mirrors_color nets _).bind fun _ _ _ h hcontrol =>
    mirrors_pair (hn.extend h) hcontrol .colorCorrection

/-- An operation on a node and a flat color, and what is built behind it. -/
theorem agree_flat {f : NodeId → Build α β} {g : NodeId → Build α γ} {R : β → γ → Twins α → Prop}
    (hn : nets.Alike n n') (operation : Operation α) (v : Rgba α)
    (hfg : ∀ m m' later, nets.Extend later → later.Alike m m' → Agree (f m) (g m') later R) :
    Agree (do f (← node operation [n, ← color v])) (do g (← node operation [n', ← color v])) nets
      R := by
  refine (mirrors_color nets v).bind fun c c' net₁ h₁ hc => ?_
  refine (mirrors_pair (hn.extend h₁) hc operation).bind fun m m' net₂ h₂ hm => ?_
  exact hfg m m' net₂ (h₁.trans h₂) hm

theorem mirrors_simpleLightness (hn : nets.Alike n n') (p : Correction α) :
    Mirrors (simpleLightness n p) (simpleLightness n' p) nets := by
  unfold simpleLightness
  split
  · exact agree_pure hn
  · refine agree_flat hn _ _ fun centered centered' net₁ h₁ hcentered => ?_
    refine agree_flat hcentered _ _ fun scaled scaled' net₂ h₂ hscaled => ?_
    refine agree_flat hscaled _ _ fun shifted shifted' net₃ h₃ hshifted => ?_
    exact mirrors_replaceAlpha hshifted (hn.extend ((h₁.trans h₂).trans h₃))

theorem mirrors_exposurePass (hn : nets.Alike n n') (mode : ExposureMode) (t : ExposureTerms α) :
    Mirrors (exposurePass n mode t) (exposurePass n' mode t) nets := by
  refine agree_flat hn _ _ fun product product' net₁ h₁ hproduct => ?_
  refine agree_flat hproduct _ _ fun scaled scaled' net₂ h₂ hscaled => ?_
  refine agree_flat hscaled _ _ fun curved curved' net₃ h₃ hcurved => ?_
  refine agree_flat hcurved _ _ fun scaled scaled' net₄ h₄ hscaled => ?_
  refine agree_flat hscaled _ _ fun result result' net₅ h₅ hresult => ?_
  cases mode with
  | printer => exact agree_pure hresult
  | gain | fstops =>
    exact mirrors_replaceAlpha hresult (hn.extend ((h₁.trans h₂).trans ((h₃.trans h₄).trans h₅)))

end

end Build

end ShadeGraph
