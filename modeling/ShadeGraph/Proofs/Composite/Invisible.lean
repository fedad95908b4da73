import ShadeGraph.Proofs.Composite.Shown

/-!
# Layers that cannot be seen

A layer has no alpha where its opacity, its mask or its source has none. In exact arithmetic such a
layer adds nothing to what lies below it, whatever its blend is, so a composite evaluates to the
same with it and without it. It must lie above a usable layer: the bottom one replaces.
-/

namespace ShadeGraph

variable {α : Type} [Scalar.Exact α]

/-! ### Blending without alpha -/

theorem BlendType.over_of_alpha_eq_zero {blend : BlendType} (hblend : blend ≠ .replace)
    (below : Rgba α) {layer : Rgba α} (h : layer.alpha = 0) : blend.over below layer = below := by
  cases blend <;> simp_all [BlendType.over, BlendType.component]

theorem blendOutcomes_hidden {uv : UvGrid α} {blend : BlendType} {values : Samples α}
    (hblend : blend ≠ .replace) (halpha : ∀ i < uv.points.size, (values.valueAt i).alpha = 0)
    (below above : List (BlendType × Except EvaluationError (Samples α))) :
    blendOutcomes uv (below ++ (blend, .ok values) :: above) =
      blendOutcomes uv (below ++ above) := by
  unfold blendOutcomes
  rw [List.mapM_append, List.mapM_append, List.mapM_cons]
  cases below.mapM fun layer => (layer.1, ·) <$> layer.2 with
  | error e => rfl
  | ok inputs =>
    cases above.mapM fun layer => (layer.1, ·) <$> layer.2 with
    | error e => rfl
    | ok rest =>
      refine congrArg Except.ok (congrArg Array.ofFn (funext fun i => ?_))
      simp [blendLayers, BlendType.over_of_alpha_eq_zero hblend _ (halpha i i.2)]

theorem BlendType.ofMode?_getD_ne_replace (mode : String) :
    (BlendType.ofMode? mode).getD .alpha ≠ .replace := by
  unfold BlendType.ofMode?
  split <;> simp

theorem LayerSettings.blend_ne_replace {α : Type} (settings : LayerSettings α) :
    settings.blend false ≠ .replace := by
  unfold LayerSettings.blend
  split
  · contradiction
  · split
    · exact BlendType.ofMode?_getD_ne_replace _
    · simp

/-! ### Hidden layers -/

namespace Layer

open Compile

/-- At every point the layer has no opacity, or its mask is black, or its source has no alpha. -/
def Hidden (ctx : Context α) (scope : Scope) (images : ImageTable α) (uv : UvGrid α) :
    Layer α → Prop
  | .mk source mask settings => ∀ i < uv.points.size, settings.opacity ≤ 0 ∨
    (settings.maskEnabled = true ∧ ∃ values, Shows ctx scope.inner mask images uv values ∧
      (values.valueAt i).average ≤ 0) ∨
    ∃ values, Shows ctx scope.inner source images uv values ∧ (values.valueAt i).alpha = 0

theorem alpha_eq_zero_of_hidden {ctx : Context α} {scope : Scope} {images : ImageTable α}
    {uv : UvGrid α} {layer : Layer α} {bottom : Bool} {value : BlendType × Rgba α}
    (hconstants : ctx.HasConstants) (h : layer.Hidden ctx scope images uv) {i : Nat}
    (hi : i < uv.points.size)
    (hvalue : layer.value? (textureValue? ctx images uv.points[i]) scope bottom = some value) :
    value.2.alpha = 0 := by
  cases layer with
  | mk source mask settings =>
    obtain ⟨v, hv, rfl⟩ := exists_of_value? hvalue
    rw [LayerSettings.weighted_alpha]
    rcases h i hi with hopacity | ⟨henabled, values, hshows, haverage⟩ | ⟨values, hshows, halpha⟩
    · have hshare : settings.share = 0 := by simp [LayerSettings.share_exact, hopacity]
      rw [hshare, mul_zero]
    · rw [if_pos henabled, hshows.value? hconstants hi]
      simp [maskCover, haverage]
    · obtain rfl := Option.some.inj (hv.symm.trans (hshows.value? hconstants hi))
      rw [halpha, mul_zero, zero_mul]

end Layer

namespace Compile

/-- What is known about the entry of a layer over others. -/
structure IsOver (start : Context α) (scope : Scope) (layer : Layer α) (net : Network α)
    (entry : NodeId × BlendType) : Prop where
  lt : entry.1 < net.size
  blend : entry.2 ≠ .replace
  /-- Where the layer is hidden, its node has no alpha. -/
  alpha : ∀ images uv values, net.plainValues images uv entry.1 = .ok values →
    layer.Hidden start scope images uv → ∀ i < uv.points.size, (values.valueAt i).alpha = 0
  /-- The node has values where the parts of the layer have. -/
  values : ∀ images uv, layer.Evaluable start scope images uv →
    uv.lengths.length < Tensor.pairingLimit →
    ∃ values, net.plainValues images uv entry.1 = .ok values

variable {start ctx : Context α} {scope : Scope} {layer : Layer α}

theorem IsOver.extends {net later : Network α} {entry : NodeId × BlendType}
    (h : IsOver start scope layer net entry) (hlater : net.Extends later) :
    IsOver start scope layer later entry where
  lt := hlater.lt_size h.lt
  blend := h.blend
  alpha images uv := by
    simpa only [Network.plainValues_of_extends hlater h.lt] using h.alpha images uv
  values images uv := by
    simpa only [Network.plainValues_of_extends hlater h.lt] using h.values images uv

theorem adds_isOver (hconstants : start.HasConstants) (hgrows : start.Grows ctx) (scope : Scope)
    (index : Nat) (layer : Layer α) :
    Adds (compileLayer scope index false layer) ctx fun entry net => ∀ e, entry = some e →
      IsOver start scope layer net e := by
  have hyields (o : Probe α) (hall : ∀ lookup, o.kind lookup) :=
    yields_compileLayer ⟨hconstants, hgrows, hall⟩ scope index false layer
  have hsome := hyields ⟨[], ⟨0.0, 0.0⟩, fun _ => True⟩ fun _ => trivial
  refine ⟨fun hrun => ⟨(hsome.ok hrun).1, ?_⟩, fun _ => trivial⟩
  rintro ⟨n, blend⟩ rfl
  have hvalue (images : ImageTable α) (p : Uv α) :=
    exists_of_rel_some ((hyields ⟨images, p, fun _ => True⟩ fun _ => trivial).ok hrun).2
  obtain ⟨value, hfirst, hlayer⟩ := hvalue [] ⟨0.0, 0.0⟩
  refine ⟨hlayer.2.lt, ?_, ?_, ?_⟩
  · rw [hlayer.1]
    cases layer
    obtain ⟨_, _, rfl⟩ := Layer.exists_of_value? hfirst
    exact LayerSettings.blend_ne_replace _
  · intro images uv values hvalues hhidden i hi
    obtain ⟨-, rfl⟩ := (Network.plainValues_eq_ok_iff hlayer.2.lt values).mp hvalues
    obtain ⟨value, hvalue, hentry⟩ := hvalue images uv.points[i]
    have halpha := Layer.alpha_eq_zero_of_hidden hconstants hhidden hi hvalue
    rw [← hentry.2.eq] at halpha
    simpa [Samples.valueAt, hi] using halpha
  · intro images uv hevaluable hdims
    have hadds := adds_evaluableLayer hconstants hgrows hevaluable index false ⟨0.0, 0.0⟩
    obtain ⟨-, _, hentry⟩ := hadds.ok hrun
    obtain ⟨_, -, hentry⟩ := exists_of_rel_some hentry
    have hvalues := hentry.2.reads.evaluate hentry.2.lt hdims
    rw [Network.evaluate_eq_plainValues] at hvalues
    exact ⟨_, hvalues⟩

/-- What the blends with and without a layer over others come to. -/
def HiddenRelation (start : Context α) (scope : Scope) (layer : Layer α) : OutcomeRelation α :=
  fun images uv withLayer without =>
    layer.Hidden start scope images uv →
      (∀ values, withLayer = .ok values → without = .ok values) ∧
      (layer.Evaluable start scope images uv → uv.lengths.length < Tensor.pairingLimit →
        withLayer = without)

/-- A layer that is not usable leaves nothing to blend. -/
theorem agree_blendSkipped {nets : Twins α} {layers layers' : List (NodeId × BlendType)}
    (hlayers : List.Forall₂ nets.AlikeLayer layers layers') :
    Build.Agree (Build.blendChannel scope layers) (Build.blendChannel scope layers') nets
      fun n m later => later.Related (HiddenRelation start scope layer) n m := by
  refine (Build.mirrors_blendChannel scope (Twins.alikeBlend_of_forall₂ hlayers)).mono
    fun n m later hn => hn.related.mono ?_
  rintro images uv d _ rfl -
  exact ⟨fun _ => id, fun _ _ => rfl⟩

theorem agree_blendHidden {nets : Twins α} {below below' above above' : List (NodeId × BlendType)}
    {entry : NodeId × BlendType} (hbelow : List.Forall₂ nets.AlikeLayer below below')
    (habove : List.Forall₂ nets.AlikeLayer above above')
    (hentry : IsOver start scope layer nets.left entry) :
    Build.Agree (Build.blendChannel scope (below ++ entry :: above))
      (Build.blendChannel scope (below' ++ above')) nets
      fun n m later => later.Related (HiddenRelation start scope layer) n m := by
  refine Build.agree_of_evaluates fun images uv => ?_
  obtain ⟨ds, hbelow, hbelow'⟩ := Twins.exists_layerOutcomes hbelow images uv
  obtain ⟨rs, habove, habove'⟩ := Twins.exists_layerOutcomes habove images uv
  let d := nets.left.plainValues images uv entry.1
  have hlayer : nets.left.HasLayerOutcome images uv entry (entry.2, d) := ⟨rfl, hentry.lt, rfl⟩
  refine ⟨_, _, Build.evaluates_blendChannel scope (List.rel_append hbelow (.cons hlayer habove)),
    Build.evaluates_blendChannel scope (List.rel_append hbelow' habove'), fun hhidden => ?_⟩
  have hsame (values : Samples α) (hd : d = .ok values) :
      blendOutcomes uv (ds ++ (entry.2, d) :: rs) = blendOutcomes uv (ds ++ rs) := by
    rw [hd]
    exact blendOutcomes_hidden hentry.blend (hentry.alpha images uv values hd hhidden) ds rs
  constructor
  · intro values hvalues
    obtain ⟨_, hblend⟩ := exists_ok_of_premultipliedIf hvalues
    obtain ⟨_, hd⟩ := exists_ok_of_blendOutcomes uv hblend (entry.2, d) (by simp)
    rwa [hsame _ hd] at hvalues
  · intro hevaluable hdims
    obtain ⟨values, hd⟩ := hentry.values images uv hevaluable hdims
    rw [hsame values hd]

theorem agree_someBlend {both : TwinSessions α} {r : OutcomeRelation α}
    {layers layers' : List (NodeId × BlendType)} (hempty : layers.isEmpty = false)
    (hempty' : layers'.isEmpty = false)
    (h : Build.Agree (Build.blendChannel scope layers) (Build.blendChannel scope layers') both.nets
      fun n m later => later.Related r n m) :
    Agree (blendLayers scope layers) (blendLayers scope layers') both fun n m nets =>
      ∃ a b, n = some a ∧ m = some b ∧ nets.Related r a b := by
  rw [blendLayers_eq scope hempty, blendLayers_eq scope hempty']
  exact (agree_build h).bind fun a b _ _ hn => agree_pure ⟨a, b, rfl, rfl, hn⟩

/-- The composite with a layer over usable ones, followed by the composite without it. -/
theorem follows_hiddenLayer (hconstants : start.HasConstants) (scope : Scope)
    {below above : List (Layer α)} (husable : ∃ lower ∈ below, lower.Usable start scope) :
    Follows (compileSource scope (.composite (below ++ layer :: above)))
      (compileSource scope (.composite (below ++ above))) ⟨start, start⟩ fun n m nets =>
        ∃ a b, n = some a ∧ m = some b ∧
          nets.Related (HiddenRelation start scope layer) a b := by
  rw [compileSource, compileSource, compileLayers_append, compileLayers_append]
  simp only [bind_assoc, pure_bind]
  have hlevel := TwinSessions.level_same hconstants
  have hscope : scope.inner = scope.inner := rfl
  have hfirst := mirrors_compileLayers hlevel hscope 0 0 true below
  have hstart := goesOn_start hconstants [] ⟨0.0, 0.0⟩
  refine (hfirst.and_left (adds_usableLayers hstart scope 0 true husable)).follows.bind ?_
  rintro lower lower' both₁ h₁ ⟨hlower, hne⟩
  have hempty : lower.isEmpty = false := List.isEmpty_eq_false_iff.mpr hne
  have hempty' : lower'.isEmpty = false := (isEmpty_eq_of_forall₂ hlower).symm.trans hempty
  have hne' := List.isEmpty_eq_false_iff.mp hempty'
  rw [hempty, hempty', compileLayers, bind_assoc]
  refine Follows.left_bind (adds_isOver hconstants h₁.left scope _ layer) ?_
  intro entry ctx h₂ hentry
  have hgrow : both₁.Grow ⟨ctx, both₁.right⟩ := ⟨h₂, .refl _⟩
  have hrest := mirrors_compileLayers (hlevel.grow (h₁.trans hgrow)) hscope
    (0 + below.length + 1) (0 + below.length) false above
  cases entry with
  | none =>
    refine (hrest.bind fun rest rest' both₂ h₃ hrest => ?_).follows
    have hlayers := List.rel_append
      (hlower.imp fun _ _ h => h.extend (hgrow.trans h₃).extend) hrest
    exact agree_someBlend (by simp [hne]) (by simp [hne']) (agree_blendSkipped hlayers)
  | some entry =>
    simp only [bind_assoc, pure_bind]
    refine (hrest.bind fun rest rest' both₂ h₃ hrest => ?_).follows
    refine agree_someBlend (by simp [hne]) (by simp [hne']) ?_
    exact agree_blendHidden (hlower.imp fun _ _ h => h.extend (hgrow.trans h₃).extend) hrest
      ((hentry entry rfl).extends h₃.extend.left)

/-- A hidden layer over a usable one is without effect. Where the composite with it has values, the
composite without it has the same ones, and both evaluate alike if the parts of the layer have
values as well. -/
theorem compileSource_hiddenLayer {ctx later : Context α}
    (hconstants : ctx.HasConstants) (scope : Scope) {below above : List (Layer α)}
    {layer : Layer α} (husable : ∃ lower ∈ below, lower.Usable ctx scope) {n : Option NodeId}
    (hrun : (compileSource scope (.composite (below ++ layer :: above))).run.run ctx =
      (.ok n, later)) :
    ∃ a b later', n = some a ∧
      (compileSource scope (.composite (below ++ above))).run.run ctx = (.ok (some b), later') ∧
      ∀ (images : ImageTable α) (uv : UvGrid α), layer.Hidden ctx scope images uv →
        (∀ values, later.network.evaluate images uv a = .ok values →
          later'.network.evaluate images uv b = .ok values) ∧
        (layer.Evaluable ctx scope images uv → uv.lengths.length < Tensor.pairingLimit →
          later.network.evaluate images uv a = later'.network.evaluate images uv b) := by
  obtain ⟨_, later', hrun', _, a, b, rfl, rfl, hnodes⟩ :=
    (follows_hiddenLayer hconstants scope husable).ok hrun
  exact ⟨a, b, later', rfl, hrun', hnodes.evaluate⟩

/-- A gray below a black mask, in a mode that is not supported. -/
def blackened : Layer ℚ :=
  .mk (some (.color (.gray 0.5))) (some (.color (.gray 0.0)))
    { LayerSettings.plain with blendMode := .text "glow" }

theorem hidden_blackened (images : ImageTable ℚ) (uv : UvGrid ℚ) :
    blackened.Hidden exactFresh floorScope images uv := by
  intro i hi
  refine .inr (.inl ⟨rfl, _, shows_color rfl exactFresh floorScope.inner images uv, ?_⟩)
  simp [Samples.valueAt, hi, Rgba.average]

theorem evaluable_blackened (images : ImageTable ℚ) (uv : UvGrid ℚ) :
    blackened.Evaluable exactFresh floorScope images uv := fun _ =>
  ⟨(shows_color rfl exactFresh floorScope.inner images uv).evaluable,
    fun _ => (shows_color rfl exactFresh floorScope.inner images uv).evaluable⟩

theorem compileSource_hiddenLayer_blackened :
    ∃ later later', exactFresh.HasConstants ∧
      (∃ lower ∈ [exactWood], lower.Usable exactFresh floorScope) ∧
      (compileSource floorScope (.composite ([exactWood] ++ [blackened]))).run.run exactFresh =
        (.ok (some 19), later) ∧
      (compileSource floorScope (.composite [exactWood])).run.run exactFresh =
        (.ok (some 6), later') ∧
      ∀ (images : ImageTable ℚ) (uv : UvGrid ℚ), uv.lengths.length < Tensor.pairingLimit →
        later.network.evaluate images uv 19 = later'.network.evaluate images uv 6 := by
  have hfirst : ((compileSource floorScope (.composite ([exactWood] ++ [blackened]))).run.run
      exactFresh).1 = .ok (some 19) := by decide +kernel
  have hwithout : ((compileSource floorScope (.composite [exactWood])).run.run exactFresh).1 =
      .ok (some 6) := by decide +kernel
  obtain ⟨later, hrun, -⟩ := exists_run_of_fst hfirst
  obtain ⟨later', hrun', -⟩ := exists_run_of_fst hwithout
  have husable : ∃ lower ∈ [exactWood], lower.Usable exactFresh floorScope :=
    ⟨exactWood, by simp, usable_exactWood⟩
  refine ⟨later, later', hasConstants_exactFresh, husable, hrun, hrun', fun images uv hdims => ?_⟩
  obtain ⟨a, b, _, ha, hb, hsame⟩ :=
    compileSource_hiddenLayer hasConstants_exactFresh floorScope husable hrun
  cases ha
  cases hrun'.symm.trans hb
  exact (hsame images uv (hidden_blackened images uv)).2 (evaluable_blackened images uv) hdims

end Compile

end ShadeGraph
