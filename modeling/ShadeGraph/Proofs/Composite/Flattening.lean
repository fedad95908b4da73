import ShadeGraph.Proofs.Composite.Layers
import ShadeGraph.Proofs.Meaning.Evaluation

/-!
# Nested composites

A composite at the bottom of another one, in use with all of its opacity and without a mask, may be
replaced by its layers. The inner composite is a blend of its own that replaces and is not
premultiplied; without usable layers it is skipped, and the first usable layer above it replaces.
-/

namespace ShadeGraph.Compile

variable {α : Type} [Scalar α]

/-- A replacing layer that is the blend of these layers; there is none if these are none. -/
inductive IsBlend (nets : Twins α) :
    Option (NodeId × BlendType) → List (NodeId × BlendType) → Prop
  | none : IsBlend nets none []
  | some {n : NodeId} {entries : List (NodeId × BlendType)} (hne : entries ≠ [])
      (h : ∀ images uv, ∃ ds, nets.left.HasOutcome images uv n (blendOutcomes uv ds) ∧
        List.Forall₂ (nets.right.HasLayerOutcome images uv) entries ds) :
      IsBlend nets (some (n, .replace)) entries

variable {both : TwinSessions α}

/-- The bottom layer is the blend of the layers of its composite. -/
theorem agree_nestedBottom [Scalar.FullShare α] (h : both.Level) (scope : Scope)
    (below : List (Layer α)) {mask : Option (Source α)} {settings : LayerSettings α}
    (hfull : settings.IsFull mask) :
    Agree (compileLayer scope 0 true (.mk (some (.composite below)) mask settings))
      (compileLayers scope 0 true below) both
      fun entry entries nets => IsBlend nets entry entries := by
  rw [compileLayer_full scope 0 hfull, compileOptional, compileSource, bind_assoc,
    ← bind_pure (compileLayers scope 0 true below)]
  have hscope : scope.inner.inner = scope.inner := rfl
  refine (mirrors_compileLayers h hscope 0 0 true below).bind
    fun inner entries both₁ _ hentries => ?_
  cases hempty : inner.isEmpty with
  | true =>
    obtain rfl := List.isEmpty_iff.mp hempty
    cases hentries
    have hkeeps := keeps_blendLayers scope.inner [] both₁.left
    refine .left_bind rfl ⟨hkeeps, .refl _⟩ ?_
    refine .left_bind rfl ⟨keeps_warn _ _, .refl _⟩ ?_
    exact agree_pure .none
  | false =>
    have hempty' := (isEmpty_eq_of_forall₂ hentries).symm.trans hempty
    have hblend : Build.blendChannel (α := α) scope.inner inner = Build.layeredBlend inner := rfl
    rw [blendLayers_eq scope.inner hempty, hblend, bind_assoc]
    have hkeeps := keeps_build (Build.layeredBlend inner) both₁.left
    refine .left_bind rfl ⟨hkeeps, .insert _ _⟩ ?_
    refine agree_pure (.some (List.isEmpty_eq_false_iff.mp hempty') fun images uv => ?_)
    obtain ⟨ds, hinner, hentries⟩ := Twins.exists_layerOutcomes hentries images uv
    exact ⟨ds, (Build.evaluates_layeredBlend hinner).result, hentries⟩

/-- The layers of the nested composite and those of the flat one come to the same blend. -/
theorem agree_nestedLayers [Scalar.FullShare α] (h : both.Level) (scope : Scope)
    (below above : List (Layer α)) {mask : Option (Source α)} {settings : LayerSettings α}
    (hfull : settings.IsFull mask) :
    Agree (compileLayers scope 0 true (.mk (some (.composite below)) mask settings :: above))
      (compileLayers scope 0 true (below ++ above)) both
      fun entries entries' nets =>
        entries.isEmpty = entries'.isEmpty ∧ nets.AlikeBlend entries entries' := by
  rw [compileLayers, compileLayers_append]
  refine (agree_nestedBottom h scope below hfull).bind fun entry entries both₁ h₁ hentry => ?_
  have habove (index index' : Nat) (bottom : Bool) :=
    mirrors_compileLayers (h.grow h₁) (rfl : scope.inner = scope.inner) index index' bottom above
  cases hentry with
  | none =>
    rw [← bind_pure (compileLayers scope (0 + 1) true above)]
    refine (habove _ _ true).bind fun rest rest' both₂ _ hrest => ?_
    exact agree_pure ⟨isEmpty_eq_of_forall₂ hrest, Twins.alikeBlend_of_forall₂ hrest⟩
  | @some n _ hne hblend =>
    rw [List.isEmpty_eq_false_iff.mpr hne]
    refine (habove _ _ false).bind fun rest rest' both₂ h₂ hrest => ?_
    refine agree_pure ⟨by simp [hne], fun images uv => ?_⟩
    obtain ⟨ds, hn, hentries⟩ := hblend images uv
    obtain ⟨rs, hleft, hright⟩ := Twins.exists_layerOutcomes hrest images uv
    refine ⟨(.replace, blendOutcomes uv ds) :: rs, ds ++ rs, ?_, ?_, blendOutcomes_nested uv ds rs⟩
    · exact .cons ⟨rfl, hn.extends h₂.extend.left⟩ hleft
    · exact List.rel_append (hentries.imp fun _ _ h => h.extends h₂.extend.right) hright

/-- A composite whose bottom layer is a composite, in use with all of its opacity and without a
mask, is the composite of the layers of both. -/
theorem compileSource_nestedComposite [Scalar.FullShare α] {ctx : Context α}
    (hconstants : ctx.HasConstants) (scope : Scope) (below above : List (Layer α))
    {mask : Option (Source α)} {settings : LayerSettings α} (hfull : settings.IsFull mask) :
    Relates (fun _ _ nested flat => nested = flat)
      (compileSource scope (.composite (.mk (some (.composite below)) mask settings :: above)))
      (compileSource scope (.composite (below ++ above))) ctx := by
  refine MirrorsOption.relates ?_
  rw [compileSource, compileSource]
  refine (agree_nestedLayers (TwinSessions.level_same hconstants) scope below above hfull).bind ?_
  rintro entries entries' both₁ - ⟨hempty, hblend⟩
  exact mirrors_blendLayers scope hempty hblend

/-- A disabled layer, then a texture and a masked gray that is multiplied. -/
def woodLayers : List (Layer Float) :=
  [.mk (some (.color (.gray 0.75))) none { LayerSettings.plain with enabled := false },
    .mk (some (.texture { name := "wood", path := some "wood.png" })) none .plain,
    .mk (some (.color (.gray 0.5))) (some (.color (.gray 0.25)))
      { LayerSettings.plain with blendMode := .text "Multiply" }]

/-- A gray at half its opacity, in a mode that is not supported. -/
def grayLayers : List (Layer Float) :=
  [.mk (some (.color (.gray 0.125))) none { opacity := 50.0, blendMode := .text "glow" }]

theorem compileSource_nestedComposite_wood :
    fresh.HasConstants ∧ (LayerSettings.plain : LayerSettings Float).IsFull none ∧
    ((compileSource floorScope (.composite
      (.mk (some (.composite woodLayers)) none .plain :: grayLayers))).run.run fresh).1 =
        .ok (some 25) ∧
    Relates (fun _ _ nested flat => nested = flat)
      (compileSource floorScope (.composite
        (.mk (some (.composite woodLayers)) none .plain :: grayLayers)))
      (compileSource floorScope (.composite (woodLayers ++ grayLayers))) fresh := by
  have hfull : (LayerSettings.plain : LayerSettings Float).IsFull none := ⟨rfl, .inl rfl, rfl⟩
  refine ⟨hasConstants_fresh, hfull, by decide +kernel, ?_⟩
  exact compileSource_nestedComposite hasConstants_fresh floorScope woodLayers grayLayers hfull

end ShadeGraph.Compile
