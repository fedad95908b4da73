import ShadeGraph.Proofs.Compile.Completion
import ShadeGraph.Proofs.Composite.Layers
import ShadeGraph.Proofs.Meaning.Evaluation

/-!
# Composites of one texture

Below a composite no texture is premultiplied, and the composite premultiplies its blend. A texture
is premultiplied by itself unless its image is so already; as the only layer of a composite it is
premultiplied in any case.
-/

namespace ShadeGraph

variable {α : Type} [Scalar α]

namespace Build

variable {nets : Twins α} {constants constants' : Constants}

/-- A texture is premultiplied behind everything else. -/
theorem textureChannel_eq (constants : Constants) (scope : Scope) (b : TextureBinding α) :
    textureChannel constants scope b = (do
      let n ← textureChannel constants scope.inner b
      if scope.premultiply && !scope.isOpacity && !b.premultiplied.toBool then premultiply n
      else return n) := by
  cases hopacity : scope.isOpacity <;>
    simp [textureChannel, Scope.inner, hopacity]

theorem agree_textureChannel (hone : nets.Alike constants.one constants'.one) (scope : Scope)
    (b : TextureBinding α) :
    Agree (textureChannel constants scope.inner b) (textureChannel constants' scope b) nets
      fun n m later => later.Related (fun _ _ d d' => d' = premultipliedIf
        (scope.premultiply && !scope.isOpacity && !b.premultiplied.toBool) d) n m := by
  rw [textureChannel_eq constants' scope, ← bind_pure (textureChannel constants scope.inner b)]
  refine (mirrors_textureChannel hone scope.inner b).bind fun n m net₁ _ hn => ?_
  refine agree_of_evaluates fun images uv => ?_
  obtain ⟨d, hleft, hright⟩ := hn images uv
  exact ⟨d, _, adds_pure hleft, evaluates_premultiplyIf _ hright, rfl⟩

end Build

namespace Compile

variable {both : TwinSessions α} {scope : Scope}

theorem agree_compileTexture (h : both.Level) (scope : Scope) (b : TextureBinding α) :
    Agree (compileTexture scope.inner b) (compileTexture scope b) both
      fun n m nets => nets.Related (fun _ _ d d' => d' = premultipliedIf
        (scope.premultiply && !scope.isOpacity && !b.premultiplied.toBool) d) n m := by
  refine agree_constants_bind ?_
  refine (agree_build (Build.agree_textureChannel h.one scope b)).bind fun n m both₁ _ hn => ?_
  have hopacity : scope.inner.isOpacity = scope.isOpacity := rfl
  rw [hopacity]
  split
  · exact (agree_debug both₁ _ _).bind fun _ _ _ h₂ _ => agree_pure (hn.extend h₂.extend)
  · exact agree_pure hn

/-- The composite of a single texture, compared with the texture by itself. -/
theorem agree_singleLayer [Scalar.FullShare α] (h : both.Level) (scope : Scope)
    {t : TextureSource α} (hpath : (t.path.getD "").isEmpty = false) {mask : Option (Source α)}
    {settings : LayerSettings α} (hfull : settings.IsFull mask) :
    Agree (compileSource scope (.composite [.mk (some (.texture t)) mask settings]))
      (compileSource scope (.texture t)) both
      fun n m nets => ∃ a b, n = some a ∧ m = some b ∧
        nets.Related (fun _ _ single plain => single = premultipliedIf
          (scope.premultiply && !scope.isOpacity && t.premultiplied.toBool) plain) a b := by
  rw [compileSource, compileSource, compileLayers, compileLayer_full scope 0 hfull,
    compileOptional, compileSource]
  simp only [compileTextureSource, bind_assoc]
  have hkey : scope.inner.key (α := α) = scope.key := rfl
  refine (agree_bindTexture h hkey rfl t).bind ?_
  rintro b _ both₁ h₁ ⟨hb, rfl⟩
  have hbound : binding? both.left scope.inner t = some (bound both.left scope.inner t) := by
    rw [binding?_eq, hpath]
    rfl
  simp only [hb, hbound, compileLayers, bind_assoc, pure_bind]
  refine (agree_compileTexture (h.grow h₁) scope _).bind fun n m both₂ _ hn => ?_
  have hblend : Agree (build (Build.blendChannel scope [(n, .replace)])) (build (pure m)) both₂
      fun n m nets => nets.Related (fun _ _ single plain => single = premultipliedIf
        (scope.premultiply && !scope.isOpacity && t.premultiplied.toBool) plain) n m := by
    refine agree_build (Build.agree_of_evaluates fun images uv => ?_)
    obtain ⟨d, _, hleft, hright, rfl⟩ := hn images uv
    have hlayers : List.Forall₂ (both₂.nets.left.HasLayerOutcome images uv) [(n, .replace)]
        [(.replace, d)] := .cons ⟨rfl, hleft⟩ .nil
    have hsingle := Build.evaluates_blendChannel scope hlayers
    rw [blendOutcomes_single hleft] at hsingle
    refine ⟨_, _, hsingle, Build.adds_pure hright, ?_⟩
    have hflag : (bound both.left scope.inner t).premultiplied = t.premultiplied := rfl
    rw [hflag]
    cases scope.premultiply && !scope.isOpacity <;> cases t.premultiplied.toBool <;> rfl
  exact hblend.bind fun a b _ _ hn => agree_pure ⟨a, b, rfl, rfl, hn⟩

/-- Whether a texture in a channel is multiplied by its alpha twice as the only layer of a
composite: its image is premultiplied, the channel is no opacity, and nothing replaces it. -/
def multipliesTwice (ctx : Context α) (material : String) (d : ChannelDescriptor α)
    (t : TextureSource α) : Bool :=
  !Channel.isOpacity d.name && t.premultiplied.toBool && (d.replacement? ctx material).isNone

theorem agree_compileChannel [Scalar.FullShare α] (h : both.Level) (material : String)
    (d : ChannelDescriptor α) {t : TextureSource α} (hpath : (t.path.getD "").isEmpty = false)
    {mask : Option (Source α)} {settings : LayerSettings α} (hfull : settings.IsFull mask) :
    Agree
      (compileChannel material
        { d with source := some (.composite [.mk (some (.texture t)) mask settings]) })
      (compileChannel material { d with source := some (.texture t) }) both
      fun n m nets => Option.Rel (nets.Related fun _ _ single plain =>
        single = premultipliedIf (multipliesTwice both.left material d t) plain) n m := by
  let scope := Scope.ofChannel material d.name
  refine (agree_resolveOverride h scope d.override).bind ?_
  rintro n m both₁ h₁ ⟨hn, hreplaced⟩
  have hnone : (d.replacement? both.left material).isNone = !n.isSome := by
    rw [hreplaced, Option.not_isSome]
    rfl
  unfold multipliesTwice
  rw [hnone]
  cases hn with
  | some hn =>
    refine agree_pure (.some fun images uv => ?_)
    obtain ⟨outcome, hleft, hright⟩ := hn images uv
    exact ⟨outcome, outcome, hleft, hright, by simp [premultipliedIf]⟩
  | none =>
    refine (agree_singleLayer (h.grow h₁) scope hpath hfull).bind ?_
    rintro _ _ both₂ - ⟨a, b, rfl, rfl, hnodes⟩
    refine agree_pure (.some ?_)
    simpa [scope, Scope.ofChannel] using hnodes

/-- A composite whose only layer is a texture, in use with all of its opacity and without a mask,
evaluates to what the texture does by itself, unless the image of the texture is premultiplied: such
a texture is multiplied by its alpha once more in a channel that is no opacity. -/
theorem compileChannel_singleLayer [Scalar.FullShare α] {ctx : Context α}
    (hconstants : ctx.HasConstants) (material : String) (d : ChannelDescriptor α)
    {t : TextureSource α} (hpath : (t.path.getD "").isEmpty = false) {mask : Option (Source α)}
    {settings : LayerSettings α} (hfull : settings.IsFull mask) :
    Relates (fun _ _ single plain =>
        single = premultipliedIf (multipliesTwice ctx material d t) plain)
      (compileChannel material
        { d with source := some (.composite [.mk (some (.texture t)) mask settings]) })
      (compileChannel material { d with source := some (.texture t) }) ctx :=
  Agree.relates (agree_compileChannel (TwinSessions.level_same hconstants) material d hpath hfull)

/-- A texture whose image is premultiplied. -/
def premultipliedWood : TextureSource Float :=
  { name := "wood", path := some "wood.png", premultiplied := .flag true }

theorem compileChannel_singleLayer_premultiplied :
    fresh.HasConstants ∧ (premultipliedWood.path.getD "").isEmpty = false ∧
    (LayerSettings.plain : LayerSettings Float).IsFull none ∧
    multipliesTwice fresh "floor" { name := "base_color" } premultipliedWood = true ∧
    Relates (fun _ _ single plain => single = premultipliedIf true plain)
      (compileChannel "floor"
        { name := "base_color"
          source := some (.composite [.mk (some (.texture premultipliedWood)) none .plain]) })
      (compileChannel "floor"
        { name := "base_color", source := some (.texture premultipliedWood) }) fresh := by
  have hfull : (LayerSettings.plain : LayerSettings Float).IsFull none := ⟨rfl, .inl rfl, rfl⟩
  have htwice :
      multipliesTwice fresh "floor" { name := "base_color" } premultipliedWood = true := by
    decide +kernel
  have h := compileChannel_singleLayer hasConstants_fresh "floor" { name := "base_color" }
    (t := premultipliedWood) (by decide +kernel) hfull
  rw [htwice] at h
  exact ⟨hasConstants_fresh, by decide +kernel, hfull, htwice, h⟩

end Compile

end ShadeGraph
