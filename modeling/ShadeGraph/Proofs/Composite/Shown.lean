import ShadeGraph.Proofs.Composite.Layers
import ShadeGraph.Proofs.Meaning.Evaluation

/-!
# What layers show

The source and the mask of a layer show the same in every composite as when they are compiled by
themselves, and a layer is usable in a composite exactly if its source is compiled to a node.
-/

namespace ShadeGraph

variable {α : Type} [Scalar α]

namespace Compile

/-- Compiled by itself, a source is a node that evaluates to these values. -/
def Shows (ctx : Context α) (scope : Scope) (source : Option (Source α)) (images : ImageTable α)
    (uv : UvGrid α) (values : Samples α) : Prop :=
  ∃ n later, (compileOptional scope source).run.run ctx = (.ok (some n), later) ∧
    later.network.evaluate images uv n = .ok values

variable {ctx later : Context α} {scope : Scope}

theorem goesOn_start (hconstants : ctx.HasConstants) (images : ImageTable α) (p : Uv α) :
    GoesOn ⟨images, p, fun _ => True⟩ ctx ctx := ⟨hconstants, .refl ctx, fun _ => trivial⟩

/-- A node that a step gives evaluates to the values that the step yields at the points. -/
theorem map_some_of_yields {p : Compile α (Option NodeId)} {images : ImageTable α}
    {value : Uv α → Option (Rgba α)} {n : NodeId} {uv : UvGrid α} {values : Samples α}
    (hyields : ∀ q, Yields ⟨images, q, fun _ => True⟩ p ctx (value q))
    (hrun : p.run.run ctx = (.ok (some n), later))
    (hvalues : later.network.evaluate images uv n = .ok values) :
    values.map some = uv.points.map value := by
  have hvalue (q : Uv α) : n < later.network.size ∧
      value q = some (later.network.valueAt images q n) := by
    obtain ⟨v, hv, hn⟩ := exists_of_rel_some ((hyields q).ok hrun).2
    exact ⟨hn.lt, hv.trans (congrArg some hn.eq.symm)⟩
  obtain ⟨-, rfl⟩ := (Network.evaluate_eq_ok_iff (hvalue ⟨0.0, 0.0⟩).1 values).mp hvalues
  simp [hvalue]

/-- What a source shows are the colors of its tree. -/
theorem Shows.map_some [Scalar.TellsDivisors α] {source : Option (Source α)}
    {images : ImageTable α} {uv : UvGrid α} {values : Samples α} (hconstants : ctx.HasConstants)
    (h : Shows ctx scope source images uv values) : values.map some =
      uv.points.map fun p => Source.optionalValue? (textureValue? ctx images p) scope source := by
  obtain ⟨n, later, hrun, hvalues⟩ := h
  have hyields (p : Uv α) := yields_compileOptional (goesOn_start hconstants images p) scope source
  exact map_some_of_yields hyields hrun hvalues

theorem Shows.exists_value? [Scalar.TellsDivisors α] {source : Option (Source α)}
    {images : ImageTable α} {uv : UvGrid α} {values : Samples α} (hconstants : ctx.HasConstants)
    (h : Shows ctx scope source images uv values) {p : Uv α} (hp : p ∈ uv.points) :
    ∃ v ∈ values,
      Source.optionalValue? (textureValue? ctx images p) scope source = some v := by
  have hmem : Source.optionalValue? (textureValue? ctx images p) scope source ∈
      values.map some := by
    rw [h.map_some hconstants]
    exact Array.mem_map.mpr ⟨p, hp, rfl⟩
  obtain ⟨v, hv, hvalue⟩ := Array.mem_map.mp hmem
  exact ⟨v, hv, hvalue.symm⟩

theorem Shows.value? [Scalar.TellsDivisors α] {source : Option (Source α)}
    {images : ImageTable α} {uv : UvGrid α} {values : Samples α} (hconstants : ctx.HasConstants)
    (h : Shows ctx scope source images uv values) {i : Nat} (hi : i < uv.points.size) :
    Source.optionalValue? (textureValue? ctx images uv.points[i]) scope source =
      some (values.valueAt i) := by
  have hmap := h.map_some hconstants
  have hsize : values.size = uv.points.size := by simpa using congrArg Array.size hmap
  have hvalue := congrArg (·[i]?) hmap
  simp only [Array.getElem?_map, Array.getElem?_eq_getElem hi,
    Array.getElem?_eq_getElem (hsize ▸ hi), Option.map_some, Option.some.injEq] at hvalue
  simp [← hvalue, Samples.valueAt, hsize, hi]

/-- A color shows itself at every point. -/
theorem shows_color {shade : Shade α} {v : Rgba α} (h : shade.toRgba 1.0 = .ok v)
    (ctx : Context α) (scope : Scope) (images : ImageTable α) (uv : UvGrid α) :
    Shows ctx scope (some (.color shade)) images uv
      (Array.ofFn fun _ : Fin uv.points.size => v) := by
  have hcolor : (color shade : Compile α NodeId) = build (Build.color v) := by rw [color, h]
  refine ⟨ctx.network.size, ((build (Build.color v)).run.run ctx).2, ?_, ?_⟩
  · rw [compileOptional, compileSource, hcolor]
    rfl
  · exact (Build.evaluates_named .nil (.color v) "").result.evaluate

/-- A source has values with these images and coordinates, if it is compiled to a node at all. -/
def Evaluable (ctx : Context α) (scope : Scope) (source : Option (Source α))
    (images : ImageTable α) (uv : UvGrid α) : Prop :=
  ∀ n later, (compileOptional scope source).run.run ctx = (.ok (some n), later) →
    ∃ values, later.network.evaluate images uv n = .ok values

theorem Shows.evaluable {ctx : Context α} {scope : Scope} {source : Option (Source α)}
    {images : ImageTable α} {uv : UvGrid α} {values : Samples α}
    (h : Shows ctx scope source images uv values) : Evaluable ctx scope source images uv := by
  rintro n later hn
  obtain ⟨m, last, hm, hvalues⟩ := h
  cases hm.symm.trans hn
  exact ⟨values, hvalues⟩

/-- A source that is compiled in a later session is compiled by itself, to a node that is alike. -/
theorem ends_compileOptional (hconstants : ctx.HasConstants) (h : ctx.Grows later)
    (source : Option (Source α)) :
    Ends (compileOptional scope source) later (fun n last => ∃ n' ctx',
      (compileOptional scope source).run.run ctx = (.ok n', ctx') ∧
        Option.Rel (Twins.Alike ⟨last.network, ctx'.network⟩) n n') fun _ => True := by
  have hlevel := TwinSessions.level_of_grows hconstants h
  refine (mirrors_compileOptional hlevel scope source).follows.mono ?_ fun _ => id
  rintro n last ⟨n', ctx', hrun, -, hn⟩
  exact ⟨n', ctx', hrun, hn⟩

end Compile

namespace Layer

open Compile

/-- A layer in use whose source is compiled to a node. -/
def Usable (ctx : Context α) (scope : Scope) : Layer α → Prop
  | .mk source _ settings => settings.enabled = true ∧
    ∃ n later, (compileOptional scope.inner source).run.run ctx = (.ok (some n), later)

/-- If the layer is in use, its source has values if it is compiled, and so does the mask in use. -/
def Evaluable (ctx : Context α) (scope : Scope) (images : ImageTable α) (uv : UvGrid α) :
    Layer α → Prop
  | .mk source mask settings => settings.enabled = true →
    Compile.Evaluable ctx scope.inner source images uv ∧
      (settings.maskEnabled = true → Compile.Evaluable ctx scope.inner mask images uv)

variable {ctx : Context α} {scope : Scope}

theorem value?_eq {texture : Scope → TextureSource α → Option (Rgba α)} (bottom : Bool)
    (source mask : Option (Source α)) (settings : LayerSettings α) :
    (Layer.mk source mask settings).value? texture scope bottom =
      if settings.enabled then
        (Source.optionalValue? texture scope.inner source).map fun v =>
          (settings.blend bottom, settings.weighted v
            (if settings.maskEnabled then Source.optionalValue? texture scope.inner mask else none))
      else none := by
  cases henabled : settings.enabled <;>
    cases hsource : Source.optionalValue? texture scope.inner source <;>
      simp [Layer.value?, henabled, hsource]

theorem Usable.isSome_value? [Scalar.TellsDivisors α] {layer : Layer α}
    (hconstants : ctx.HasConstants) (h : layer.Usable ctx scope) (images : ImageTable α) (p : Uv α)
    (bottom : Bool) : (layer.value? (textureValue? ctx images p) scope bottom).isSome = true := by
  cases layer with
  | mk source mask settings =>
    obtain ⟨henabled, n, later, hrun⟩ := h
    have hstart := goesOn_start hconstants images p
    obtain ⟨v, hv, -⟩ :=
      exists_of_rel_some ((yields_compileOptional hstart scope.inner source).ok hrun).2
    simp [value?_eq, henabled, hv]

theorem exists_of_value? {texture : Scope → TextureSource α → Option (Rgba α)} {bottom : Bool}
    {source mask : Option (Source α)} {settings : LayerSettings α} {value : BlendType × Rgba α}
    (h : (Layer.mk source mask settings).value? texture scope bottom = some value) :
    ∃ v, Source.optionalValue? texture scope.inner source = some v ∧
      value = (settings.blend bottom, settings.weighted v
        (if settings.maskEnabled then Source.optionalValue? texture scope.inner mask
        else none)) := by
  rw [value?_eq] at h
  split at h
  · obtain ⟨v, hv, rfl⟩ := Option.map_eq_some_iff.mp h
    exact ⟨v, hv, rfl⟩
  · cases h

theorem isSome_value?_eq {texture : Scope → TextureSource α → Option (Rgba α)} (layer : Layer α)
    (b b' : Bool) :
    (layer.value? texture scope b).isSome = (layer.value? texture scope b').isSome := by
  cases layer with
  | mk source mask settings =>
    rw [value?_eq, value?_eq]
    split <;> simp

theorem values_ne_nil {texture : Scope → TextureSource α → Option (Rgba α)} {bottom : Bool}
    {layers : List (Layer α)}
    (h : ∃ layer ∈ layers, ∀ bottom, (layer.value? texture scope bottom).isSome = true) :
    Layer.values texture scope bottom layers ≠ [] := by
  induction layers with
  | nil => simp at h
  | cons layer layers ih =>
    rw [Layer.values]
    cases hvalue : layer.value? texture scope bottom with
    | some value => simp
    | none =>
      refine ih ?_
      obtain ⟨other, hother, hsome⟩ := h
      rcases List.mem_cons.mp hother with rfl | hmem
      · have := hsome bottom
        simp [hvalue] at this
      · exact ⟨other, hmem, hsome⟩

end Layer

namespace Compile

variable {o : Probe α} {start ctx : Context α}

/-- Above a usable layer there is a layer to blend with. -/
theorem adds_usableLayers [Scalar.TellsDivisors α] (h : GoesOn o start ctx) (scope : Scope)
    (index : Nat) (bottom : Bool) {layers : List (Layer α)}
    (husable : ∃ layer ∈ layers, layer.Usable start scope) :
    Adds (compileLayers scope index bottom layers) ctx fun entries _ => entries ≠ [] := by
  refine (adds_compileLayers h scope index bottom layers).mono fun entries net hentries => ?_
  obtain ⟨layer, hmem, husable⟩ := husable
  have hvalues : Layer.values (textureValue? start o.images o.point) scope bottom layers ≠ [] :=
    Layer.values_ne_nil ⟨layer, hmem, husable.isSome_value? h.constants o.images o.point⟩
  rintro rfl
  exact hvalues (List.isEmpty_iff.mp (isEmpty_eq_of_forall₂ hentries).symm)

theorem ends_usableLayer (h : GoesOn o start ctx) (scope : Scope) (index : Nat) (bottom : Bool)
    (layer : Layer α) :
    Ends (compileLayer scope index bottom layer) ctx
      (fun entry _ => entry.isSome = true → layer.Usable start scope) fun _ => True := by
  cases layer with
  | mk source mask settings =>
    unfold compileLayer
    by_cases henabled : settings.enabled = true
    · simp only [henabled]
      refine (ends_compileOptional h.constants h.grows source).bind ?_
      rintro n last ⟨n', ctx', hrun, hn⟩
      cases hn with
      | none =>
        dsimp only
        split
        · exact (ends_trivial _ _).bind fun _ _ _ => ends_pure (by simp)
        · exact ends_pure (by simp)
      | some hn =>
        exact (ends_trivial _ _).mono (fun _ _ _ _ => ⟨henabled, _, ctx', hrun⟩) fun _ => id
    · simp only [henabled]
      exact (ends_trivial _ _).bind fun _ _ _ => ends_pure (by simp)

/-- Every layer that has a color in a compiled list of layers is usable. -/
theorem ends_usableLayers [Scalar.TellsDivisors α] (h : GoesOn o start ctx) (scope : Scope)
    (index : Nat) (bottom : Bool) (layers : List (Layer α)) :
    Ends (compileLayers scope index bottom layers) ctx
      (fun _ _ => ∀ layer ∈ layers, ∀ b,
        (layer.value? (textureValue? start o.images o.point) scope b).isSome = true →
          layer.Usable start scope) fun _ => True := by
  induction layers generalizing ctx index bottom with
  | nil => exact ends_pure (by simp)
  | cons layer layers ih =>
    have hlayer := (yields_compileLayer h scope index bottom layer).and
      (ends_usableLayer h scope index bottom layer)
    refine Ends.bind (hlayer.mono (fun _ _ => id) fun _ _ => trivial) ?_
    rintro entry ctx₁ ⟨⟨h₁, hvalue⟩, husable⟩
    have hfirst (b : Bool)
        (hsome : (layer.value? (textureValue? start o.images o.point) scope b).isSome = true) :
        layer.Usable start scope := by
      rw [layer.isSome_value?_eq b bottom, ← isSome_eq_of_rel hvalue] at hsome
      exact husable hsome
    cases entry with
    | none =>
      exact (ih (h.to h₁) (index + 1) bottom).mono
        (fun _ _ hrest => List.forall_mem_cons.mpr ⟨hfirst, hrest⟩) fun _ => id
    | some entry =>
      exact (ih (h.to h₁) (index + 1) false).bind fun _ _ hrest =>
        ends_pure (List.forall_mem_cons.mpr ⟨hfirst, hrest⟩)

theorem ends_usableComposite [Scalar.TellsDivisors α] (h : GoesOn o start ctx) (scope : Scope)
    (layers : List (Layer α)) :
    Ends (compileSource scope (.composite layers)) ctx
      (fun _ _ => ∀ layer ∈ layers, ∀ b,
        (layer.value? (textureValue? start o.images o.point) scope b).isSome = true →
          layer.Usable start scope) fun _ => True := by
  rw [compileSource]
  exact (ends_usableLayers h scope 0 true layers).bind fun _ _ husable =>
    (ends_trivial _ _).mono (fun _ _ _ => husable) fun _ => id

/-- Nodes that are compiled from what can be evaluated have all their images. -/
theorem adds_evaluable (hconstants : start.HasConstants) (hgrows : start.Grows ctx) {scope : Scope}
    {source : Option (Source α)} {images : ImageTable α} {uv : UvGrid α}
    (h : Evaluable start scope source images uv) (p : Uv α) :
    Adds (compileOptional scope source) ctx fun n net => ∃ v,
      Option.Rel (net.HasValue ⟨images, p, (·.HasImage images)⟩) n v := by
  have hlevel := TwinSessions.level_of_grows hconstants hgrows
  refine (mirrors_compileOptional hlevel scope source).follows.mono ?_ fun _ => id
  rintro n last ⟨n', ctx', hrun, hgrow, hn⟩
  refine ⟨hgrow.left, ?_⟩
  cases hn with
  | none => exact ⟨none, .none⟩
  | @some n m hn =>
    obtain ⟨values, hvalues⟩ := h m ctx' hrun
    obtain ⟨d, hleft, hright⟩ := hn images uv
    obtain rfl := hright.evaluate.symm.trans hvalues
    obtain ⟨hall, -⟩ := (Network.plainValues_eq_ok_iff hleft.lt values).mp hleft.eq
    exact ⟨some _, .some ⟨hleft.lt, rfl, hall.reads⟩⟩

/-- The node of a layer whose parts have values has all its images. -/
theorem adds_evaluableLayer [Scalar.TellsDivisors α] (hconstants : start.HasConstants)
    (hgrows : start.Grows ctx) {scope : Scope} {layer : Layer α} {images : ImageTable α}
    {uv : UvGrid α} (h : layer.Evaluable start scope images uv) (index : Nat) (bottom : Bool)
    (p : Uv α) :
    Adds (compileLayer scope index bottom layer) ctx fun entry net => ∃ value,
      Option.Rel (net.HasLayer ⟨images, p, (·.HasImage images)⟩) entry value := by
  cases layer with
  | mk source mask settings =>
    unfold compileLayer
    by_cases henabled : settings.enabled = true
    · obtain ⟨hsource, hmasked⟩ := h henabled
      simp only [henabled]
      refine Adds.bind (adds_evaluable hconstants hgrows hsource p) ?_
      rintro n ctx₁ h₁ ⟨v, hn⟩
      cases hn with
      | none =>
        dsimp only
        split
        · exact (adds_warn ctx₁ _).bind fun _ _ _ _ => adds_pure ⟨none, .none⟩
        · exact adds_pure ⟨none, .none⟩
      | some hn =>
        by_cases hmask : settings.maskEnabled = true
        · simp only [hmask, if_true]
          refine Adds.bind (adds_evaluable hconstants (hgrows.trans h₁) (hmasked hmask) p) ?_
          rintro mask ctx₂ h₂ ⟨m, hmask⟩
          have hconstants₂ := ((hgrows.trans h₁).trans h₂).hasConstants hconstants
          exact (yieldsLayer_weighted hconstants₂ (hn.extends h₂.network) hmask scope bottom
            settings).mono fun _ _ hentry => ⟨_, hentry⟩
        · simp only [hmask]
          exact (yieldsLayer_weighted ((hgrows.trans h₁).hasConstants hconstants) hn .none scope
            bottom settings).mono fun _ _ hentry => ⟨_, hentry⟩
    · simp only [henabled]
      exact (adds_debug ctx _).bind fun _ _ _ _ => adds_pure ⟨none, .none⟩

theorem adds_evaluableLayers [Scalar.TellsDivisors α] (hconstants : start.HasConstants)
    (hgrows : start.Grows ctx) {scope : Scope} {layers : List (Layer α)} {images : ImageTable α}
    {uv : UvGrid α} (h : ∀ layer ∈ layers, layer.Evaluable start scope images uv) (index : Nat)
    (bottom : Bool) (p : Uv α) :
    Adds (compileLayers scope index bottom layers) ctx fun entries net => ∃ values,
      List.Forall₂ (net.HasLayer ⟨images, p, (·.HasImage images)⟩) entries values := by
  induction layers generalizing ctx index bottom with
  | nil => exact adds_pure ⟨[], .nil⟩
  | cons layer layers ih =>
    obtain ⟨hlayer, hlayers⟩ := List.forall_mem_cons.mp h
    refine Adds.bind (adds_evaluableLayer hconstants hgrows hlayer index bottom p) ?_
    rintro entry ctx₁ h₁ ⟨value, hentry⟩
    cases hentry with
    | none => exact ih (hgrows.trans h₁) hlayers (index + 1) bottom
    | some hentry =>
      refine (ih (hgrows.trans h₁) hlayers (index + 1) false).bind ?_
      rintro entries ctx₂ h₂ ⟨values, hentries⟩
      exact adds_pure ⟨_, .cons ⟨hentry.1, hentry.2.extends h₂.network⟩ hentries⟩

/-- A composite of layers whose parts have values has values itself. -/
theorem exists_values_of_evaluable [Scalar.TellsDivisors α] {later : Context α}
    (hconstants : start.HasConstants) {scope : Scope} {layers : List (Layer α)} {root : NodeId}
    (hrun : (compileSource scope (.composite layers)).run.run start = (.ok (some root), later))
    {images : ImageTable α} {uv : UvGrid α}
    (h : ∀ layer ∈ layers, layer.Evaluable start scope images uv)
    (hdims : uv.lengths.length < Tensor.pairingLimit) :
    ∃ values, later.network.evaluate images uv root = .ok values := by
  have hadds : Adds (compileSource scope (.composite layers)) start fun n net => ∃ v,
      Option.Rel (net.HasValue ⟨images, ⟨0.0, 0.0⟩, (·.HasImage images)⟩) n v := by
    rw [compileSource]
    refine (adds_evaluableLayers hconstants (.refl start) h 0 true ⟨0.0, 0.0⟩).bind ?_
    rintro entries ctx₁ h₁ ⟨values, hentries⟩
    exact (yields_blendLayers scope hentries).mono fun _ _ hn => ⟨_, hn⟩
  obtain ⟨-, _, hn⟩ := hadds.ok hrun
  obtain ⟨_, -, hvalue⟩ := exists_of_rel_some hn
  exact ⟨_, hvalue.reads.evaluate hvalue.lt hdims⟩

/-! ### An exact session -/

/-- A session over rational numbers at its start. -/
def exactFresh : Context ℚ := Context.start .standard .none {} ∅

theorem hasConstants_exactFresh : exactFresh.HasConstants := Context.hasConstants_start _ _ _ _

/-- A texture by itself. -/
def exactWood : Layer ℚ :=
  .mk (some (.texture { name := "wood", path := some "wood.png" })) none .plain

theorem usable_exactWood : exactWood.Usable exactFresh floorScope := by
  have hfirst : ((compileOptional floorScope.inner (some (.texture
      { name := "wood", path := some "wood.png" }))).run.run exactFresh).1 = .ok (some 2) := by
    decide +kernel
  obtain ⟨later, hrun, -⟩ := exists_run_of_fst hfirst
  exact ⟨rfl, 2, later, hrun⟩

end Compile

end ShadeGraph
