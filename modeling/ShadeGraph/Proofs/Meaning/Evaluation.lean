import ShadeGraph.Proofs.Meaning.Source

/-!
# Evaluating compiled sources

The network of a source evaluates to the color of its tree at every point, and that of a correction to
the color after all its stages.
-/

namespace ShadeGraph

variable {α : Type} [Scalar α]

/-- All textures of a network have their images. -/
def Network.hasImages (net : Network α) (images : ImageTable α) : Bool :=
  net.nodes.all fun node => node.operation.texture?.all fun lookup => (lookup.image images).isOk

theorem Network.reads_of_hasImages {net : Network α} {images : ImageTable α}
    (h : net.hasImages images = true) (root : NodeId) : net.Reads (·.HasImage images) root := by
  intro id node _ hnode lookup hlookup
  have hmem : node ∈ net.nodes := Array.mem_of_getElem? hnode
  have himage := Array.all_eq_true_iff_forall_mem.mp h node hmem
  rw [hlookup] at himage
  unfold TextureLookup.HasImage
  cases hrun : lookup.image images with
  | ok image => exact ⟨image, rfl⟩
  | error e => simp [hrun, Except.isOk, Except.toBool] at himage

theorem isSome_eq_of_rel {β γ : Type} {r : β → γ → Prop} {b : Option β} {c : Option γ}
    (h : Option.Rel r b c) : b.isSome = c.isSome := by
  cases h <;> rfl

theorem exists_of_rel_some {β γ : Type} {r : β → γ → Prop} {b : β} {c : Option γ}
    (h : Option.Rel r (some b) c) : ∃ d, c = some d ∧ r b d := by
  cases h with
  | some h => exact ⟨_, rfl, h⟩

namespace Compile

omit [Scalar α] in
theorem exists_run_of_fst {β : Type} {p : Compile α β} {ctx : Context α} {b : β}
    (h : (p.run.run ctx).1 = .ok b) :
    ∃ later, p.run.run ctx = (.ok b, later) ∧ later = (p.run.run ctx).2 :=
  ⟨_, Prod.ext h rfl, rfl⟩

/-- Wherever the network of a source has values, these are the colors of its tree. It has values if
all images are there, and there is no network exactly if the tree has no color. -/
theorem compileSource_computes [Scalar.TellsDivisors α] {ctx later : Context α} {scope : Scope}
    {source : Source α} {n : Option NodeId} (hconstants : ctx.HasConstants)
    (hrun : (compileSource scope source).run.run ctx = (.ok n, later)) (images : ImageTable α) :
    (∀ p, (source.value? (textureValue? ctx images p) scope).isSome = n.isSome) ∧
    ∀ root, n = some root → ∀ uv : UvGrid α,
      (∀ values, later.network.evaluate images uv root = .ok values → values.map some =
        uv.points.map fun p => source.value? (textureValue? ctx images p) scope) ∧
      (later.network.Reads (·.HasImage images) root → uv.lengths.length < Tensor.pairingLimit →
        ∃ values, later.network.evaluate images uv root = .ok values) := by
  have hrel (p : Uv α) : Option.Rel (later.network.HasValue ⟨images, p, fun _ => True⟩) n
      (source.value? (textureValue? ctx images p) scope) :=
    ((yields_compileSource ⟨hconstants, .refl ctx, fun _ => trivial⟩ scope source).ok hrun).2
  refine ⟨fun p => (isSome_eq_of_rel (hrel p)).symm, ?_⟩
  rintro root rfl uv
  have hvalue (p : Uv α) : root < later.network.size ∧
      source.value? (textureValue? ctx images p) scope =
        some (later.network.valueAt images p root) := by
    obtain ⟨v, hv, h⟩ := exists_of_rel_some (hrel p)
    exact ⟨h.lt, hv.trans (congrArg some h.eq.symm)⟩
  have hroot := (hvalue ⟨0.0, 0.0⟩).1
  constructor
  · intro values hvalues
    obtain ⟨-, rfl⟩ := (Network.evaluate_eq_ok_iff hroot values).mp hvalues
    simp [hvalue]
  · intro hreads hdims
    exact ⟨_, hreads.evaluate hroot hdims⟩

/-- A session at its start. -/
def fresh : Context Float := Context.start .standard .none {} ∅

theorem hasConstants_fresh : fresh.HasConstants := Context.hasConstants_start _ _ _ _

def floorScope : Scope := { material := "floor", channel := "color" }

/-- A texture times a gray, below a mask and at half its opacity. -/
def maskedWood : Source Float :=
  .composite
    [.mk (some (.product (some (.texture { name := "wood", path := some "wood.png" }))
      (some (.tint (some (.color (.gray 0.5))) .identity)) .plain))
      (some (.color (.gray 0.25))) { opacity := 50.0 }]

/-- The texture is a single pixel. -/
def woodImages : ImageTable Float :=
  [("wood.png", .ok { shape := [1, 1, 3], values := #[0.5, 0.25, 0.125] })]

def woodPoint : UvGrid Float := { lengths := [1], points := #[⟨0.5, 0.5⟩] }

theorem compileSource_computes_maskedWood :
    ∃ later values,
      (compileSource floorScope maskedWood).run.run fresh = (.ok (some 35), later) ∧
      fresh.HasConstants ∧ later.network.Reads (·.HasImage woodImages) 35 ∧
      later.network.evaluate woodImages woodPoint 35 = .ok values ∧
      values.map some = woodPoint.points.map fun p =>
        maskedWood.value? (textureValue? fresh woodImages p) floorScope := by
  have hfirst : ((compileSource floorScope maskedWood).run.run fresh).1 = .ok (some 35) := by
    decide +kernel
  obtain ⟨later, hrun, hlater⟩ := exists_run_of_fst hfirst
  have hreads : later.network.Reads (·.HasImage woodImages) 35 := by
    apply Network.reads_of_hasImages
    rw [hlater]
    decide +kernel
  have h := (compileSource_computes hasConstants_fresh hrun woodImages).right 35 rfl woodPoint
  obtain ⟨values, hvalues⟩ := h.right hreads (by decide)
  exact ⟨later, values, hrun, hasConstants_fresh, hreads, hvalues, h.left values hvalues⟩

/-! ### Corrections -/

/-- Wherever the source of a correction has values, the network of the correction has none but the
colors that its settings tell. It has values unless the points lie along too many dimensions. -/
theorem compileCorrection_computes [Scalar.TellsDivisors α] {ctx later : Context α} {scope : Scope}
    {source : Option (Source α)} {params : Correction α} {root : NodeId}
    (hconstants : ctx.HasConstants)
    (hrun : (compileSource scope (.correction source params)).run.run ctx =
      (.ok (some root), later)) :
    ∃ n middle, (compileOptional scope source).run.run ctx = (.ok (some n), middle) ∧
      ∀ (images : ImageTable α) (uv : UvGrid α) (values : Samples α),
        middle.network.evaluate images uv n = .ok values →
        (∀ results, later.network.evaluate images uv root = .ok results →
          results.map some = values.map params.value?) ∧
        (uv.lengths.length < Tensor.pairingLimit →
          ∃ results, later.network.evaluate images uv root = .ok results) := by
  rw [compileSource, run_bind] at hrun
  cases hsource : (compileOptional scope source).run.run ctx with
  | mk result middle =>
    rw [hsource] at hrun
    rcases result with e | _ | n
    · cases hrun
    · cases hrun
    · refine ⟨n, middle, rfl, ?_⟩
      intro images uv values hvalues
      let o : Probe α := ⟨images, ⟨0.0, 0.0⟩, fun _ => True⟩
      have hstart : GoesOn o ctx ctx := ⟨hconstants, .refl ctx, fun _ => trivial⟩
      have hyields := (yields_compileOptional hstart scope source).ok hsource
      obtain ⟨_, _, hn⟩ := exists_of_rel_some hyields.2
      obtain ⟨hall, rfl⟩ := (Network.evaluate_eq_ok_iff hn.lt values).mp hvalues
      have hmiddle := hyields.1.hasConstants hconstants
      -- The textures below the root are those below `n`, so their images are there as well.
      have hvalue (p : Uv α) : ∃ w, params.value? (middle.network.valueAt images p n) = some w ∧
          later.network.HasValue ⟨images, p, (·.HasImage images)⟩ root w := by
        have hsource : middle.network.HasValue ⟨images, p, (·.HasImage images)⟩ n
            (middle.network.valueAt images p n) := ⟨hn.lt, rfl, hall.reads⟩
        have hcorrect := yields_some (adds_correct hmiddle hsource scope params)
        exact exists_of_rel_some (hcorrect.ok hrun).2
      obtain ⟨_, _, hroot⟩ := hvalue ⟨0.0, 0.0⟩
      constructor
      · intro results hresults
        obtain ⟨-, rfl⟩ := (Network.evaluate_eq_ok_iff hroot.lt results).mp hresults
        rw [Array.map_map, Array.map_map]
        congr 1
        funext p
        obtain ⟨w, hw, hroot⟩ := hvalue p
        exact (congrArg some hroot.eq).trans hw.symm
      · intro hdims
        exact ⟨_, hroot.reads.evaluate hroot.lt hdims⟩

def gray : Source Float := .color (.gray 0.25)

/-- The inverted red, the mean and one, brightened; the pivot is too small. -/
def brightened : Correction Float :=
  { Correction.neutral with
    rewire := .custom
    customChannels := [.inverted .red, .average, .one, .direct .alpha]
    useExposure := true
    globalExposure := { gain := 2.0, gamma := 1.0, pivot := 0.0, lift := 0.125 }
    greenEnabled := true }

theorem compileCorrection_computes_brightened :
    ∃ later middle values results,
      (compileSource floorScope (.correction (some gray) brightened)).run.run fresh =
        (.ok (some 37), later) ∧
      fresh.HasConstants ∧
      (compileOptional floorScope (some gray)).run.run fresh = (.ok (some 2), middle) ∧
      middle.network.evaluate [] woodPoint 2 = .ok values ∧
      later.network.evaluate [] woodPoint 37 = .ok results ∧
      results.map some = values.map brightened.value? := by
  have hfirst : ((compileSource floorScope (.correction (some gray) brightened)).run.run fresh).1 =
      .ok (some 37) := by decide +kernel
  have hgray : ((compileOptional floorScope (some gray)).run.run fresh).1 = .ok (some 2) := by
    decide +kernel
  obtain ⟨later, hrun, -⟩ := exists_run_of_fst hfirst
  obtain ⟨middle, hmiddle, hnetwork⟩ := exists_run_of_fst hgray
  obtain ⟨n, middle', hsource, h⟩ := compileCorrection_computes hasConstants_fresh hrun
  cases hsource.symm.trans hmiddle
  have hreads : middle.network.Reads (·.HasImage []) 2 := by
    apply Network.reads_of_hasImages
    rw [hnetwork]
    decide +kernel
  have hsize : 2 < middle.network.size := by
    rw [hnetwork]
    decide +kernel
  have hvalues : middle.network.evaluate [] woodPoint 2 = .ok _ :=
    hreads.evaluate hsize (by decide)
  obtain ⟨results, hresults⟩ := (h [] woodPoint _ hvalues).right (by decide)
  have hsame := (h [] woodPoint _ hvalues).left results hresults
  exact ⟨later, middle, _, results, hrun, hasConstants_fresh, hmiddle, hvalues, hresults, hsame⟩

end Compile

end ShadeGraph
