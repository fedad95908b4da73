import ShadeGraph.Proofs.Network.Operators

/-!
# Values at all points

Evaluating a node gives values at all points, or tells why there are none. A node keeps both in
all later networks, and a new one has what its operation makes of the values of its inputs. Layers
over a blend of others are layers over those.
-/

namespace ShadeGraph

variable {α β γ δ ε : Type} [Scalar α]

/-- The value at a place; black beyond the last point. -/
def Samples.valueAt (values : Samples α) (i : Nat) : Rgba α := (values[i]?).getD (.replicate 0.0)

namespace Network

variable {net later : Network α} {images : ImageTable α} {uv : UvGrid α}

omit [Scalar α] in
theorem mapM_congr_of_forall₂ {f : β → Except δ ε} {g : γ → Except δ ε} {xs : List β} {ys : List γ}
    (h : List.Forall₂ (fun x y => f x = g y) xs ys) : xs.mapM f = ys.mapM g := by
  induction h with
  | nil => rfl
  | cons hfirst _ ih => simp [hfirst, ih]

omit [Scalar α] in
theorem exists_ok_of_mapM {f : β → Except δ ε} {xs : List β} {ys : List ε}
    (h : xs.mapM f = .ok ys) : ∀ x ∈ xs, ∃ y, f x = .ok y := by
  induction xs generalizing ys with
  | nil => simp
  | cons x xs ih =>
    rw [List.mapM_cons] at h
    cases hfirst : f x with
    | error e =>
      rw [hfirst] at h
      cases h
    | ok y =>
      cases hrest : xs.mapM f with
      | error e =>
        rw [hfirst, hrest] at h
        cases h
      | ok ys => exact List.forall_mem_cons.mpr ⟨⟨y, hfirst⟩, ih hrest⟩

theorem plainValues_of_get? {id : NodeId} {node : Node α} (h : net.get? id = some node) :
    net.plainValues images uv id = (do
      let inputs ← node.inputs.mapM (net.plainValues images uv)
      node.operation.samples images uv inputs) := by
  simp [plainValues_eq, nodeSamples, inputs_of_get? h, h]

theorem plainValues_of_extends (h : net.Extends later) {id : NodeId} (hid : id < net.size) :
    later.plainValues images uv id = net.plainValues images uv id := by
  induction id using Nat.strong_induction_on with
  | h id ih =>
    obtain ⟨node, hnode⟩ := lt_size_iff.mp hid
    rw [plainValues_of_get? hnode, plainValues_of_get? (h id node hnode)]
    congr 1
    refine mapM_congr_of_forall₂ (List.forall₂_same.mpr fun j hj => ?_)
    have hlt : j < id := net.lt_of_mem_inputs (by rwa [inputs_of_get? hnode])
    exact ih j hlt (hlt.trans hid)

theorem size_of_plainValues {id : NodeId} {values : Samples α} (hid : id < net.size)
    (h : net.plainValues images uv id = .ok values) : values.size = uv.points.size := by
  obtain ⟨-, rfl⟩ := (plainValues_eq_ok_iff hid values).mp h
  simp

variable {n : NodeId} {d : Except EvaluationError (Samples α)}

/-- The network has this node, and evaluating the node comes to this. -/
structure HasOutcome (net : Network α) (images : ImageTable α) (uv : UvGrid α) (n : NodeId)
    (d : Except EvaluationError (Samples α)) : Prop where
  lt : n < net.size
  eq : net.plainValues images uv n = d

theorem HasOutcome.extends (h : net.HasOutcome images uv n d) (hlater : net.Extends later) :
    later.HasOutcome images uv n d :=
  ⟨hlater.lt_size h.lt, (plainValues_of_extends hlater h.lt).trans h.eq⟩

theorem HasOutcome.evaluate (h : net.HasOutcome images uv n d) :
    net.evaluate images uv n = d := by
  rw [evaluate_eq_plainValues, h.eq]

theorem lt_size_of_forall₂ {ids : List NodeId} {ds : List (Except EvaluationError (Samples α))}
    (h : List.Forall₂ (net.HasOutcome images uv) ids ds) : ∀ j ∈ ids, j < net.size := by
  induction h with
  | nil => simp
  | cons hfirst _ ih => simpa using ⟨hfirst.lt, ih⟩

theorem hasOutcome_insert {node : Node α} {ds : List (Except EvaluationError (Samples α))}
    (h : List.Forall₂ (net.HasOutcome images uv) node.inputs ds) :
    (net.insert node).HasOutcome images uv net.size
      (do node.operation.samples images uv (← ds.mapM id)) := by
  have hnode := net.get?_insert_size (lt_size_of_forall₂ h)
  refine ⟨lt_size_of_get? hnode, ?_⟩
  rw [plainValues_of_get? hnode]
  congr 1
  exact mapM_congr_of_forall₂ (h.imp fun j d hj => (hj.extends (.insert net node)).eq)

end Network

namespace Build

variable {net : Network α} {images : ImageTable α} {uv : UvGrid α}

/-- The step adds nodes, and evaluating the one that it returns comes to this. -/
abbrev Evaluates (step : Build α NodeId) (net : Network α) (images : ImageTable α)
    (uv : UvGrid α) (d : Except EvaluationError (Samples α)) : Prop :=
  Adds step net fun n later => later.HasOutcome images uv n d

theorem evaluates_named {ids : List NodeId} {ds : List (Except EvaluationError (Samples α))}
    (h : List.Forall₂ (net.HasOutcome images uv) ids ds) (operation : Operation α)
    (name : String) : Evaluates (named operation ids name) net images uv
      (do operation.samples images uv (← ds.mapM id)) :=
  ⟨.insert net _, Network.hasOutcome_insert h⟩

end Build

/-! ### Layers -/

/-- A layer has this blend, and evaluating its node comes to this. -/
def Network.HasLayerOutcome (net : Network α) (images : ImageTable α) (uv : UvGrid α)
    (layer : NodeId × BlendType) (d : BlendType × Except EvaluationError (Samples α)) : Prop :=
  layer.2 = d.1 ∧ net.HasOutcome images uv layer.1 d.2

theorem Network.HasLayerOutcome.extends {net later : Network α} {images : ImageTable α}
    {uv : UvGrid α} {layer : NodeId × BlendType}
    {d : BlendType × Except EvaluationError (Samples α)}
    (h : net.HasLayerOutcome images uv layer d) (hlater : net.Extends later) :
    later.HasLayerOutcome images uv layer d := ⟨h.1, h.2.extends hlater⟩

section

variable (uv : UvGrid α)

/-- The blend of layers that come to this, the bottom one first. -/
def blendOutcomes (layers : List (BlendType × Except EvaluationError (Samples α))) :
    Except EvaluationError (Samples α) := do
  let inputs ← layers.mapM fun layer => (layer.1, ·) <$> layer.2
  return Array.ofFn fun (i : Fin uv.points.size) =>
    blendLayers (inputs.map fun layer => (layer.1, layer.2.valueAt i))

omit [Scalar α] in
theorem mapM_pair (layers : List (BlendType × Except EvaluationError (Samples α))) :
    layers.mapM (fun layer => (layer.1, ·) <$> layer.2) =
      ((layers.map (·.1)).zip ·) <$> layers.mapM (·.2) := by
  induction layers with
  | nil => rfl
  | cons layer layers ih =>
    rw [List.mapM_cons, List.mapM_cons, ih]
    cases layer.2 with
    | error e => rfl
    | ok values => cases layers.mapM (·.2) <;> rfl

theorem samples_layeredBlend (images : ImageTable α)
    (layers : List (BlendType × Except EvaluationError (Samples α))) : (do
      let inputs ← (layers.map (·.2)).mapM id
      (Operation.layeredBlend (layers.map (·.1))).samples images uv inputs) =
        blendOutcomes uv layers := by
  rw [blendOutcomes, mapM_pair, List.mapM_map, Function.id_comp]
  cases layers.mapM (fun layer => layer.2) with
  | error e => rfl
  | ok inputs =>
    refine congrArg Except.ok (congrArg Array.ofFn (funext fun i => ?_))
    simp only [Operation.combine, List.zip_map_right]
    rfl

/-- Layers have a blend only if each of them has values. -/
theorem exists_ok_of_blendOutcomes
    {layers : List (BlendType × Except EvaluationError (Samples α))} {values : Samples α}
    (h : blendOutcomes uv layers = .ok values) :
    ∀ layer ∈ layers, ∃ values, layer.2 = .ok values := by
  unfold blendOutcomes at h
  cases hinputs : layers.mapM fun layer => (layer.1, ·) <$> layer.2 with
  | error e =>
    rw [hinputs] at h
    cases h
  | ok inputs =>
    intro layer hlayer
    obtain ⟨input, hinput⟩ := Network.exists_ok_of_mapM hinputs layer hlayer
    cases houtcome : layer.2 with
    | error e =>
      rw [houtcome] at hinput
      cases hinput
    | ok values => exact ⟨values, rfl⟩

/-- A replacing layer that is a blend itself adds nothing to the layers below. -/
theorem blendOutcomes_nested (below above : List (BlendType × Except EvaluationError (Samples α))) :
    blendOutcomes uv ((.replace, blendOutcomes uv below) :: above) =
      blendOutcomes uv (below ++ above) := by
  unfold blendOutcomes
  rw [List.mapM_cons, List.mapM_append]
  cases below.mapM fun layer => (layer.1, ·) <$> layer.2 with
  | error e => rfl
  | ok inputs =>
    cases above.mapM fun layer => (layer.1, ·) <$> layer.2 with
    | error e => rfl
    | ok rest =>
      refine congrArg Except.ok (congrArg Array.ofFn (funext fun i => ?_))
      simp [blendLayers, Samples.valueAt, BlendType.over]

variable {uv}

/-- A replacing layer by itself is what it comes to. -/
theorem blendOutcomes_single {net : Network α} {images : ImageTable α} {n : NodeId}
    {d : Except EvaluationError (Samples α)} (h : net.HasOutcome images uv n d) :
    blendOutcomes uv [(.replace, d)] = d := by
  cases d with
  | error e => rfl
  | ok values =>
    have hsize := net.size_of_plainValues h.lt h.eq
    refine congrArg Except.ok (Array.ext (by simp [hsize]) fun i hi hi' => ?_)
    simp [blendLayers, Samples.valueAt, BlendType.over, hi']

end

namespace Build

variable {net : Network α} {images : ImageTable α} {uv : UvGrid α} {n : NodeId}
variable {d : Except EvaluationError (Samples α)}

theorem evaluates_layeredBlend {layers : List (NodeId × BlendType)}
    {ds : List (BlendType × Except EvaluationError (Samples α))}
    (h : List.Forall₂ (net.HasLayerOutcome images uv) layers ds) :
    Evaluates (layeredBlend layers) net images uv (blendOutcomes uv ds) := by
  have hinputs : List.Forall₂ (net.HasOutcome images uv) (layers.map (·.1)) (ds.map (·.2)) := by
    rw [List.forall₂_map_left_iff, List.forall₂_map_right_iff]
    exact h.imp fun _ _ => And.right
  have hblends : layers.map (·.2) = ds.map (·.1) := by
    clear hinputs
    induction h with
    | nil => rfl
    | cons hfirst _ ih => simp [hfirst.1, ih]
  rw [← samples_layeredBlend uv images ds, ← hblends]
  exact evaluates_named hinputs _ ""

/-- What a node makes of values that are made of the same ones, point by point. -/
theorem samples_pointwise {operation : Operation α} (htexture : operation.texture? = none)
    (hdims : operation.pairedDimensions uv.lengths.length = 0) {fs : List (Rgba α → Rgba α)}
    (hfs : fs ≠ []) (hd : ∀ values, d = .ok values → values.size = uv.points.size) : (do
      let inputs ← (fs.map fun f => d.map (·.map f)).mapM id
      operation.samples images uv inputs) =
        d.map (·.map fun v => operation.combine (fs.map (· v))) := by
  cases d with
  | error e =>
    cases fs with
    | nil => exact absurd rfl hfs
    | cons f fs => rfl
  | ok values =>
    have hinputs : (fs.map fun f => Except.map (·.map f) (.ok values)).mapM id =
        (Except.ok (fs.map (values.map ·)) : Except EvaluationError _) := by
      clear hfs
      induction fs with
      | nil => rfl
      | cons f fs ih =>
        rw [List.map_cons, List.mapM_cons, ih]
        rfl
    have hsize := hd values rfl
    rw [hinputs]
    change operation.samples images uv _ = _
    rw [Operation.samples_of_not_texture htexture, hdims, if_neg (by decide)]
    refine congrArg Except.ok (Array.ext (by simp [hsize]) fun i hi hi' => ?_)
    have hvalues : i < values.size := by simpa using hi'
    simp [hvalues, Function.comp_def]

theorem evaluates_pointwise {operation : Operation α} (htexture : operation.texture? = none)
    (hdims : operation.pairedDimensions uv.lengths.length = 0) {ids : List NodeId}
    {fs : List (Rgba α → Rgba α)} (hfs : fs ≠ [])
    (hd : ∀ values, d = .ok values → values.size = uv.points.size)
    (h : List.Forall₂ (fun j f => net.HasOutcome images uv j (d.map (·.map f))) ids fs) :
    Evaluates (node operation ids) net images uv
      (d.map (·.map fun v => operation.combine (fs.map (· v)))) := by
  rw [← samples_pointwise htexture hdims hfs hd]
  exact evaluates_named ((List.forall₂_map_right_iff).mpr h) operation ""

theorem evaluates_premultiply (h : net.HasOutcome images uv n d) :
    Evaluates (premultiply n) net images uv (d.map (·.map Rgba.premultiplied)) := by
  have hd (values : Samples α) (hvalues : d = .ok values) : values.size = uv.points.size :=
    net.size_of_plainValues h.lt (h.eq.trans hvalues)
  have hsame : d.map (·.map id) = d := by cases d <;> simp [Except.map]
  have hn : net.HasOutcome images uv n (d.map (·.map id)) := hsame.symm ▸ h
  refine (evaluates_pointwise rfl rfl (by simp) hd
    (.cons hn (.cons hn (.cons hn (.cons hn .nil))))).bind fun alpha net₁ h₁ halpha => ?_
  refine (evaluates_pointwise rfl rfl (by simp) hd (.cons (hn.extends h₁) (.cons halpha .nil))).bind
    fun product net₂ h₂ hproduct => ?_
  exact evaluates_pointwise rfl rfl (by simp) hd
    (.cons hproduct (.cons hproduct (.cons hproduct (.cons ((hn.extends h₁).extends h₂) .nil))))

end Build

end ShadeGraph
