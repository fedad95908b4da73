import ShadeGraph.Proofs.Network.Memo

/-!
# Values at a point

A node has a value at every point by itself: from the values of its inputs there, or from the pixel of
its image. Evaluating a network gives these values at all points, as long as every operation below the
root has its image and can be done along the dimensions of the points.
-/

namespace ShadeGraph

variable {α : Type} [Scalar α]

/-- The value of a texture at a point; black without an image. -/
def TextureLookup.valueAt (lookup : TextureLookup α) (images : ImageTable α) (p : Uv α) : Rgba α :=
  match lookup.image images with
  | .ok image => lookup.sample image p
  | .error _ => .replicate 0.0

/-- The value of an operation at a point from those of its inputs there. -/
def Operation.valueAt (operation : Operation α) (images : ImageTable α) (p : Uv α)
    (inputs : List (Rgba α)) : Rgba α :=
  match operation with
  | .texture lookup => lookup.valueAt images p
  | operation => operation.combine inputs

/-- The image of a texture is there. -/
def TextureLookup.HasImage (lookup : TextureLookup α) (images : ImageTable α) : Prop :=
  ∃ image, lookup.image images = .ok image

namespace Network

/-- A node lies below another one, or is that node. -/
def Below {α : Type} (net : Network α) : NodeId → NodeId → Prop :=
  Relation.ReflTransGen fun id j => j ∈ net.inputs id

/-- All operations at and below a node are as told. -/
def All {α : Type} (net : Network α) (P : Operation α → Prop) (root : NodeId) : Prop :=
  ∀ id node, net.Below root id → net.get? id = some node → P node.operation

/-- All textures that are read at and below a node are of this kind. -/
abbrev Reads {α : Type} (net : Network α) (kind : TextureLookup α → Prop) : NodeId → Prop :=
  net.All fun operation => ∀ lookup, operation.texture? = some lookup → kind lookup

variable (net : Network α) (images : ImageTable α)

/-- The value of a node at a point. -/
def valueAt (p : Uv α) (id : NodeId) : Rgba α :=
  match net.get? id with
  | some node =>
    node.operation.valueAt images p ((net.inputs id).attach.map fun j => valueAt p j.1)
  | none => .replicate 0.0
termination_by id
decreasing_by exact net.lt_of_mem_inputs j.2

variable {net images}

omit [Scalar α] in
theorem lt_size_iff {id : NodeId} : id < net.size ↔ ∃ node, net.get? id = some node := by
  constructor
  · intro h
    exact ⟨net.nodes[id], Array.getElem?_eq_getElem h⟩
  · rintro ⟨node, hnode⟩
    exact (Array.getElem?_eq_some_iff.mp hnode).1

omit [Scalar α] in
theorem lt_size_of_get? {id : NodeId} {node : Node α} (h : net.get? id = some node) :
    id < net.size := lt_size_iff.mpr ⟨node, h⟩

omit [Scalar α] in
theorem inputs_of_get? {id : NodeId} {node : Node α} (h : net.get? id = some node) :
    net.inputs id = node.inputs := by
  rw [inputs, h]
  rfl

theorem valueAt_eq {id : NodeId} {node : Node α} (h : net.get? id = some node) (p : Uv α) :
    net.valueAt images p id =
      node.operation.valueAt images p (node.inputs.map (net.valueAt images p)) := by
  rw [valueAt, h, ← inputs_of_get? h]
  dsimp only
  rw [List.map_attach_eq_pmap, List.pmap_eq_map]

omit [Scalar α] in
theorem Below.le {root id : NodeId} (h : net.Below root id) : id ≤ root := by
  induction h with
  | refl => exact Nat.le_refl root
  | tail _ hlast ih => exact (Nat.le_of_lt (net.lt_of_mem_inputs hlast)).trans ih

omit [Scalar α] in
theorem all_iff {P : Operation α → Prop} {root : NodeId} {node : Node α}
    (hroot : net.get? root = some node) :
    net.All P root ↔ P node.operation ∧ ∀ j ∈ node.inputs, net.All P j := by
  rw [← inputs_of_get? hroot]
  constructor
  · intro h
    exact ⟨h root node .refl hroot, fun j hj id other hbelow => h id other (.head hj hbelow)⟩
  · rintro ⟨hnode, hinputs⟩ id other hbelow hother
    rcases hbelow.cases_head with rfl | ⟨j, hj, hbelow⟩
    · obtain rfl := Option.some.inj (hroot.symm.trans hother)
      exact hnode
    · exact hinputs j hj id other hbelow hother

/-! ### With and without a memo -/

variable (net images) (uv : UvGrid α)

theorem memoValues_eq_memoized (id : NodeId) :
    net.memoValues images uv id = net.memoized (net.nodeSamples images uv) id := by
  induction id using Nat.strong_induction_on with
  | h id ih =>
    have hinputs : (fun j : { j // j ∈ net.inputs id } => net.memoValues images uv j.1) =
        fun j => net.memoized (net.nodeSamples images uv) j.1 :=
      funext fun j => ih j.1 (net.lt_of_mem_inputs j.2)
    rw [memoValues, memoized, hinputs]
    exact bind_congr fun memo => by cases memo.lookup id <;> rfl

theorem plainValues_eq_recomputed (id : NodeId) :
    net.plainValues images uv id = net.recomputed (net.nodeSamples images uv) id := by
  induction id using Nat.strong_induction_on with
  | h id ih =>
    have hinputs : (fun j : { j // j ∈ net.inputs id } => net.plainValues images uv j.1) =
        fun j => net.recomputed (net.nodeSamples images uv) j.1 :=
      funext fun j => ih j.1 (net.lt_of_mem_inputs j.2)
    rw [plainValues, recomputed, hinputs]

theorem plainValues_eq (id : NodeId) : net.plainValues images uv id = (do
    let inputs ← (net.inputs id).mapM (net.plainValues images uv)
    net.nodeSamples images uv id inputs) := by
  rw [plainValues, List.mapM_subtype (g := net.plainValues images uv) fun _ _ => rfl,
    List.unattach_attach]

theorem evaluate_eq_plainValues (id : NodeId) :
    net.evaluate images uv id = net.plainValues images uv id := by
  rw [evaluate, memoValues_eq_memoized, run'_memoized, plainValues_eq_recomputed]

end Network

/-! ### All points -/

theorem Operation.texture?_eq_some_iff {α : Type} {operation : Operation α}
    {lookup : TextureLookup α} :
    operation.texture? = some lookup ↔ operation = .texture lookup := by
  cases operation <;> simp [texture?]

namespace Operation

variable {operation : Operation α} {images : ImageTable α} {uv : UvGrid α}

/-- The operation has its image, and can be done where the points lie along `n` dimensions. -/
def CanSample (operation : Operation α) (images : ImageTable α) (n : Nat) : Prop :=
  (∀ lookup, operation.texture? = some lookup → lookup.HasImage images) ∧
    operation.pairedDimensions n ≤ Tensor.pairingLimit

omit [Scalar α] in
theorem pairedDimensions_le (operation : Operation α) (n : Nat) :
    operation.pairedDimensions n ≤ n + 1 := by
  unfold pairedDimensions
  split <;> omega

theorem samples_of_not_texture {inputs : List (Samples α)} (h : operation.texture? = none) :
    operation.samples images uv inputs =
      if Tensor.pairingLimit < operation.pairedDimensions uv.lengths.length then
        .error (.dimensions (operation.pairedDimensions uv.lengths.length))
      else .ok (Array.ofFn fun (i : Fin uv.points.size) =>
        operation.combine (inputs.map fun s => (s[i.val]?).getD (.replicate 0.0))) := by
  cases operation with
  | texture lookup => simp [texture?] at h
  | _ => rfl

theorem valueAt_of_not_texture {inputs : List (Rgba α)} (h : operation.texture? = none)
    (p : Uv α) : operation.valueAt images p inputs = operation.combine inputs := by
  cases operation with
  | texture lookup => simp [texture?] at h
  | _ => rfl

variable (operation images uv) in
/-- The values of a node at all points are its values at each of them. -/
theorem samples_eq_ok_iff (inputs : List (Uv α → Rgba α)) (values : Samples α) :
    operation.samples images uv (inputs.map fun f => uv.points.map f) = .ok values ↔
      operation.CanSample images uv.lengths.length ∧
        values = uv.points.map fun p => operation.valueAt images p (inputs.map fun f => f p) := by
  unfold CanSample
  cases htexture : operation.texture? with
  | some lookup =>
    obtain rfl := texture?_eq_some_iff.mp htexture
    simp only [samples, valueAt, TextureLookup.valueAt, TextureLookup.HasImage]
    cases hlookup : lookup.image images with
    | error e => simp [hlookup, bind, Except.bind]
    | ok image =>
      simp only [bind, Except.bind, pure, Except.pure, Except.ok.injEq, Option.some.injEq,
        forall_eq', hlookup]
      simp [eq_comm, pairedDimensions]
  | none =>
    rw [samples_of_not_texture htexture]
    have hvalues : (Array.ofFn fun (i : Fin uv.points.size) => operation.combine
        ((inputs.map fun f => uv.points.map f).map fun s => (s[i.val]?).getD (.replicate 0.0))) =
          uv.points.map fun p => operation.valueAt images p (inputs.map fun f => f p) := by
      apply Array.ext
      · simp
      · intro i hi _
        simp [valueAt_of_not_texture htexture, Function.comp_def]
    rw [hvalues]
    by_cases hdims : Tensor.pairingLimit < operation.pairedDimensions uv.lengths.length
    · simp [if_pos hdims, Nat.not_le.mpr hdims]
    · simp [if_neg hdims, Nat.not_lt.mp hdims, eq_comm]

end Operation

namespace Network

variable {net : Network α} {images : ImageTable α} {uv : UvGrid α}

theorem mapM_eq_ok_iff {β γ ε : Type} {f : β → Except ε γ} {g : β → γ} {P : β → Prop} {xs : List β}
    (h : ∀ x ∈ xs, ∀ y, f x = .ok y ↔ P x ∧ y = g x) (ys : List γ) :
    xs.mapM f = .ok ys ↔ (∀ x ∈ xs, P x) ∧ ys = xs.map g := by
  induction xs generalizing ys with
  | nil => simp [pure, Except.pure, eq_comm]
  | cons x xs ih =>
    obtain ⟨hx, hxs⟩ := List.forall_mem_cons.mp h
    have hrest := ih hxs
    rw [List.mapM_cons]
    cases hfirst : f x with
    | error e =>
      have hnot : ¬ P x := fun hpx => by simp [(hx _).mpr ⟨hpx, rfl⟩] at hfirst
      simp [bind, Except.bind, hnot]
    | ok y =>
      obtain ⟨hpx, rfl⟩ := (hx y).mp hfirst
      cases htail : xs.mapM f with
      | error e =>
        have hnot : ¬ ∀ z ∈ xs, P z := fun hall => by simp [(hrest _).mpr ⟨hall, rfl⟩] at htail
        simpa [bind, Except.bind, hpx] using fun hall => absurd hall hnot
      | ok zs =>
        obtain ⟨hall, rfl⟩ := (hrest zs).mp htail
        have hboth : ∀ z ∈ x :: xs, P z := List.forall_mem_cons.mpr ⟨hpx, hall⟩
        simp only [bind, Except.bind, pure, Except.pure, Except.ok.injEq, List.map_cons]
        exact ⟨fun h => ⟨hboth, h.symm⟩, fun h => h.2.symm⟩

theorem plainValues_eq_ok_iff {id : NodeId} (hid : id < net.size) (values : Samples α) :
    net.plainValues images uv id = .ok values ↔
      net.All (·.CanSample images uv.lengths.length) id ∧
        values = uv.points.map (net.valueAt images · id) := by
  induction id using Nat.strong_induction_on generalizing values with
  | h id ih =>
    obtain ⟨node, hnode⟩ := lt_size_iff.mp hid
    have hinputs : ∀ j ∈ node.inputs, ∀ samples, net.plainValues images uv j = .ok samples ↔
        net.All (·.CanSample images uv.lengths.length) j ∧
          samples = uv.points.map (net.valueAt images · j) := by
      intro j hj
      have hlt : j < id := net.lt_of_mem_inputs (by rwa [inputs_of_get? hnode])
      exact ih j hlt (hlt.trans hid)
    have hlist := mapM_eq_ok_iff hinputs
    have hsamples := node.operation.samples_eq_ok_iff images uv
      (node.inputs.map fun j p => net.valueAt images p j) values
    simp only [List.map_map, Function.comp_def] at hsamples
    rw [plainValues_eq, inputs_of_get? hnode, all_iff hnode]
    simp only [valueAt_eq hnode, nodeSamples, hnode]
    cases hrun : node.inputs.mapM (net.plainValues images uv) with
    | error e =>
      have hnot : ¬ ∀ j ∈ node.inputs, net.All (·.CanSample images uv.lengths.length) j :=
        fun hall => by simp [(hlist _).mpr ⟨hall, rfl⟩] at hrun
      simp [bind, Except.bind, hnot]
    | ok samples =>
      obtain ⟨hall, rfl⟩ := (hlist samples).mp hrun
      simp only [bind, Except.bind]
      rw [hsamples, and_iff_left hall]

/-- Evaluating gives the value of the root at every point if everything below it can be done. -/
theorem evaluate_eq_ok_iff {root : NodeId} (hroot : root < net.size) (values : Samples α) :
    net.evaluate images uv root = .ok values ↔
      net.All (·.CanSample images uv.lengths.length) root ∧
        values = uv.points.map (net.valueAt images · root) := by
  rw [evaluate_eq_plainValues, plainValues_eq_ok_iff hroot]

theorem All.reads {root : NodeId} {n : Nat} (h : net.All (·.CanSample images n) root) :
    net.Reads (·.HasImage images) root :=
  fun id node hbelow hnode => (h id node hbelow hnode).1

theorem Reads.evaluate {root : NodeId} (h : net.Reads (·.HasImage images) root)
    (hroot : root < net.size) (hdims : uv.lengths.length < Tensor.pairingLimit) :
    net.evaluate images uv root = .ok (uv.points.map (net.valueAt images · root)) := by
  refine (evaluate_eq_ok_iff hroot _).mpr ⟨fun id node hbelow hnode => ?_, rfl⟩
  exact ⟨h id node hbelow hnode, (node.operation.pairedDimensions_le _).trans hdims⟩

end Network

end ShadeGraph
