import ShadeGraph.Network.Dimensions
import ShadeGraph.Proofs.Network.Order

/-!
# Values along other dimensions

Values that lie along dimensions of their own are tabulated along the walk, which stops at the first
node that has no value. This is the node at which the recursion without a memo stops, so both have the
same outcome.
-/

namespace ShadeGraph

/-- The tensor of the values, whose components lie along a last dimension. -/
def Block.tensor {α : Type} (block : Block α) : Tensor α :=
  { shape := block.lengths ++ [4], values := block.points.flatMap fun v => v.toList.toArray }

namespace Network

section

variable {α β γ δ ε : Type} {net : Network α} {compute : NodeId → List β → Except ε β}

/-! ### The first failure -/

/-- Why there is no value. -/
def failure? : Except ε γ → Option ε
  | .error e => some e
  | .ok _ => none

theorem failure?_eq_some_iff {d : Except ε γ} {e : ε} : failure? d = some e ↔ d = .error e := by
  cases d <;> simp [failure?]

theorem failure?_mapM (f : δ → Except ε γ) (xs : List δ) :
    failure? (xs.mapM f) = xs.findSome? fun x => failure? (f x) := by
  induction xs with
  | nil => rfl
  | cons x xs ih =>
    rw [List.mapM_cons, List.findSome?_cons, ← ih]
    cases f x with
    | error e => rfl
    | ok c => cases xs.mapM f <;> rfl

variable (net compute) in
/-- Why a node has no value. -/
def why? (id : NodeId) : Option ε := failure? (net.recomputed compute id)

variable (net compute) in
/-- A node fails as the first of its inputs that does. -/
theorem why?_eq (id : NodeId) :
    net.why? compute id = ((net.inputs id).findSome? (net.why? compute)).or (net.why? compute id) := by
  have hinputs := failure?_mapM (net.recomputed compute) (net.inputs id)
  unfold why?
  rw [← hinputs, recomputed_eq]
  cases (net.inputs id).mapM (net.recomputed compute) <;> rfl

variable (net compute) in
theorem findSome?_foldl_postOrderFrom {ids : List NodeId} (seen : List NodeId)
    (h : ∀ j ∈ ids, ∀ seen, (net.postOrderFrom seen j).reverse.findSome? (net.why? compute) =
      (seen.reverse.findSome? (net.why? compute)).or (net.why? compute j)) :
    (ids.foldl net.postOrderFrom seen).reverse.findSome? (net.why? compute) =
      (seen.reverse.findSome? (net.why? compute)).or (ids.findSome? (net.why? compute)) := by
  induction ids generalizing seen with
  | nil => rw [List.foldl_nil, List.findSome?_nil, Option.or_none]
  | cons j ids ih =>
    obtain ⟨hj, hids⟩ := List.forall_mem_cons.mp h
    rw [List.foldl_cons, ih _ hids, hj, Option.or_assoc, List.findSome?_cons]
    cases net.why? compute j <;> rfl

variable (net compute) in
/-- The first failure on the way of the recursive traversal is that of its root. -/
theorem findSome?_postOrderFrom (seen : List NodeId) (root : NodeId) :
    (net.postOrderFrom seen root).reverse.findSome? (net.why? compute) =
      (seen.reverse.findSome? (net.why? compute)).or (net.why? compute root) := by
  induction root using Nat.strong_induction_on generalizing seen with
  | h root ih =>
    by_cases hroot : root ∈ seen
    · rw [postOrderFrom_of_mem hroot]
      cases hseen : seen.reverse.findSome? (net.why? compute) with
      | some e => rfl
      | none => exact (List.findSome?_eq_none_iff.mp hseen root (List.mem_reverse.mpr hroot)).symm
    · have hinputs := net.findSome?_foldl_postOrderFrom compute seen
        fun j (hj : j ∈ net.inputs root) seen => ih j (net.lt_of_mem_inputs hj) seen
      rw [postOrderFrom_of_notMem hroot, List.reverse_cons, List.findSome?_append, hinputs,
        Option.or_assoc, List.findSome?_singleton, ← why?_eq]

variable (net compute) in
theorem findSome?_walk (root : NodeId) :
    (net.walk root).findSome? (net.why? compute) = net.why? compute root := by
  rw [walk_eq_postOrder, postOrder, findSome?_postOrderFrom]
  rfl

end

/-! ### Tables of values -/

variable {α : Type} [Scalar α] (net : Network α) (images : ImageTable α) (uv : UvGrid α)

def nodeBlock (id : NodeId) (inputs : List (Block α)) : Except EvaluationError (Block α) :=
  match net.get? id with
  | some node => node.operation.block images uv inputs
  | none => .ok ⟨[0], #[]⟩

/-- The value of a node in a table of those computed so far. -/
def blockIn (blocks : Table NodeId (Block α)) (id : NodeId) : Block α :=
  (blocks.get? id).getD ⟨[0], #[]⟩

/-- Adds the value of a node whose inputs have theirs. -/
def withBlock (blocks : Table NodeId (Block α)) (id : NodeId) :
    Except EvaluationError (Table NodeId (Block α)) :=
  match net.get? id with
  | some node => return (id, ← node.operation.block images uv (node.inputs.map (blockIn blocks))) ::
      blocks
  | none => .ok blocks

theorem block_eq (root : NodeId) : net.block images uv root = (do
    let blocks ← (net.walk root).foldlM (net.withBlock images uv) []
    return blockIn blocks root) := rfl

/-- The table tells the values of these nodes and no others. -/
structure Tabulates (order : List NodeId) (blocks : Table NodeId (Block α)) : Prop where
  values : ∀ id ∈ order, net.recomputed (net.nodeBlock images uv) id = .ok (blockIn blocks id)
  fresh : ∀ id ∉ order, blocks.get? id = none

variable {net images uv} {order : List NodeId} {blocks : Table NodeId (Block α)} {id : NodeId}

theorem Tabulates.recomputed_of_inputs (h : net.Tabulates images uv order blocks)
    (hinputs : ∀ j ∈ net.inputs id, j ∈ order) :
    net.recomputed (net.nodeBlock images uv) id =
      net.nodeBlock images uv id ((net.inputs id).map (blockIn blocks)) := by
  have hlist : (net.inputs id).mapM (net.recomputed (net.nodeBlock images uv)) =
      .ok ((net.inputs id).map (blockIn blocks)) := by
    refine (mapM_eq_ok_iff (P := fun _ => True) (fun j hj y => ?_) _).mpr ⟨fun _ _ => trivial, rfl⟩
    rw [h.values j (hinputs j hj)]
    simp [eq_comm]
  rw [recomputed_eq, hlist]
  rfl

theorem Tabulates.snoc {later : Table NodeId (Block α)} (h : net.Tabulates images uv order blocks)
    (hnew : id ∉ order)
    (hvalue : net.recomputed (net.nodeBlock images uv) id = .ok (blockIn later id))
    (hold : ∀ j, j ≠ id → later.get? j = blocks.get? j) :
    net.Tabulates images uv (order ++ [id]) later where
  values j hj := by
    rcases List.mem_append.mp hj with hj | hj
    · have hne : j ≠ id := fun heq => hnew (heq ▸ hj)
      rw [h.values j hj, blockIn, blockIn, hold j hne]
    · rwa [List.mem_singleton.mp hj]
  fresh j hj := by
    simp only [List.mem_append, List.mem_singleton, not_or] at hj
    rw [hold j hj.2, h.fresh j hj.1]

/-- The next node of the walk has its inputs in the table. Either it has a value, which is added, or
the walk stops there. -/
theorem withBlock_cases (h : net.Tabulates images uv order blocks) (hnew : id ∉ order)
    (hinputs : ∀ j ∈ net.inputs id, j ∈ order) :
    (∃ e, net.why? (net.nodeBlock images uv) id = some e ∧
      net.withBlock images uv blocks id = .error e) ∨
    ∃ later, net.why? (net.nodeBlock images uv) id = none ∧
      net.withBlock images uv blocks id = .ok later ∧
      net.Tabulates images uv (order ++ [id]) later := by
  have hplain := h.recomputed_of_inputs hinputs
  rw [nodeBlock] at hplain
  unfold why? withBlock
  cases hnode : net.get? id with
  | none =>
    rw [hnode] at hplain
    refine .inr ⟨blocks, by rw [hplain]; rfl, rfl, h.snoc hnew ?_ fun _ _ => rfl⟩
    rw [hplain, blockIn, h.fresh id hnew]
    rfl
  | some node =>
    rw [hnode, inputs_of_get? hnode] at hplain
    dsimp only at hplain ⊢
    rw [hplain]
    cases hblock : node.operation.block images uv (node.inputs.map (blockIn blocks)) with
    | error e => exact .inl ⟨e, rfl, rfl⟩
    | ok block =>
      refine .inr ⟨(id, block) :: blocks, rfl, rfl, h.snoc hnew ?_ fun j hj => ?_⟩
      · rw [hplain, hblock, blockIn, Table.get?_cons, if_pos rfl]
        rfl
      · rw [Table.get?_cons, if_neg (Ne.symm hj)]

variable (images uv) in
/-- The table is made up to the first node that has no value. -/
theorem foldlM_withBlock_cases (h : net.Ordered order) :
    (∃ e, order.findSome? (net.why? (net.nodeBlock images uv)) = some e ∧
      order.foldlM (net.withBlock images uv) [] = .error e) ∨
    ∃ blocks, order.findSome? (net.why? (net.nodeBlock images uv)) = none ∧
      order.foldlM (net.withBlock images uv) [] = .ok blocks ∧
      net.Tabulates images uv order blocks := by
  induction h with
  | nil =>
    have hempty : net.Tabulates images uv [] [] :=
      ⟨fun _ hid => absurd hid List.not_mem_nil, fun _ _ => rfl⟩
    exact .inr ⟨[], rfl, rfl, hempty⟩
  | @snoc order id _ hnew hinputs ih =>
    rw [List.findSome?_append, List.foldlM_append, List.findSome?_singleton]
    rcases ih with ⟨e, hwhy, hfold⟩ | ⟨blocks, hwhy, hfold, htable⟩
    · rw [hwhy, hfold]
      exact .inl ⟨e, rfl, rfl⟩
    · rw [hwhy, hfold, Option.none_or]
      simp only [List.foldlM_cons, List.foldlM_nil, bind_pure]
      exact withBlock_cases htable hnew hinputs

variable (net images uv) in
/-- The table along the walk leads to the outcome of the recursion without a memo. -/
theorem block_eq_recomputed (root : NodeId) :
    net.block images uv root = net.recomputed (net.nodeBlock images uv) root := by
  rw [block_eq]
  rcases foldlM_withBlock_cases images uv (net.ordered_walk root) with
    ⟨e, hwhy, hfold⟩ | ⟨blocks, -, hfold, htable⟩
  · rw [hfold]
    rw [findSome?_walk] at hwhy
    exact (failure?_eq_some_iff.mp hwhy).symm
  · rw [hfold, htable.values root (mem_walk_iff.mpr .refl)]
    rfl

end Network

end ShadeGraph
