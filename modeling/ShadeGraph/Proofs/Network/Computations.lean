import ShadeGraph.Proofs.Network.Blocks
import ShadeGraph.Proofs.Running
import ShadeGraph.Proofs.Table

/-!
# What an evaluation computes

An evaluation that notes which nodes it computes runs as the one that does not. It computes the nodes
in the order of the walk, each once, and if it fails, then at a node on this way. Its outcome is that
of the recursion without a memo, along whatever dimensions the values lie.
-/

namespace ShadeGraph

namespace Network

section

variable {α β γ δ ε : Type} {net : Network α}

/-! ### Traces -/

/-- Steps that note which nodes they compute, the latest first. The notes outlast a failure. -/
abbrev Tracing (ε : Type) := ExceptT ε (StateM (List NodeId))

/-- Notes a node, then computes its value. -/
def traced (compute : NodeId → List β → Except ε β) (id : NodeId) (inputs : List β) :
    Tracing ε β := do
  modify (id :: ·)
  liftExcept (compute id inputs)

/-- How a step and one that takes notes end alike: with a memo of what was computed, which is `order`,
or with a failure on the way there. -/
inductive EndsAlike (order : List NodeId) :
    Except ε (γ × Table NodeId β) → Except ε (γ × Table NodeId β) × List NodeId → Prop
  | failed {e computed} (part : computed <:+ order) : EndsAlike order (.error e) (.error e, computed)
  | returned {c memo} (keys : memo.keys = order) :
    EndsAlike order (.ok (c, memo)) (.ok (c, memo), order)

/-- From notes of what the memo holds, both steps end alike; `order` tells what is computed then. -/
def Traces (tracing : StateT (Table NodeId β) (Tracing ε) γ)
    (silent : StateT (Table NodeId β) (Except ε) γ) (order : List NodeId → List NodeId) : Prop :=
  ∀ memo, EndsAlike (order memo.keys) (silent.run memo) ((tracing.run memo).run.run memo.keys)

variable {tracing : StateT (Table NodeId β) (Tracing ε) γ}
  {silent : StateT (Table NodeId β) (Except ε) γ} {order : List NodeId → List NodeId}

theorem traces_pure (c : γ) :
    Traces (pure c : StateT (Table NodeId β) (Tracing ε) γ) (pure c) fun seen => seen :=
  fun _ => .returned rfl

theorem Traces.bind {f : γ → StateT (Table NodeId β) (Tracing ε) δ}
    {g : γ → StateT (Table NodeId β) (Except ε) δ} {next : List NodeId → List NodeId}
    (h : Traces tracing silent order) (hnext : ∀ c, Traces (f c) (g c) next)
    (hgrow : ∀ seen, seen <:+ next seen) :
    Traces (tracing >>= f) (silent >>= g) fun seen => next (order seen) := by
  intro memo
  have hfirst := h memo
  rw [StateT.run_bind, StateT.run_bind]
  generalize hsilent : silent.run memo = outcome at hfirst
  generalize htracing : (tracing.run memo).run.run memo.keys = result at hfirst
  cases hfirst with
  | failed part =>
    rw [run_bind_of_error htracing]
    exact .failed (part.trans (hgrow _))
  | @returned c middle keys =>
    have hlast := hnext c middle
    rw [keys] at hlast
    rw [run_bind_of_ok htracing]
    exact hlast

theorem traces_remembered (compute : NodeId → List β → Except ε β) (id : NodeId)
    (inputs : List β) :
    Traces (remembered (traced compute) id inputs) (remembered compute id inputs) (id :: ·) := by
  intro memo
  rw [remembered, remembered, traced]
  cases compute id inputs with
  | error e => exact .failed List.suffix_rfl
  | ok value => exact .returned rfl

theorem suffix_postOrderFrom (seen : List NodeId) (root : NodeId) :
    seen <:+ net.postOrderFrom seen root :=
  postOrderFrom_induct (P := fun later => seen <:+ later) root
    (fun _ _ hlater => hlater.trans (List.suffix_cons _ _)) List.suffix_rfl

theorem suffix_foldl_postOrderFrom (seen ids : List NodeId) :
    seen <:+ ids.foldl net.postOrderFrom seen :=
  List.foldlRecOn _ _ List.suffix_rfl fun _ hlater _ _ =>
    hlater.trans (suffix_postOrderFrom _ _)

variable {compute : NodeId → List β → Except ε β}

theorem traces_mapM {ids : List NodeId}
    (h : ∀ j ∈ ids, Traces (net.memoized (traced compute) j) (net.memoized compute j)
      fun seen => net.postOrderFrom seen j) :
    Traces (ids.mapM (net.memoized (traced compute))) (ids.mapM (net.memoized compute))
      fun seen => ids.foldl net.postOrderFrom seen := by
  induction ids with
  | nil => exact traces_pure []
  | cons j ids ih =>
    obtain ⟨hj, hids⟩ := List.forall_mem_cons.mp h
    rw [List.mapM_cons, List.mapM_cons]
    refine hj.bind (fun value => ?_) fun seen => suffix_foldl_postOrderFrom seen ids
    exact (ih hids).bind (fun rest => traces_pure (value :: rest)) fun _ => List.suffix_rfl

theorem lookup_eq_none_iff {memo : Table NodeId β} {id : NodeId} :
    memo.lookup id = none ↔ id ∉ memo.keys := by
  simp only [List.lookup_eq_none_iff, Table.keys, List.mem_map, not_exists, not_and, bne_iff_ne]
  exact ⟨fun h e he => Ne.symm (h e he), fun h e he => Ne.symm (h e he)⟩

variable (net compute) in
/-- A node is computed behind its inputs, unless the memo holds it: in the order of the recursive
traversal. -/
theorem traces_memoized (id : NodeId) :
    Traces (net.memoized (traced compute) id) (net.memoized compute id)
      fun seen => net.postOrderFrom seen id := by
  induction id using Nat.strong_induction_on with
  | h id ih =>
    intro memo
    dsimp only
    cases hlookup : memo.lookup id with
    | some value =>
      have hmem : id ∈ memo.keys := by
        by_contra hnot
        simp [lookup_eq_none_iff.mpr hnot] at hlookup
      rw [run_memoized_of_some hlookup, run_memoized_of_some hlookup, postOrderFrom_of_mem hmem]
      exact .returned rfl
    | none =>
      have hinputs := traces_mapM fun j (hj : j ∈ net.inputs id) => ih j (net.lt_of_mem_inputs hj)
      have hstep := hinputs.bind (traces_remembered compute id) fun _ => List.suffix_cons _ _
      rw [run_memoized_of_none hlookup, run_memoized_of_none hlookup,
        postOrderFrom_of_notMem (lookup_eq_none_iff.mp hlookup)]
      exact hstep memo

/-! ### Whole runs -/

/-- From no notes a step ends as one that takes none, and has computed these nodes in their order, or
a part of them if it fails. -/
structure RunsAlong (order : List NodeId) (tracing : Tracing ε γ) (silent : Except ε γ) : Prop where
  outcome : (tracing.run.run []).1 = silent
  computed : (tracing.run.run []).2.reverse <+: order
  complete : ∀ c, silent = .ok c → (tracing.run.run []).2.reverse = order

theorem RunsAlong.map {nodes : List NodeId} {tracing : Tracing ε γ} {silent : Except ε γ}
    (h : RunsAlong nodes tracing silent) (f : γ → δ) :
    RunsAlong nodes (f <$> tracing) (f <$> silent) := by
  obtain ⟨rfl, computed, complete⟩ := h
  constructor
  · rw [run_map]
    rfl
  · rwa [run_map]
  · intro d hd
    rw [run_map]
    cases hrun : (tracing.run.run []).1 with
    | error e => rw [hrun] at hd; cases hd
    | ok c => exact complete c hrun

theorem runsAlong_error (nodes : List NodeId) (e : ε) :
    RunsAlong nodes (throw e : Tracing ε γ) (.error e) :=
  ⟨rfl, List.nil_prefix, fun _ h => nomatch h⟩

variable (net compute) in
theorem runsAlong_memoized (root : NodeId) :
    RunsAlong (net.walk root) ((net.memoized (traced compute) root).run' [])
      ((net.memoized compute root).run' []) := by
  have hends := net.traces_memoized compute root []
  rw [walk_eq_postOrder, postOrder, StateT.run'_eq, StateT.run'_eq]
  refine RunsAlong.map ?_ _
  change EndsAlike (net.postOrderFrom [] root) _
    (((net.memoized (traced compute) root).run []).run.run []) at hends
  generalize (net.memoized compute root).run [] = outcome at hends ⊢
  generalize hresult : ((net.memoized (traced compute) root).run []).run.run [] = result at hends
  cases hends with
  | failed part =>
    refine ⟨by rw [hresult], ?_, ?_⟩
    · rw [hresult]
      exact List.reverse_prefix.mpr part
    · intro _ hvalue
      contradiction
  | returned keys =>
    exact ⟨by rw [hresult], by rw [hresult], fun _ _ => by rw [hresult]⟩

end

/-! ### Tensors -/

section

variable {m : Type → Type} [Monad m] [MonadExceptOf EvaluationError m]
variable {α : Type} [Scalar α] (net : Network α) (images : ImageTable α) (uv : GivenTensor α)
  (root : NodeId)

/-- The values of `root` over a tensor of coordinates, as a tensor, with any recursion through the
nodes. -/
def tensorBy (recursion : ∀ β : Type, (NodeId → List β → Except EvaluationError β) → m β) :
    m (Tensor α) := do
  let grid ← liftExcept (UvGrid.ofGiven uv)
  Block.tensor <$> if net.isRegular root then
    Block.mk grid.lengths <$> recursion _ (net.nodeSamples images grid)
  else recursion _ (net.nodeBlock images grid)

/-- The tensor from the recursion without a memo. -/
def plainTensor : Except EvaluationError (Tensor α) :=
  net.tensorBy images uv root fun _ compute => net.recomputed compute root

/-- The tensor from the recursion with a memo, and notes of what it computes. -/
def tracedTensor : Tracing EvaluationError (Tensor α) :=
  net.tensorBy images uv root fun _ compute => (net.memoized (traced compute) root).run' []

theorem evaluateTensor_eq : net.evaluateTensor images uv root =
    net.tensorBy images uv root fun _ compute => (net.memoized compute root).run' [] := by
  simp only [evaluateTensor, tensorBy, evaluate_eq_plainValues, plainValues_eq_recomputed,
    block_eq_recomputed, run'_memoized]
  cases UvGrid.ofGiven uv with
  | error e => rfl
  | ok grid =>
    cases net.isRegular root <;>
      exact (map_eq_pure_bind (m := Except EvaluationError) Block.tensor _).symm

theorem plainTensor_eq : net.plainTensor images uv root = net.evaluateTensor images uv root := by
  simp only [evaluateTensor_eq, plainTensor, run'_memoized]

variable {net images uv root} in
theorem runsAlong_tensorBy
    {loud : ∀ β : Type, (NodeId → List β → Except EvaluationError β) → Tracing EvaluationError β}
    {silent : ∀ β : Type, (NodeId → List β → Except EvaluationError β) → Except EvaluationError β}
    {nodes : List NodeId} (h : ∀ β compute, RunsAlong nodes (loud β compute) (silent β compute)) :
    RunsAlong nodes (net.tensorBy images uv root loud) (net.tensorBy images uv root silent) := by
  unfold tensorBy
  cases UvGrid.ofGiven uv with
  | error e => exact runsAlong_error nodes e
  | ok grid =>
    refine RunsAlong.map ?_ Block.tensor
    cases net.isRegular root with
    | true => exact (h _ _).map _
    | false => exact h _ _

/-- Evaluating with a memo gives the tensor, or fails for the reason, that evaluating every input of
every node anew does. On the way it computes nodes at and below the root only, none of them twice: on
a success all of them in the order of the walk, on a failure the first of them. -/
theorem evaluateTensor_computesOnce :
    net.evaluateTensor images uv root = net.plainTensor images uv root ∧
    ∃ computed, (net.tracedTensor images uv root).run.run [] =
        (net.evaluateTensor images uv root, computed) ∧
      computed.Nodup ∧ (∀ id ∈ computed, net.Below root id) ∧
      computed.reverse <+: net.walk root ∧
      ∀ tensor, net.evaluateTensor images uv root = .ok tensor →
        computed.reverse = net.walk root := by
  have hruns : RunsAlong (net.walk root) (net.tracedTensor images uv root)
      (net.evaluateTensor images uv root) := by
    rw [evaluateTensor_eq]
    exact runsAlong_tensorBy fun _ compute => net.runsAlong_memoized compute root
  refine ⟨(net.plainTensor_eq images uv root).symm, _, Prod.ext hruns.outcome rfl, ?_, ?_,
    hruns.computed, hruns.complete⟩
  · exact List.nodup_reverse.mp (hruns.computed.sublist.nodup (net.ordered_walk root).nodup)
  · intro id hid
    exact mem_walk_iff.mp (hruns.computed.subset (List.mem_reverse.mpr hid))

end

end Network

end ShadeGraph
