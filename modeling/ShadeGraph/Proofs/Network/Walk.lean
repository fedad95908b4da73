import ShadeGraph.Network.Walk
import ShadeGraph.Proofs.Network.Values

/-!
# What a walk lists

The walk with a stack lists the nodes in the order of the recursive traversal, which are those at and
below the root. An input lies before its consumer, so nothing is left on the stack that a node waits
for.
-/

namespace ShadeGraph.Network

variable {α : Type} {net : Network α} {seen : List NodeId} {root id : NodeId}

/-! ### The recursive traversal -/

theorem postOrderFrom_of_mem (h : root ∈ seen) : net.postOrderFrom seen root = seen := by
  rw [postOrderFrom, if_pos h]

theorem postOrderFrom_of_notMem (h : root ∉ seen) :
    net.postOrderFrom seen root = root :: (net.inputs root).foldl net.postOrderFrom seen := by
  rw [postOrderFrom, if_neg h]
  exact congrArg (root :: ·) (List.foldl_attach (l := net.inputs root) (f := net.postOrderFrom))

/-- What one node after the other preserves holds behind a traversal, with the root on top. -/
theorem postOrderFrom_induct {P : List NodeId → Prop} (root : NodeId)
    (hcons : ∀ {seen id}, net.Below root id → id ∉ seen →
      P ((net.inputs id).foldl net.postOrderFrom seen) →
      P (id :: (net.inputs id).foldl net.postOrderFrom seen))
    (hseen : P seen) : P (net.postOrderFrom seen root) := by
  induction root using Nat.strong_induction_on generalizing seen with
  | h root ih =>
    by_cases hroot : root ∈ seen
    · rwa [postOrderFrom_of_mem hroot]
    · rw [postOrderFrom_of_notMem hroot]
      apply hcons .refl hroot
      apply List.foldlRecOn _ _ hseen
      intro later hlater j hj
      exact ih j (net.lt_of_mem_inputs hj) (fun hbelow => hcons (.head hj hbelow)) hlater

theorem mem_postOrderFrom_of_mem (h : id ∈ seen) : id ∈ net.postOrderFrom seen root :=
  postOrderFrom_induct (P := fun later => id ∈ later) root
    (fun _ _ hlater => List.mem_cons_of_mem _ hlater) h

theorem root_mem_postOrderFrom : root ∈ net.postOrderFrom seen root := by
  by_cases h : root ∈ seen
  · rwa [postOrderFrom_of_mem h]
  · rw [postOrderFrom_of_notMem h]
    exact List.mem_cons_self

theorem below_of_mem_postOrderFrom (h : id ∈ net.postOrderFrom seen root) :
    id ∈ seen ∨ net.Below root id := by
  refine postOrderFrom_induct (P := fun later => id ∈ later → id ∈ seen ∨ net.Below root id) root
    ?_ .inl h
  intro later x hbelow _ hlater hid
  rcases List.mem_cons.mp hid with rfl | hid
  · exact .inr hbelow
  · exact hlater hid

theorem mem_foldl_postOrderFrom {ids : List NodeId} (h : id ∈ ids) :
    id ∈ ids.foldl net.postOrderFrom seen := by
  induction ids generalizing seen with
  | nil => exact absurd h List.not_mem_nil
  | cons j ids ih =>
    rw [List.foldl_cons]
    rcases List.mem_cons.mp h with rfl | h
    · exact List.foldlRecOn (motive := fun later => id ∈ later) _ _ root_mem_postOrderFrom
        fun _ hlater _ _ => mem_postOrderFrom_of_mem hlater
    · exact ih h

/-- No traversal of inputs comes back to their consumer. -/
theorem notMem_foldl_postOrderFrom (h : id ∉ seen) :
    id ∉ (net.inputs id).foldl net.postOrderFrom seen := by
  apply List.foldlRecOn (motive := fun later => id ∉ later) _ _ h
  intro later hlater j hj hmem
  have hle := ((below_of_mem_postOrderFrom hmem).resolve_left hlater).le
  exact absurd (net.lt_of_mem_inputs hj) (Nat.not_lt.mpr hle)

/-- All inputs of these nodes are among them. -/
def Closed (net : Network α) (seen : List NodeId) : Prop :=
  ∀ id ∈ seen, ∀ j ∈ net.inputs id, j ∈ seen

theorem closed_postOrderFrom (h : net.Closed seen) : net.Closed (net.postOrderFrom seen root) := by
  refine postOrderFrom_induct (P := net.Closed) root ?_ h
  intro later x _ _ hlater id hid j hj
  rcases List.mem_cons.mp hid with rfl | hid
  · exact List.mem_cons_of_mem _ (mem_foldl_postOrderFrom hj)
  · exact List.mem_cons_of_mem _ (hlater id hid j hj)

theorem mem_postOrder_iff : id ∈ net.postOrder root ↔ net.Below root id := by
  rw [postOrder, List.mem_reverse]
  constructor
  · intro h
    exact (below_of_mem_postOrderFrom h).resolve_left List.not_mem_nil
  · intro h
    have hclosed : net.Closed (net.postOrderFrom [] root) :=
      closed_postOrderFrom fun _ hid => absurd hid List.not_mem_nil
    induction h with
    | refl => exact root_mem_postOrderFrom
    | tail _ hlast ih => exact hclosed _ ih _ hlast

/-! ### With a stack -/

theorem walkFrom_enter_of_mem (h : id ∈ seen) (stack : List Visit) :
    net.walkFrom (.enter id :: stack) seen = net.walkFrom stack seen := by
  rw [walkFrom, if_pos h]

/-- Inputs that were seen before are not entered, and the traversal skips them. -/
theorem walkFrom_pending {ids later : List NodeId} (stack : List Visit)
    (h : ∀ j ∈ ids, ∀ (stack : List Visit) (seen : List NodeId),
      net.walkFrom (.enter j :: stack) seen = net.walkFrom stack (net.postOrderFrom seen j))
    (hlater : ∀ j ∈ seen, j ∈ later) :
    net.walkFrom ((ids.filter (· ∉ seen)).map .enter ++ stack) later =
      net.walkFrom stack (ids.foldl net.postOrderFrom later) := by
  induction ids generalizing later with
  | nil => rfl
  | cons j ids ih =>
    obtain ⟨hj, hids⟩ := List.forall_mem_cons.mp h
    rw [List.foldl_cons]
    by_cases hseen : j ∈ seen
    · rw [List.filter_cons_of_neg (by simpa using hseen), postOrderFrom_of_mem (hlater j hseen)]
      exact ih hids hlater
    · rw [List.filter_cons_of_pos (by simpa using hseen), List.map_cons, List.cons_append, hj]
      exact ih hids fun x hx => mem_postOrderFrom_of_mem (hlater x hx)

/-- Entering a node works off what the recursive traversal adds. -/
theorem walkFrom_enter (id : NodeId) (stack : List Visit) (seen : List NodeId) :
    net.walkFrom (.enter id :: stack) seen = net.walkFrom stack (net.postOrderFrom seen id) := by
  induction id using Nat.strong_induction_on generalizing stack seen with
  | h id ih =>
    by_cases hid : id ∈ seen
    · rw [walkFrom_enter_of_mem hid, postOrderFrom_of_mem hid]
    · have hleft : id ∉ (net.inputs id).foldl net.postOrderFrom seen :=
        notMem_foldl_postOrderFrom hid
      have hbelow : ∀ j ∈ net.inputs id, ∀ (stack : List Visit) (seen : List NodeId),
          net.walkFrom (.enter j :: stack) seen = net.walkFrom stack (net.postOrderFrom seen j) :=
        fun j hj => ih j (net.lt_of_mem_inputs hj)
      have hinputs := walkFrom_pending (.leave id :: stack) hbelow fun _ (hj : _ ∈ seen) => hj
      rw [walkFrom, if_neg hid, pending, hinputs, postOrderFrom_of_notMem hid, walkFrom,
        if_neg hleft]

theorem walk_eq_postOrder (root : NodeId) : net.walk root = net.postOrder root := by
  rw [walk, walkFrom_enter, walkFrom, postOrder]

theorem mem_walk_iff : id ∈ net.walk root ↔ net.Below root id := by
  rw [walk_eq_postOrder, mem_postOrder_iff]

end ShadeGraph.Network
