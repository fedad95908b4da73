import ShadeGraph.Network.Describe
import ShadeGraph.Proofs.Network.Walk

/-!
# The order of writing

The walks from several exits, one after the other, list what is at or below some exit. A node that an
earlier walk has listed is left out, so every node is listed once, and none before its inputs.
-/

namespace ShadeGraph.Network

variable {α : Type}

/-- Every node is listed once and behind all of its inputs. -/
inductive Ordered (net : Network α) : List NodeId → Prop
  | nil : Ordered net []
  | snoc {order id} : Ordered net order → id ∉ order → (∀ j ∈ net.inputs id, j ∈ order) →
    Ordered net (order ++ [id])

/-- A node is at or below one of the exits. -/
def Reachable (net : Network α) (exits : List NodeId) (id : NodeId) : Prop :=
  ∃ exit ∈ exits, net.Below exit id

variable {net : Network α} {order seen exits : List NodeId} {id j : NodeId}

namespace Ordered

theorem nodup (h : net.Ordered order) : order.Nodup := by
  induction h with
  | nil => exact List.nodup_nil
  | snoc _ hnew _ ih => simpa [List.nodup_append] using ⟨ih, fun _ hx heq => hnew (heq ▸ hx)⟩

/-- Inputs come first. -/
theorem idxOf_lt (h : net.Ordered order) (hid : id ∈ order) (hj : j ∈ net.inputs id) :
    j ∈ order ∧ order.idxOf j < order.idxOf id := by
  induction h with
  | nil => exact absurd hid List.not_mem_nil
  | @snoc order last _ hnew hinputs ih =>
    by_cases hold : id ∈ order
    · obtain ⟨hmem, hlt⟩ := ih hold
      rw [List.idxOf_append_of_mem hmem, List.idxOf_append_of_mem hold]
      exact ⟨List.mem_append_left _ hmem, hlt⟩
    · obtain rfl : id = last := by simpa [hold] using hid
      have hmem := hinputs j hj
      rw [List.idxOf_append_of_mem hmem, List.idxOf_append_of_notMem hold]
      exact ⟨List.mem_append_left _ hmem,
        (List.idxOf_lt_length_of_mem hmem).trans_le (Nat.le_add_right _ _)⟩

/-- What the second list adds to the first one may follow it. -/
theorem append_filter (hseen : net.Ordered seen) (h : net.Ordered order) :
    net.Ordered (seen ++ order.filter (· ∉ seen)) := by
  induction h with
  | nil => simpa using hseen
  | @snoc order id _ hnew hinputs ih =>
    by_cases hid : id ∈ seen
    · simpa [hid] using ih
    · have hkept : (order ++ [id]).filter (· ∉ seen) = order.filter (· ∉ seen) ++ [id] := by
        simp [hid]
      rw [hkept, ← List.append_assoc]
      apply ih.snoc
      · simp [hid, hnew]
      · intro j hj
        have hmem := hinputs j hj
        by_cases hold : j ∈ seen <;> simp [hold, hmem]

end Ordered

theorem ordered_postOrder (root : NodeId) : net.Ordered (net.postOrder root) := by
  refine postOrderFrom_induct (P := fun seen => net.Ordered seen.reverse) root ?_ .nil
  intro seen id _ hid hinputs
  rw [List.reverse_cons]
  apply hinputs.snoc
  · simpa using notMem_foldl_postOrderFrom hid
  · intro j hj
    simpa using mem_foldl_postOrderFrom hj

variable (net) in
theorem ordered_walk (root : NodeId) : net.Ordered (net.walk root) := by
  rw [walk_eq_postOrder]
  exact ordered_postOrder root

theorem ordered_reachable (exits : List NodeId) : net.Ordered (net.reachable exits) := by
  rw [reachable]
  apply List.foldlRecOn _ _ Ordered.nil
  intro seen hseen exit _
  rw [walk_eq_postOrder]
  exact hseen.append_filter (ordered_postOrder exit)

theorem mem_reachable_iff : id ∈ net.reachable exits ↔ net.Reachable exits id := by
  have hfold (seen : List NodeId) :
      id ∈ exits.foldl (fun seen exit => seen ++ (net.walk exit).filter (· ∉ seen)) seen ↔
        id ∈ seen ∨ net.Reachable exits id := by
    induction exits generalizing seen with
    | nil => simp [Reachable]
    | cons exit exits ih =>
      rw [List.foldl_cons, ih]
      by_cases hid : id ∈ seen <;> simp [Reachable, mem_walk_iff, hid]
  rw [reachable, hfold, or_iff_right List.not_mem_nil]

theorem exit_mem_reachable (net : Network α) (channels : List (String × NodeId)) :
    ∀ c ∈ channels, c.2 ∈ net.reachable (channels.map (·.2)) := by
  intro c hc
  exact mem_reachable_iff.mpr ⟨c.2, List.mem_map_of_mem hc, .refl⟩

/-- Below exits in the table there are only nodes of the table. -/
theorem lt_size_of_mem_reachable (h : ∀ exit ∈ exits, exit < net.size) :
    ∀ id ∈ net.reachable exits, id < net.size := by
  intro id hid
  obtain ⟨exit, hexit, hbelow⟩ := mem_reachable_iff.mp hid
  exact hbelow.le.trans_lt (h exit hexit)

end ShadeGraph.Network
