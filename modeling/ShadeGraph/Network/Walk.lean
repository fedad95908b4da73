import ShadeGraph.Network.Basic

/-!
# Walking a network

`Network.walk` lists every node below a root once, inputs before consumers, with a stack of nodes
that are still to be entered or left. `Network.postOrder` is the recursive traversal that skips what
it has seen.
-/

namespace ShadeGraph.Network

variable {α : Type} (net : Network α)

/-- The size of the tree that a node unfolds to, with a step for entering and one for leaving each
of its nodes. -/
def unfoldedSize (id : NodeId) : Nat :=
  (net.inputs id).attach.foldr (fun j n => unfoldedSize j.1 + n) 2
termination_by id
decreasing_by exact net.lt_of_mem_inputs j.2

/-- The steps that `ids` unfold to, on top of `n` others. -/
def unfoldedSteps (ids : List NodeId) (n : Nat) : Nat :=
  ids.foldr (fun id n => net.unfoldedSize id + n) n

theorem unfoldedSize_eq (id : NodeId) : net.unfoldedSize id = net.unfoldedSteps (net.inputs id) 2 := by
  rw [unfoldedSize.eq_1 net id, unfoldedSteps]
  exact List.foldr_attach (l := net.inputs id) (f := fun j n => net.unfoldedSize j + n) (b := 2)

theorem unfoldedSteps_add (ids : List NodeId) (n m : Nat) :
    net.unfoldedSteps ids (n + m) = net.unfoldedSteps ids n + m := by
  induction ids with
  | nil => rfl
  | cons id ids ih =>
    simp only [unfoldedSteps, List.foldr_cons] at ih ⊢
    omega

theorem unfoldedSize_pos (id : NodeId) : 0 < net.unfoldedSize id := by
  rw [unfoldedSize_eq, ← Nat.zero_add 2, unfoldedSteps_add]
  omega

/-- An entry on the stack of a walk. -/
inductive Visit where
  | enter (id : NodeId)
  | leave (id : NodeId)
deriving DecidableEq, Repr

/-- The steps that a stack takes at most. -/
def stackSteps : List Visit → Nat
  | [] => 0
  | .enter id :: stack => net.unfoldedSize id + stackSteps stack
  | .leave _ :: stack => stackSteps stack + 1

/-- The inputs that are still to be entered. -/
def pending (seen : List NodeId) (id : NodeId) : List NodeId :=
  (net.inputs id).filter (· ∉ seen)

theorem stackSteps_enter_le (ids : List NodeId) (p : NodeId → Bool) (stack : List Visit) :
    net.stackSteps ((ids.filter p).map .enter ++ stack) ≤
      net.unfoldedSteps ids (net.stackSteps stack) := by
  induction ids with
  | nil => exact Nat.le_refl _
  | cons id ids ih =>
    simp only [unfoldedSteps, List.foldr_cons, List.filter_cons] at ih ⊢
    split
    · simp only [List.map_cons, List.cons_append, stackSteps]
      omega
    · omega

theorem stackSteps_pending_lt (seen : List NodeId) (id : NodeId) (stack : List Visit) :
    net.stackSteps ((net.pending seen id).map .enter ++ .leave id :: stack) <
      net.stackSteps (.enter id :: stack) := by
  have hle := net.stackSteps_enter_le (net.inputs id) (fun j => decide (j ∉ seen))
    (.leave id :: stack)
  have hleave := net.unfoldedSteps_add (net.inputs id) 0 (net.stackSteps stack + 1)
  have hsize := net.unfoldedSteps_add (net.inputs id) 0 2
  rw [Nat.zero_add] at hleave hsize
  simp only [pending, stackSteps, net.unfoldedSize_eq id] at hle ⊢
  omega

/-- Works off the stack; `seen` holds what was left already, the latest first. -/
def walkFrom : List Visit → List NodeId → List NodeId
  | [], seen => seen.reverse
  | .leave id :: stack, seen =>
    if id ∈ seen then walkFrom stack seen else walkFrom stack (id :: seen)
  | .enter id :: stack, seen =>
    if id ∈ seen then walkFrom stack seen
    else walkFrom ((net.pending seen id).map .enter ++ .leave id :: stack) seen
termination_by stack => net.stackSteps stack
decreasing_by
  · simp [stackSteps]
  · simp [stackSteps]
  · have hpos := net.unfoldedSize_pos id
    simp only [stackSteps]
    omega
  · exact net.stackSteps_pending_lt seen id stack

/-- Every node below `root` once, inputs before consumers. -/
def walk (root : NodeId) : List NodeId := net.walkFrom [.enter root] []

/-- The number of nodes below `root`, itself included. -/
def countNodes (root : NodeId) : Nat := (net.walk root).length

/-- Adds the nodes below `id` to those seen, the latest first. -/
def postOrderFrom (seen : List NodeId) (id : NodeId) : List NodeId :=
  if id ∈ seen then seen
  else id :: (net.inputs id).attach.foldl (fun seen j => postOrderFrom seen j.1) seen
termination_by id
decreasing_by exact net.lt_of_mem_inputs j.2

/-- The nodes below `root` in the order of the recursive traversal. -/
def postOrder (root : NodeId) : List NodeId := (net.postOrderFrom [] root).reverse

end ShadeGraph.Network
