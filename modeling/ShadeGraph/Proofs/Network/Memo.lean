import Mathlib.Tactic
import ShadeGraph.Network.Evaluate
import ShadeGraph.Table

/-!
# With and without a memo

The recursions that give the nodes of a network their values differ only in what they compute at a
node. Here this is a parameter: `Network.memoized` keeps what it has computed and
`Network.recomputed` does not. What a memo holds are the values of its nodes, so both come to the same.
-/

namespace ShadeGraph.Network

variable {α β γ ε : Type} (net : Network α)

section

variable {m : Type → Type} [Monad m] (compute : NodeId → List β → m β)

/-- Computes the value of a node from those of its inputs and keeps it. -/
def remembered (id : NodeId) (inputs : List β) : StateT (Table NodeId β) m β := do
  let value ← compute id inputs
  modify ((id, value) :: ·)
  return value

/-- The value of a node; it is computed only if the memo does not hold it. -/
def memoized (id : NodeId) : StateT (Table NodeId β) m β := do
  match (← get).lookup id with
  | some value => return value
  | none =>
    let inputs ← (net.inputs id).attach.mapM fun j => memoized j.1
    remembered compute id inputs
termination_by id
decreasing_by exact net.lt_of_mem_inputs j.2

/-- The value of a node, each of its inputs computed anew. -/
def recomputed (id : NodeId) : m β := do
  let inputs ← (net.inputs id).attach.mapM fun j => recomputed j.1
  compute id inputs
termination_by id
decreasing_by exact net.lt_of_mem_inputs j.2

variable [LawfulMonad m]

theorem recomputed_eq (id : NodeId) : net.recomputed compute id = (do
    let inputs ← (net.inputs id).mapM (net.recomputed compute)
    compute id inputs) := by
  rw [recomputed, List.mapM_subtype (g := net.recomputed compute) fun _ _ => rfl,
    List.unattach_attach]

variable {net compute}

theorem run_memoized_of_some {id : NodeId} {memo : Table NodeId β} {value : β}
    (h : memo.lookup id = some value) :
    (net.memoized compute id).run memo = pure (value, memo) := by
  rw [memoized]
  simp only [StateT.run_bind, StateT.run_get, pure_bind, h]
  rfl

theorem run_memoized_of_none {id : NodeId} {memo : Table NodeId β} (h : memo.lookup id = none) :
    (net.memoized compute id).run memo = (do
      let inputs ← (net.inputs id).mapM (net.memoized compute)
      remembered compute id inputs).run memo := by
  rw [memoized]
  simp only [StateT.run_bind, StateT.run_get, pure_bind, h]
  rw [List.mapM_subtype (g := net.memoized compute) fun _ _ => rfl, List.unattach_attach]

end

variable {net} {compute : NodeId → List β → Except ε β}

variable (net compute) in
/-- What a memo holds are the values of its nodes. -/
def Right (memo : Table NodeId β) : Prop :=
  ∀ id value, memo.lookup id = some value → net.recomputed compute id = .ok value

variable (net compute) in
/-- From a right memo the step gives what the other one gives without, and a right memo again. -/
def Memoizes (step : StateT (Table NodeId β) (Except ε) γ) (plain : Except ε γ) : Prop :=
  ∀ memo, net.Right compute memo → ∃ later, net.Right compute later ∧
    step.run memo = plain.map fun c => (c, later)

theorem Right.cons {memo : Table NodeId β} {id : NodeId} {value : β} (h : net.Right compute memo)
    (hid : net.recomputed compute id = .ok value) : net.Right compute ((id, value) :: memo) := by
  intro other value' hlookup
  rw [List.lookup_cons] at hlookup
  split at hlookup
  · rename_i hsame
    obtain rfl : other = id := by simpa using hsame
    obtain rfl := Option.some.inj hlookup
    exact hid
  · exact h other value' hlookup

theorem memoizes_pure (c : γ) : Memoizes net compute (pure c) (pure c) :=
  fun memo hmemo => ⟨memo, hmemo, rfl⟩

theorem Memoizes.bind {δ : Type} {step : StateT (Table NodeId β) (Except ε) γ}
    {plain : Except ε γ} {f : γ → StateT (Table NodeId β) (Except ε) δ} {g : γ → Except ε δ}
    (h : Memoizes net compute step plain)
    (hf : ∀ c, plain = .ok c → Memoizes net compute (f c) (g c)) :
    Memoizes net compute (step >>= f) (plain >>= g) := by
  intro memo hmemo
  obtain ⟨middle, hmiddle, hrun⟩ := h memo hmemo
  rw [StateT.run_bind, hrun]
  cases hplain : plain with
  | error e => exact ⟨memo, hmemo, rfl⟩
  | ok c =>
    obtain ⟨later, hlater, hrun'⟩ := hf c hplain middle hmiddle
    exact ⟨later, hlater, hrun'⟩

theorem memoizes_mapM {ids : List NodeId}
    (h : ∀ j ∈ ids, Memoizes net compute (net.memoized compute j) (net.recomputed compute j)) :
    Memoizes net compute (ids.mapM (net.memoized compute))
      (ids.mapM (net.recomputed compute)) := by
  induction ids with
  | nil => exact memoizes_pure []
  | cons j ids ih =>
    obtain ⟨hj, hids⟩ := List.forall_mem_cons.mp h
    rw [List.mapM_cons, List.mapM_cons]
    refine hj.bind fun value _ => ?_
    exact (ih hids).bind fun rest _ => memoizes_pure (value :: rest)

theorem memoizes_remembered {id : NodeId} {inputs : List β}
    (h : net.recomputed compute id = compute id inputs) :
    Memoizes net compute (remembered compute id inputs) (compute id inputs) := by
  intro memo hmemo
  cases hvalue : compute id inputs with
  | error e =>
    refine ⟨memo, hmemo, ?_⟩
    rw [remembered, hvalue]
    rfl
  | ok value =>
    refine ⟨(id, value) :: memo, hmemo.cons (h.trans hvalue), ?_⟩
    rw [remembered, hvalue]
    rfl

variable (net compute) in
/-- A memo makes no difference to the value of a node. -/
theorem memoizes_memoized (id : NodeId) :
    Memoizes net compute (net.memoized compute id) (net.recomputed compute id) := by
  -- Inputs lie below a node, so the memo that is right for them is right for the node.
  induction id using Nat.strong_induction_on with
  | h id ih =>
    intro memo hmemo
    cases hlookup : memo.lookup id with
    | some value =>
      refine ⟨memo, hmemo, ?_⟩
      rw [run_memoized_of_some hlookup, hmemo id value hlookup]
      rfl
    | none =>
      have hplain := net.recomputed_eq compute id
      have hinputs := memoizes_mapM fun j (hj : j ∈ net.inputs id) =>
        ih j (net.lt_of_mem_inputs hj)
      have hstep := hinputs.bind (f := remembered compute id) (g := compute id) fun inputs h =>
        memoizes_remembered (by rw [hplain, h]; rfl)
      rw [run_memoized_of_none hlookup, hplain]
      exact hstep memo hmemo

variable (net compute) in
theorem run'_memoized (root : NodeId) :
    (net.memoized compute root).run' [] = net.recomputed compute root := by
  have hempty : net.Right compute [] := fun _ _ h => nomatch h
  obtain ⟨_, _, hrun⟩ := memoizes_memoized net compute root [] hempty
  rw [StateT.run'_eq, hrun]
  cases net.recomputed compute root <;> rfl

end ShadeGraph.Network
