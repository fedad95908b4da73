import ShadeGraph.Exchange.Textures
import ShadeGraph.Proofs.Network.Walk

/-!
# The paths of texture nodes

Pointing a texture node to another file changes nothing but its path. So the nodes below an exit stay
the same, and a node that is no texture is never touched.
-/

namespace ShadeGraph.Network

variable {α : Type} {net : Network α} {id : NodeId} {path : String}

/-- The path of a texture node. -/
def pathAt? (net : Network α) (id : NodeId) : Option String :=
  ((net.get? id).bind (·.operation.texture?)).map (·.texturePath)

theorem pathAt?_eq_some_iff : net.pathAt? id = some path ↔ ∃ node lookup,
    net.get? id = some node ∧ node.operation = .texture lookup ∧ lookup.texturePath = path := by
  simp only [pathAt?, Option.map_eq_some_iff, Option.bind_eq_some_iff]
  constructor
  · rintro ⟨lookup, ⟨node, hnode, htexture⟩, hpath⟩
    refine ⟨node, lookup, hnode, ?_, hpath⟩
    cases hoperation : node.operation with
    | texture t =>
      rw [hoperation] at htexture
      exact congrArg Operation.texture (Option.some.inj htexture)
    | _ => rw [hoperation] at htexture; contradiction
  · rintro ⟨node, lookup, hnode, hoperation, hpath⟩
    exact ⟨lookup, ⟨node, hnode, by rw [hoperation]; rfl⟩, hpath⟩

theorem lt_size_of_pathAt? (h : net.pathAt? id = some path) : id < net.size := by
  obtain ⟨node, _, hnode, _⟩ := pathAt?_eq_some_iff.mp h
  exact lt_size_of_get? hnode

theorem mem_texturePaths_iff {exit : NodeId} :
    (id, path) ∈ net.texturePaths exit ↔
      net.Below exit id ∧ net.pathAt? id = some path ∧ path ≠ "" := by
  have hpaths : net.texturePaths exit = (net.walk exit).filterMap fun j =>
      (net.pathAt? j).bind fun p => if p.isEmpty then none else some (j, p) := by
    unfold texturePaths pathAt?
    congr 1
    funext j
    rw [Option.bind_map]
    exact (Option.bind_assoc _ _ _).symm
  simp only [hpaths, List.mem_filterMap, mem_walk_iff, Option.bind_eq_some_iff,
    Option.ite_none_left_eq_some, Option.some.injEq, Prod.mk.injEq, String.isEmpty_iff]
  constructor
  · rintro ⟨_, hbelow, _, hpath, hempty, rfl, rfl⟩
    exact ⟨hbelow, hpath, hempty⟩
  · rintro ⟨hbelow, hpath, hempty⟩
    exact ⟨id, hbelow, path, hpath, hempty, rfl, rfl⟩

/-! ### Another path -/

theorem setTexturePath_of_texture {node : Node α} {lookup : TextureLookup α}
    (h : net.get? id = some node) (htexture : node.operation = .texture lookup) :
    net.setTexturePath id path =
      net.setOperation id (.texture { lookup with texturePath := path }) := by
  simp only [setTexturePath, h, htexture]

theorem setTexturePath_of_none (h : net.pathAt? id = none) : net.setTexturePath id path = net := by
  unfold setTexturePath
  cases hnode : net.get? id with
  | none => rfl
  | some node =>
    cases hoperation : node.operation with
    | texture lookup =>
      have hsome := pathAt?_eq_some_iff.mpr ⟨node, lookup, hnode, hoperation, rfl⟩
      exact absurd (h.symm.trans hsome) (by simp)
    | _ => simp only [hoperation]

theorem get?_setOperation (j : NodeId) (operation : Operation α) :
    (net.setOperation id operation).get? j =
      if id = j then (net.get? j).map fun node => { node with operation } else net.get? j := by
  rw [get?, setOperation, Array.getElem?_modify]
  rfl

/-- Pointing to another file either exchanges the lookup of a texture or does nothing. -/
theorem setTexturePath_cases (net : Network α) (id : NodeId) (path : String) :
    (∃ node lookup, net.get? id = some node ∧ node.operation = .texture lookup ∧
      net.setTexturePath id path =
        net.setOperation id (.texture { lookup with texturePath := path })) ∨
    net.pathAt? id = none ∧ net.setTexturePath id path = net := by
  cases h : net.pathAt? id with
  | none => exact .inr ⟨rfl, setTexturePath_of_none h⟩
  | some old =>
    obtain ⟨node, lookup, hnode, hoperation, _⟩ := pathAt?_eq_some_iff.mp h
    exact .inl ⟨node, lookup, hnode, hoperation, setTexturePath_of_texture hnode hoperation⟩

@[simp] theorem size_setTexturePath (id : NodeId) (path : String) :
    (net.setTexturePath id path).size = net.size := by
  rcases setTexturePath_cases net id path with ⟨_, _, _, _, h⟩ | ⟨_, h⟩
  · rw [h, size_setOperation]
  · rw [h]

@[simp] theorem inputs_setTexturePath (id j : NodeId) (path : String) :
    (net.setTexturePath id path).inputs j = net.inputs j := by
  rcases setTexturePath_cases net id path with ⟨_, _, _, _, h⟩ | ⟨_, h⟩
  · rw [h, inputs_setOperation]
  · rw [h]

theorem pathAt?_setTexturePath (id j : NodeId) (path : String) :
    (net.setTexturePath id path).pathAt? j =
      if id = j then (net.pathAt? j).map fun _ => path else net.pathAt? j := by
  rcases setTexturePath_cases net id path with ⟨node, lookup, hnode, hoperation, h⟩ | ⟨hnone, h⟩
  · rw [h, pathAt?, get?_setOperation]
    split_ifs with hj
    · subst hj
      rw [hnode, pathAt?, hnode]
      simp [Operation.texture?, hoperation]
    · rfl
  · rw [h]
    split_ifs with hj
    · rw [← hj, hnone]
      rfl
    · rfl

theorem get?_setTexturePath_of_plain {j : NodeId} {node : Node α} (h : net.get? j = some node)
    (hplain : node.operation.texture? = none) (id : NodeId) (path : String) :
    (net.setTexturePath id path).get? j = some node := by
  rcases setTexturePath_cases net id path with ⟨other, lookup, hother, hoperation, hset⟩ | ⟨_, hset⟩
  · rw [hset, get?_setOperation, if_neg, h]
    rintro rfl
    obtain rfl := Option.some.inj (h.symm.trans hother)
    rw [hoperation] at hplain
    contradiction
  · rw [hset, h]

/-! ### Another node -/

theorem pathAt?_insert_of_lt (node : Node α) (h : id < net.size) :
    (net.insert node).pathAt? id = net.pathAt? id := by
  rw [pathAt?, pathAt?, get?_insert_of_lt _ h]

theorem inputs_insert_of_lt (node : Node α) (h : id < net.size) :
    (net.insert node).inputs id = net.inputs id := by
  rw [inputs, inputs, get?_insert_of_lt _ h]

theorem Below.congr {a b : Network α} {root : NodeId} (h : a.Below root id)
    (hinputs : ∀ j ≤ root, b.inputs j = a.inputs j) : b.Below root id := by
  induction h with
  | refl => exact .refl
  | tail hbelow hlast ih =>
    apply ih.tail
    rwa [hinputs _ (Below.le hbelow)]

end ShadeGraph.Network
