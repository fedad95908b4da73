import ShadeGraph.Proofs.Registry.Registration

/-!
# Live materials by handle

Where handles tell the materials apart, a scene that is made of some roots holds all that they lead
to, each under its own handle. It meets the materials in the order in which they are registered.
-/

namespace ShadeGraph

namespace HostTable

variable {α : Type} (hosts : HostTable α)

/-- Among all that the roots lead to, the handle tells which material it is. -/
def DistinctHandles (roots : List HostId) : Prop :=
  ∀ a b, hosts.Reached roots a → hosts.Reached roots b →
    (hosts.get a).handle = (hosts.get b).handle → a = b

/-- What the roots lead to, in the order of exploring it. -/
abbrev explore (roots : List HostId) : List HostId :=
  roots.foldl (hosts.exploreWithin (hosts.size + 1)) []

variable {hosts} {roots : List HostId}

theorem DistinctHandles.distinctKeys (h : hosts.DistinctHandles roots) :
    hosts.DistinctKeys roots :=
  fun a b ha hb hkey => h a b ha hb (congrArg MaterialKey.handle hkey)

theorem distinctHandles_of_closed (known : List HostId) (hroots : ∀ root ∈ roots, root ∈ known)
    (hclosed : ∀ id ∈ known, ∀ e ∈ hosts.followed id, e.2 ∈ known)
    (hhandles : (known.map fun id => (hosts.get id).handle).Nodup) :
    hosts.DistinctHandles roots := by
  intro a b ha hb hsame
  have hinjective := List.inj_on_of_nodup_map hhandles
  exact hinjective (ha.mem known hroots hclosed) (hb.mem known hroots hclosed) hsame

theorem reached_exploreWithin {depth : Nat} {seen : List HostId} {id : HostId}
    (hseen : ∀ x ∈ seen, hosts.Reached roots x) (hid : hosts.Reached roots id) :
    ∀ x ∈ hosts.exploreWithin depth seen id, hosts.Reached roots x := by
  induction depth generalizing seen id with
  | zero => exact hseen
  | succ depth ih =>
    rw [exploreWithin]
    split_ifs
    · exact hseen
    · have hfold (es : List (Nat × HostId)) (later : List HostId)
          (hes : ∀ e ∈ es, hosts.Reached roots e.2) (hlater : ∀ x ∈ later, hosts.Reached roots x) :
          ∀ x ∈ es.foldl (fun seen e => hosts.exploreWithin depth seen e.2) later,
            hosts.Reached roots x := by
        induction es generalizing later with
        | nil => exact hlater
        | cons e es ihes =>
          obtain ⟨he, hes⟩ := List.forall_mem_cons.mp hes
          exact ihes _ hes (ih hlater he)
      have hslots : ∀ e ∈ hosts.followed id, hosts.Reached roots e.2 := by
        intro e (he : hosts.Slot id e.1 e.2)
        exact hid.slot he
      apply hfold _ _ hslots
      exact List.forall_mem_append.mpr ⟨hseen, by simpa using hid⟩

end HostTable

namespace HostScene

open HostTable

variable {α : Type} {hosts : HostTable α} {roots seen : List HostId} {depth : Nat} {id : HostId}

/-- The scene with these materials. -/
def holding (hosts : HostTable α) (ids : List HostId) : HostScene :=
  ⟨ids.map fun id => ((hosts.get id).handle, id)⟩

theorem keys_holding (ids : List HostId) :
    (holding hosts ids).byHandle.keys = ids.map fun id => (hosts.get id).handle :=
  List.map_map

theorem contains_holding_iff (hhandles : hosts.DistinctHandles roots)
    (hseen : ∀ x ∈ seen, hosts.Reached roots x) (hid : hosts.Reached roots id) :
    (holding hosts seen).byHandle.contains (hosts.get id).handle = true ↔ id ∈ seen := by
  rw [← Bool.not_eq_false, Table.contains_eq_false_iff, not_not, keys_holding]
  constructor
  · intro hmem
    obtain ⟨x, hx, hsame⟩ := List.mem_map.mp hmem
    rwa [← hhandles x id (hseen x hx) hid hsame]
  · exact fun hmem => List.mem_map.mpr ⟨id, hmem, rfl⟩

theorem insert_holding (hhandles : hosts.DistinctHandles roots)
    (hseen : ∀ x ∈ seen, hosts.Reached roots x) (hid : hosts.Reached roots id) (hnew : id ∉ seen) :
    ⟨(holding hosts seen).byHandle.insert (hosts.get id).handle id⟩ =
      holding hosts (seen ++ [id]) := by
  have hcontains := (contains_holding_iff hhandles hseen hid).not.mpr hnew
  rw [Table.insert_of_notMem (Table.contains_eq_false_iff.mp (Bool.eq_false_iff.mpr hcontains)),
    holding, holding, List.map_append]
  rfl

theorem insert_holding_of_mem (hhandles : hosts.DistinctHandles roots)
    (hseen : ∀ x ∈ seen, hosts.Reached roots x) (hid : id ∈ seen) :
    ⟨(holding hosts seen).byHandle.insert (hosts.get id).handle id⟩ = holding hosts seen := by
  rw [Table.insert, if_pos ((contains_holding_iff hhandles hseen (hseen id hid)).mpr hid), holding,
    List.map_map]
  congr 1
  apply List.map_congr_left
  intro x hx
  dsimp only [Function.comp]
  split_ifs with hsame
  · obtain rfl := hhandles x id (hseen x hx) (hseen id hid) hsame
    rfl
  · rfl

theorem reached_of_mem_filledSlots (hid : hosts.Reached roots id) {e : Nat × HostId}
    (he : e ∈ (hosts.get id).filledSlots) : hosts.Reached roots e.2 := by
  by_cases hself : e.2 = id
  · rwa [hself]
  · have hslot : hosts.Slot id e.1 e.2 := List.mem_filter.mpr ⟨he, decide_eq_true hself⟩
    exact hid.slot hslot

/-- Adds the material in a slot unless its handle is there. -/
def addNew (hosts : HostTable α) (depth : Nat) (scene : HostScene) (e : Nat × HostId) : HostScene :=
  if scene.byHandle.contains (hosts.get e.2).handle then scene else addWithin hosts depth scene e.2

theorem addWithin_succ (depth : Nat) (scene : HostScene) (id : HostId) :
    addWithin hosts (depth + 1) scene id = (hosts.get id).filledSlots.foldl (addNew hosts depth)
      ⟨scene.byHandle.insert (hosts.get id).handle id⟩ := rfl

theorem addNew_holding_of_mem (hhandles : hosts.DistinctHandles roots)
    (hseen : ∀ x ∈ seen, hosts.Reached roots x) {e : Nat × HostId} (he : e.2 ∈ seen) :
    addNew hosts depth (holding hosts seen) e = holding hosts seen :=
  if_pos ((contains_holding_iff hhandles hseen (hseen e.2 he)).mpr he)

/-- Adding new materials explores. -/
def Explores (hosts : HostTable α) (roots : List HostId) (depth : Nat) : Prop :=
  ∀ {seen : List HostId} {id : HostId}, (∀ x ∈ seen, hosts.Reached roots x) →
    hosts.Reached roots id → id ∉ seen →
    addWithin hosts depth (holding hosts seen) id =
      holding hosts (hosts.exploreWithin depth seen id)

theorem addNew_holding (hhandles : hosts.DistinctHandles roots)
    (hexplores : Explores hosts roots depth) (hseen : ∀ x ∈ seen, hosts.Reached roots x)
    {e : Nat × HostId} (he : hosts.Reached roots e.2) :
    addNew hosts depth (holding hosts seen) e =
      holding hosts (hosts.exploreWithin depth seen e.2) := by
  by_cases hold : e.2 ∈ seen
  · have hsame : hosts.exploreWithin depth seen e.2 = seen := by
      cases depth with
      | zero => rfl
      | succ depth => rw [exploreWithin, if_pos (List.mem_map_of_mem hold)]
    rw [addNew_holding_of_mem hhandles hseen hold, hsame]
  · rw [addNew, if_neg ((contains_holding_iff hhandles hseen he).not.mpr hold)]
    exact hexplores hseen he hold

/-- A slot with the material itself finds its handle, which was added first. -/
theorem foldl_addNew_holding (hhandles : hosts.DistinctHandles roots)
    (hexplores : Explores hosts roots depth) (es : List (Nat × HostId))
    (hes : ∀ e ∈ es, hosts.Reached roots e.2) (hseen : ∀ x ∈ seen, hosts.Reached roots x)
    (hid : id ∈ seen) :
    es.foldl (addNew hosts depth) (holding hosts seen) =
      holding hosts ((es.filter fun (_, sub) => sub ≠ id).foldl
        (fun seen e => hosts.exploreWithin depth seen e.2) seen) := by
  induction es generalizing seen with
  | nil => rfl
  | cons e es ih =>
    obtain ⟨he, hes⟩ := List.forall_mem_cons.mp hes
    rw [List.foldl_cons]
    by_cases hself : e.2 = id
    · rw [List.filter_cons_of_neg (by simpa using hself),
        addNew_holding_of_mem hhandles hseen (hself ▸ hid)]
      exact ih hes hseen hid
    · rw [List.filter_cons_of_pos (by simpa using hself), List.foldl_cons,
        addNew_holding hhandles hexplores hseen he]
      exact ih hes (reached_exploreWithin hseen he)
        ((prefix_exploreWithin hosts depth seen e.2).subset hid)

theorem explores (hhandles : hosts.DistinctHandles roots) (depth : Nat) :
    Explores hosts roots depth := by
  induction depth with
  | zero => exact fun _ _ _ => rfl
  | succ depth ih =>
    intro seen id hseen hid hnew
    have hkey : hosts.key id ∉ seen.map hosts.key :=
      (hhandles.distinctKeys.key_mem_iff hseen hid).not.mpr hnew
    rw [addWithin_succ, exploreWithin, if_neg hkey, insert_holding hhandles hseen hid hnew]
    apply foldl_addNew_holding hhandles ih
    · exact fun e he => reached_of_mem_filledSlots hid he
    · exact List.forall_mem_append.mpr ⟨hseen, by simpa using hid⟩
    · exact List.mem_append_right _ (List.mem_singleton_self id)

/-- Adding a material again changes nothing if all in its slots is there. -/
theorem addWithin_holding_of_mem (hhandles : hosts.DistinctHandles roots) (depth : Nat)
    (hseen : ∀ x ∈ seen, hosts.Reached roots x) (hid : id ∈ seen)
    (hclosed : ∀ e ∈ (hosts.get id).filledSlots, e.2 ∈ seen) :
    addWithin hosts depth (holding hosts seen) id = holding hosts seen := by
  cases depth with
  | zero => rfl
  | succ depth =>
    rw [addWithin_succ, insert_holding_of_mem hhandles hseen hid]
    generalize (hosts.get id).filledSlots = es at hclosed
    induction es with
    | nil => rfl
    | cons e es ih =>
      obtain ⟨he, hclosed⟩ := List.forall_mem_cons.mp hclosed
      rw [List.foldl_cons, addNew_holding_of_mem hhandles hseen he]
      exact ih hclosed

open Registrar

/-- Between two roots the scene holds what would be registered. -/
theorem add_holding (hhandles : hosts.DistinctHandles roots) {registry : Registry}
    (h : Settled hosts roots ⟨seen, registry⟩) (hid : hosts.Reached roots id) :
    add hosts (holding hosts seen) id =
      holding hosts (hosts.exploreWithin (hosts.size + 1) seen id) := by
  have hkeys := hhandles.distinctKeys
  by_cases hold : id ∈ seen
  · have hclosed : ∀ e ∈ (hosts.get id).filledSlots, e.2 ∈ seen := by
      intro e he
      by_cases hself : e.2 = id
      · rwa [hself]
      · have hslot : hosts.Slot id e.1 e.2 := List.mem_filter.mpr ⟨he, decide_eq_true hself⟩
        exact h.mem_of_slot hkeys hold hslot
    rw [exploreWithin, if_pos (List.mem_map_of_mem hold)]
    exact addWithin_holding_of_mem hhandles _ h.sound.reached hold hclosed
  · exact explores hhandles _ h.sound.reached hid hold

/-- The scene of some roots holds what they lead to, in the order of registering it. -/
theorem ofList_eq_holding (hhandles : hosts.DistinctHandles roots) :
    ofList hosts roots = holding hosts (hosts.explore roots) := by
  have hfold (ids seen : List HostId) (s : Registrar) (hids : ∀ id ∈ ids, hosts.Reached roots id)
      (h : Settled hosts roots ⟨seen, s.registry⟩) :
      ids.foldl (add hosts) (holding hosts seen) =
        holding hosts (ids.foldl (hosts.exploreWithin (hosts.size + 1)) seen) := by
    induction ids generalizing seen s with
    | nil => rfl
    | cons id ids ih =>
      obtain ⟨hid, hids⟩ := List.forall_mem_cons.mp hids
      rw [List.foldl_cons, List.foldl_cons, add_holding hhandles h hid]
      exact ih _ _ hids (h.register hid).2.1
  exact hfold roots [] {} (fun id hid => ⟨id, hid, .refl⟩) (.empty rfl rfl)

theorem get?_holding (hhandles : hosts.DistinctHandles roots)
    (hseen : ∀ x ∈ seen, hosts.Reached roots x) (hnodup : seen.Nodup) (hid : id ∈ seen) :
    (holding hosts seen).get? (hosts.get id).handle = some id := by
  apply Table.get?_eq_some_of_mem
  · rw [keys_holding]
    apply hnodup.map_on
    exact fun a ha b hb => hhandles a b (hseen a ha) (hseen b hb)
  · exact List.mem_map.mpr ⟨id, hid, rfl⟩

end HostScene

end ShadeGraph
