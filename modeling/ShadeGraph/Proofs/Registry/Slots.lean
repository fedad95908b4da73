import Mathlib.Tactic
import Mathlib.Logic.Relation
import ShadeGraph.Identity.Registry

/-!
# Materials in slots

Host materials form a graph with the slots as its edges; a slot that leads back to its own material
is none. A material is explored depth first and in the order of the slots, and a key that has been
met is not entered again. Only materials of the table have slots, so exploring goes no deeper than
there are materials that have not been met.
-/

namespace ShadeGraph.HostTable

variable {α : Type} (hosts : HostTable α)

abbrev key (id : HostId) : MaterialKey := (hosts.get id).key

def IsPlain (id : HostId) : Prop := (hosts.get id).isMulti = false

instance (id : HostId) : Decidable (hosts.IsPlain id) :=
  inferInstanceAs (Decidable ((hosts.get id).isMulti = false))

/-- The plain ones of some materials. -/
def plains (ids : List HostId) : List HostId := ids.filter fun id => hosts.IsPlain id

/-- A slot leads to another material. -/
def Slot (id : HostId) (slot : Nat) (sub : HostId) : Prop := (slot, sub) ∈ hosts.followed id

/-- A material lies in the slots of another one at some depth, or is that material. -/
def Reaches : HostId → HostId → Prop :=
  Relation.ReflTransGen fun id sub => ∃ slot, hosts.Slot id slot sub

/-- Some of the roots leads to the material. -/
def Reached (roots : List HostId) (id : HostId) : Prop := ∃ root ∈ roots, hosts.Reaches root id

/-- Among all that the roots lead to, the key tells which material it is. -/
def DistinctKeys (roots : List HostId) : Prop :=
  ∀ a b, hosts.Reached roots a → hosts.Reached roots b → hosts.key a = hosts.key b → a = b

/-- The material that the first slots lead to, one after the other. -/
inductive Leads : HostId → HostId → Prop
  | plain {id} : hosts.IsPlain id → Leads id id
  | first {id sub lead} : hosts.Slot id 0 sub → Leads sub lead → Leads id lead

variable {hosts}

/-! ### Slots -/

theorem slot_iff {id sub : HostId} {slot : Nat} :
    hosts.Slot id slot sub ↔ (hosts.get id).slots[slot]? = some (some sub) ∧ sub ≠ id := by
  simp only [Slot, followed, HostMaterial.filledSlots, List.mem_filter, List.mem_filterMap,
    Prod.exists, List.mem_zipIdx_iff_getElem?, Option.map_eq_some_iff, Prod.mk.injEq,
    decide_eq_true_eq]
  constructor
  · rintro ⟨⟨_, _, hget, _, rfl, rfl, rfl⟩, hother⟩
    exact ⟨hget, hother⟩
  · rintro ⟨hget, hother⟩
    exact ⟨⟨_, _, hget, _, rfl, rfl, rfl⟩, hother⟩

theorem Slot.unique {id a b : HostId} {slot : Nat} (ha : hosts.Slot id slot a)
    (hb : hosts.Slot id slot b) : a = b := by
  have hsame := (slot_iff.mp ha).1.symm.trans (slot_iff.mp hb).1
  simpa using hsame

theorem isPlain_iff {id : HostId} : hosts.IsPlain id ↔ (hosts.get id).slots = [] := by
  simp [IsPlain, HostMaterial.isMulti]

theorem Slot.not_isPlain {id sub : HostId} {slot : Nat} (h : hosts.Slot id slot sub) :
    ¬ hosts.IsPlain id := by
  intro hplain
  have hget := (slot_iff.mp h).1
  rw [isPlain_iff.mp hplain] at hget
  simp at hget

theorem not_isPlain_iff {id : HostId} : ¬ hosts.IsPlain id ↔ (hosts.get id).isMulti = true := by
  rw [IsPlain, Bool.not_eq_false]

theorem mem_plains_iff {id : HostId} {ids : List HostId} :
    id ∈ hosts.plains ids ↔ id ∈ ids ∧ hosts.IsPlain id := by
  rw [plains, List.mem_filter, decide_eq_true_eq]

theorem filledSlots_of_isPlain {id : HostId} (h : hosts.IsPlain id) :
    (hosts.get id).filledSlots = [] := by
  rw [HostMaterial.filledSlots, isPlain_iff.mp h]
  rfl

theorem followed_of_isPlain {id : HostId} (h : hosts.IsPlain id) : hosts.followed id = [] := by
  rw [followed, filledSlots_of_isPlain h]
  rfl

theorem lt_size_of_not_isPlain {id : HostId} (h : ¬ hosts.IsPlain id) : id < hosts.size := by
  by_contra hlarge
  apply h
  have hnone : hosts.materials[id]? = none := Array.getElem?_eq_none (Nat.le_of_not_lt hlarge)
  rw [isPlain_iff, get, hnone]
  rfl

theorem plains_append_of_isPlain {id : HostId} (ids : List HostId) (h : hosts.IsPlain id) :
    hosts.plains (ids ++ [id]) = hosts.plains ids ++ [id] := by
  simp [plains, List.filter_append, h]

theorem plains_append_of_not_isPlain {id : HostId} (ids : List HostId) (h : ¬ hosts.IsPlain id) :
    hosts.plains (ids ++ [id]) = hosts.plains ids := by
  simp [plains, List.filter_append, h]

/-! ### Ways through slots -/

theorem Reaches.slot {a id sub : HostId} {slot : Nat} (h : hosts.Reaches a id)
    (hslot : hosts.Slot id slot sub) : hosts.Reaches a sub :=
  Relation.ReflTransGen.tail h ⟨slot, hslot⟩

theorem Reached.slot {roots : List HostId} {id sub : HostId} {slot : Nat}
    (h : hosts.Reached roots id) (hslot : hosts.Slot id slot sub) : hosts.Reached roots sub := by
  obtain ⟨root, hroot, hreaches⟩ := h
  exact ⟨root, hroot, hreaches.slot hslot⟩

/-- What the roots lead to is the least set around them that is closed under slots. -/
theorem Reached.induct {roots : List HostId} {P : HostId → Prop} (hroots : ∀ root ∈ roots, P root)
    (hslot : ∀ {id slot sub}, P id → hosts.Slot id slot sub → P sub) {id : HostId}
    (h : hosts.Reached roots id) : P id := by
  obtain ⟨root, hroot, hreaches⟩ := h
  induction hreaches with
  | refl => exact hroots root hroot
  | tail _ hlast ih =>
    obtain ⟨slot, hlast⟩ := hlast
    exact hslot ih hlast

theorem DistinctKeys.key_mem_iff {roots seen : List HostId} (h : hosts.DistinctKeys roots)
    (hseen : ∀ x ∈ seen, hosts.Reached roots x) {id : HostId} (hid : hosts.Reached roots id) :
    hosts.key id ∈ seen.map hosts.key ↔ id ∈ seen := by
  constructor
  · intro hkey
    obtain ⟨x, hx, hsame⟩ := List.mem_map.mp hkey
    rwa [← h x id (hseen x hx) hid hsame]
  · exact List.mem_map_of_mem

/-- A closed list that holds the roots holds all that they lead to. -/
theorem Reached.mem {roots : List HostId} {id : HostId} (h : hosts.Reached roots id)
    (known : List HostId) (hroots : ∀ root ∈ roots, root ∈ known)
    (hclosed : ∀ id ∈ known, ∀ e ∈ hosts.followed id, e.2 ∈ known) : id ∈ known :=
  h.induct (P := fun id => id ∈ known) hroots fun hid hslot => hclosed _ hid _ hslot

theorem distinctKeys_of_closed {roots : List HostId} (known : List HostId)
    (hroots : ∀ root ∈ roots, root ∈ known)
    (hclosed : ∀ id ∈ known, ∀ e ∈ hosts.followed id, e.2 ∈ known)
    (hkeys : (known.map hosts.key).Nodup) : hosts.DistinctKeys roots := by
  intro a b ha hb hkey
  have hinjective := List.inj_on_of_nodup_map hkeys
  exact hinjective (ha.mem known hroots hclosed) (hb.mem known hroots hclosed) hkey

theorem Leads.reaches {id lead : HostId} (h : hosts.Leads id lead) : hosts.Reaches id lead := by
  induction h with
  | plain _ => exact .refl
  | first hslot _ ih => exact .head ⟨0, hslot⟩ ih

theorem Leads.unique {id a b : HostId} (ha : hosts.Leads id a) (hb : hosts.Leads id b) : a = b := by
  induction ha with
  | plain hplain =>
    cases hb with
    | plain _ => rfl
    | first hslot _ => exact absurd hplain hslot.not_isPlain
  | first hslot _ ih =>
    cases hb with
    | plain hplain => exact absurd hplain hslot.not_isPlain
    | first hslot' hb =>
      obtain rfl := hslot.unique hslot'
      exact ih hb

/-! ### What is left to be met -/

/-- How many materials of the table have not been met. -/
def unmet (hosts : HostTable α) (met : HostId → Prop) [DecidablePred met] : Nat :=
  ((Finset.range hosts.size).filter fun id => ¬ met id).card

variable {met met' : HostId → Prop} [DecidablePred met] [DecidablePred met']

theorem unmet_le_size : hosts.unmet met ≤ hosts.size :=
  (Finset.card_filter_le _ _).trans (Finset.card_range _).le

theorem unmet_mono (h : ∀ id, met id → met' id) : hosts.unmet met' ≤ hosts.unmet met := by
  apply Finset.card_le_card
  intro id hid
  rw [Finset.mem_filter] at hid ⊢
  exact ⟨hid.1, fun hmet => hid.2 (h id hmet)⟩

theorem unmet_lt (h : ∀ id, met id → met' id) {id : HostId} (hplain : ¬ hosts.IsPlain id)
    (hnew : ¬ met id) (hmet : met' id) : hosts.unmet met' < hosts.unmet met := by
  apply Finset.card_lt_card
  refine (Finset.ssubset_iff_of_subset ?_).mpr ⟨id, ?_, ?_⟩
  · intro other hother
    rw [Finset.mem_filter] at hother ⊢
    exact ⟨hother.1, fun hold => hother.2 (h other hold)⟩
  · rw [Finset.mem_filter, Finset.mem_range]
    exact ⟨lt_size_of_not_isPlain hplain, hnew⟩
  · rw [Finset.mem_filter]
    exact fun hother => hother.2 hmet

/-! ### Exploring -/

/-- The materials met after exploring one more, in the order in which they are met. -/
def exploreWithin (hosts : HostTable α) : Nat → List HostId → HostId → List HostId
  | 0, seen, _ => seen
  | depth + 1, seen, id =>
    if hosts.key id ∈ seen.map hosts.key then seen
    else (hosts.followed id).foldl
      (fun seen entry => exploreWithin hosts depth seen entry.2) (seen ++ [id])

theorem prefix_foldl {β ι : Type} {f : List β → ι → List β} (h : ∀ seen x, seen <+: f seen x)
    (xs : List ι) (seen : List β) : seen <+: xs.foldl f seen := by
  induction xs generalizing seen with
  | nil => exact List.prefix_rfl
  | cons x xs ih => exact (h seen x).trans (ih (f seen x))

theorem prefix_exploreWithin (hosts : HostTable α) (depth : Nat) (seen : List HostId)
    (id : HostId) : seen <+: hosts.exploreWithin depth seen id := by
  induction depth generalizing seen id with
  | zero => exact List.prefix_rfl
  | succ depth ih =>
    rw [exploreWithin]
    split_ifs
    · exact List.prefix_rfl
    · apply (List.prefix_append seen [id]).trans
      apply prefix_foldl
      intro later entry
      exact ih later entry.2

theorem key_mem_exploreWithin (hosts : HostTable α) (depth : Nat) (seen : List HostId)
    (id : HostId) : hosts.key id ∈ (hosts.exploreWithin (depth + 1) seen id).map hosts.key := by
  rw [exploreWithin]
  split_ifs with hseen
  · exact hseen
  · apply List.mem_map_of_mem
    refine (prefix_foldl ?_ _ _).subset (List.mem_append_right _ (List.mem_singleton_self id))
    intro later entry
    exact prefix_exploreWithin hosts depth later entry.2

/-- Exploring roots one after the other meets all of them. -/
theorem key_mem_foldl_exploreWithin (hosts : HostTable α) (depth : Nat) {ids : List HostId}
    (seen : List HostId) {id : HostId} (hid : id ∈ ids) :
    hosts.key id ∈ (ids.foldl (hosts.exploreWithin (depth + 1)) seen).map hosts.key := by
  induction ids generalizing seen with
  | nil => exact absurd hid List.not_mem_nil
  | cons first ids ih =>
    rw [List.foldl_cons]
    rcases List.mem_cons.mp hid with rfl | hid
    · have hlater := prefix_foldl (prefix_exploreWithin hosts (depth + 1)) ids
        (hosts.exploreWithin (depth + 1) seen id)
      exact (hlater.map hosts.key).subset (key_mem_exploreWithin hosts depth seen id)
    · exact ih _ hid

end ShadeGraph.HostTable
