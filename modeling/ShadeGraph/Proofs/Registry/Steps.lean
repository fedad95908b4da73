import ShadeGraph.Proofs.Registry.Slots
import ShadeGraph.Proofs.Table

/-!
# Steps of registration

Whatever materials are registered in, the registry changes by two steps: a new material is enrolled,
and a slot is linked to what the record of its material tells at that moment. Steps only add to the
registry, and they keep it sound.
-/

namespace ShadeGraph

theorem MaterialRecord.generatedIndex_zero (r : MaterialRecord) :
    r.generatedIndex 0 = (r.generatedOf.get? 0).getD 0 := by
  rw [generatedIndex, ite_self]

namespace Registry

/-! ### Enrolling and linking -/

section

variable {α : Type} (registry : Registry) (m : HostMaterial α) (materialId : String)

/-- The record that a new material starts with. -/
def firstRecord : MaterialRecord :=
  if m.isMulti then m.record materialId else (m.record materialId).add 0 registry.generated.length

/-- The registry with a new material, which has a place if it is plain. -/
def enroll : Registry :=
  if m.isMulti then registry.insert (m.record materialId)
  else (registry.insert (m.record materialId)).place (m.record materialId)

variable {registry m materialId}

theorem find?_insert (r : MaterialRecord) (key : MaterialKey) :
    (registry.insert r).find? key = if key = r.key then some r else registry.find? key :=
  Table.get?_insert registry.records r.key key r

theorem find?_link (key other : MaterialKey) (slot : Nat) (index : Int) :
    (registry.link key slot index).find? other =
      if other = key then (registry.find? other).map fun r => r.add slot index
      else registry.find? other :=
  Table.get?_modify registry.records key other fun r => r.add slot index

theorem find?_enroll (key : MaterialKey) :
    (registry.enroll m materialId).find? key =
      if key = m.key then some (registry.firstRecord m materialId) else registry.find? key := by
  unfold enroll firstRecord
  split_ifs with hmulti hkey hkey
  · exact (find?_insert (m.record materialId) key).trans (if_pos hkey)
  · exact (find?_insert (m.record materialId) key).trans (if_neg hkey)
  · exact (find?_insert ((m.record materialId).add 0 _) key).trans (if_pos hkey)
  · exact ((find?_insert ((m.record materialId).add 0 _) key).trans (if_neg hkey)).trans
      ((find?_insert (m.record materialId) key).trans (if_neg hkey))

theorem key_firstRecord : (registry.firstRecord m materialId).key = m.key := by
  unfold firstRecord
  split_ifs <;> rfl

theorem generatedOf_firstRecord_of_multi (h : m.isMulti = true) :
    (registry.firstRecord m materialId).generatedOf = [] := by
  rw [firstRecord, if_pos h]
  rfl

theorem generatedOf_firstRecord_of_plain (h : m.isMulti = false) :
    (registry.firstRecord m materialId).generatedOf = [(0, (registry.generated.length : Int))] := by
  rw [firstRecord, h]
  rfl

theorem nodup_keys_firstRecord : (registry.firstRecord m materialId).generatedOf.keys.Nodup := by
  cases h : m.isMulti with
  | true =>
    rw [generatedOf_firstRecord_of_multi h]
    exact List.nodup_nil
  | false =>
    rw [generatedOf_firstRecord_of_plain h]
    exact List.nodup_singleton _

theorem keys_enroll (hnew : registry.find? m.key = none) :
    (registry.enroll m materialId).records.keys = registry.records.keys ++ [m.key] := by
  have hfirst : (registry.insert (m.record materialId)).records.keys =
      registry.records.keys ++ [m.key] :=
    Table.keys_insert_of_notMem (Table.get?_eq_none_iff_notMem.mp hnew) _
  unfold enroll
  split_ifs with hmulti
  · exact hfirst
  · refine (Table.keys_insert_of_mem ?_ _).trans hfirst
    rw [hfirst]
    exact List.mem_append_right _ (List.mem_singleton_self _)

theorem generated_enroll_of_multi (h : m.isMulti = true) :
    (registry.enroll m materialId).generated = registry.generated := by
  rw [enroll, if_pos h]
  rfl

theorem generated_enroll_of_plain (h : m.isMulti = false) :
    (registry.enroll m materialId).generated =
      registry.generated ++ [registry.firstRecord m materialId] := by
  rw [enroll, firstRecord, h]
  rfl

/-- Where records are stored under their own keys, so is the new one. -/
theorem stored_enroll (h : ∀ {key r}, registry.find? key = some r → r.key = key)
    {key : MaterialKey} {r : MaterialRecord}
    (hr : (registry.enroll m materialId).find? key = some r) : r.key = key := by
  rw [find?_enroll] at hr
  split_ifs at hr with hkey
  · obtain rfl := Option.some.inj hr
    rw [key_firstRecord, hkey]
  · exact h hr

theorem stored_link (h : ∀ {key r}, registry.find? key = some r → r.key = key)
    {key other : MaterialKey} {slot : Nat} {index : Int} {r : MaterialRecord}
    (hr : (registry.link key slot index).find? other = some r) : r.key = other := by
  rw [find?_link] at hr
  split_ifs at hr
  · obtain ⟨r', hr', rfl⟩ := Option.map_eq_some_iff.mp hr
    have hkey : r'.key = other := h hr'
    exact hkey
  · exact h hr

/-- Where the table numbers its records, the new one gets the next number. -/
theorem numbered_enroll
    (h : ∀ {i : Nat} {r}, registry.generated[i]? = some r → r.generatedOf = [(0, (i : Int))])
    {i : Nat} {r : MaterialRecord} (hr : (registry.enroll m materialId).generated[i]? = some r) :
    r.generatedOf = [(0, (i : Int))] := by
  cases hmulti : m.isMulti with
  | true =>
    rw [generated_enroll_of_multi hmulti] at hr
    exact h hr
  | false =>
    rw [generated_enroll_of_plain hmulti, List.getElem?_append] at hr
    split_ifs at hr with hi
    · exact h hr
    · rw [List.getElem?_singleton] at hr
      split_ifs at hr with hlast
      obtain rfl := Option.some.inj hr
      obtain rfl : i = registry.generated.length := by omega
      exact generatedOf_firstRecord_of_plain hmulti

end

/-! ### Registries grow -/

/-- Nothing is lost from one registry to another. -/
structure Extends (registry later : Registry) : Prop where
  records : ∀ {key r}, registry.find? key = some r →
    ∃ r', later.find? key = some r' ∧ r'.materialId = r.materialId ∧
      r.generatedOf <+: r'.generatedOf
  generated : registry.generated <+: later.generated

section

variable {registry : Registry}

theorem Extends.refl (registry : Registry) : registry.Extends registry :=
  ⟨fun {_ r} h => ⟨r, h, rfl, List.prefix_rfl⟩, List.prefix_rfl⟩

theorem Extends.trans {a b c : Registry} (hab : a.Extends b) (hbc : b.Extends c) : a.Extends c := by
  constructor
  · intro key r h
    obtain ⟨r', hr', hid, hextends⟩ := hab.records h
    obtain ⟨r'', hr'', hid', hextends'⟩ := hbc.records hr'
    exact ⟨r'', hr'', hid'.trans hid, hextends.trans hextends'⟩
  · exact hab.generated.trans hbc.generated

theorem Extends.isSome_find? {a b : Registry} (h : a.Extends b) {key : MaterialKey}
    (hkey : (a.find? key).isSome) : (b.find? key).isSome := by
  obtain ⟨r, hr⟩ := Option.isSome_iff_exists.mp hkey
  obtain ⟨r', hr', _⟩ := h.records hr
  exact Option.isSome_iff_exists.mpr ⟨r', hr'⟩

theorem Extends.exists_slot {a b : Registry} (h : a.Extends b) {key : MaterialKey} {slot : Int}
    (hslot : ∃ r, a.find? key = some r ∧ slot ∈ r.generatedOf.keys) :
    ∃ r, b.find? key = some r ∧ slot ∈ r.generatedOf.keys := by
  obtain ⟨r, hr, hmem⟩ := hslot
  obtain ⟨r', hr', -, hextends⟩ := h.records hr
  exact ⟨r', hr', (hextends.map Prod.fst).subset hmem⟩

theorem Extends.getElem?_generated {later : Registry} (h : registry.Extends later) {i : Nat}
    {r : MaterialRecord} (hr : registry.generated[i]? = some r) : later.generated[i]? = some r := by
  obtain ⟨rest, hrest⟩ := h.generated
  rw [← hrest, List.getElem?_append_left (List.getElem?_eq_some_iff.mp hr).1, hr]

theorem extends_enroll {α : Type} {m : HostMaterial α} {materialId : String}
    (hnew : registry.find? m.key = none) : registry.Extends (registry.enroll m materialId) := by
  constructor
  · intro key r hr
    refine ⟨r, ?_, rfl, List.prefix_rfl⟩
    rw [find?_enroll, if_neg, hr]
    rintro rfl
    rw [hnew] at hr
    contradiction
  · cases hmulti : m.isMulti with
    | true => rw [generated_enroll_of_multi hmulti]
    | false =>
      rw [generated_enroll_of_plain hmulti]
      exact List.prefix_append _ _

theorem extends_link (key : MaterialKey) (slot : Nat) (index : Int) :
    registry.Extends (registry.link key slot index) := by
  constructor
  · intro other r hr
    rw [find?_link, hr]
    split_ifs
    · exact ⟨_, rfl, rfl, Table.prefix_insertIfNew _ _ _⟩
    · exact ⟨r, rfl, rfl, List.prefix_rfl⟩
  · exact List.prefix_rfl

end

end Registry

/-- A registry with the materials that its records were made for, in the order of the records. -/
structure Survey where
  order : List HostId
  registry : Registry

namespace Registry

section

variable {α : Type} (hosts : HostTable α) (roots : List HostId)

/-- The record of a material tells of all slots that lead to other materials. -/
def Complete (registry : Registry) (id : HostId) : Prop :=
  ∀ slot sub, hosts.Slot id slot sub →
    ∃ r, registry.find? (hosts.key id) = some r ∧ (slot : Int) ∈ r.generatedOf.keys

/-- A step of registering what the roots lead to. The record that a slot is linked by may still lack
slots, but only if its material leads back to the one with the slot. -/
inductive Step : Survey → Survey → Prop
  | enroll {order registry id} (materialId : String) :
    hosts.Reached roots id → registry.find? (hosts.key id) = none →
    Step ⟨order, registry⟩ ⟨order ++ [id], registry.enroll (hosts.get id) materialId⟩
  | link {order registry id slot sub owner r} :
    id ∈ order → hosts.Slot id slot sub → owner ∈ order → hosts.key owner = hosts.key sub →
    registry.find? (hosts.key sub) = some r →
    registry.Complete hosts owner ∨ hosts.Reaches owner id →
    Step ⟨order, registry⟩ ⟨order, registry.link (hosts.key id) slot (r.generatedIndex 0)⟩

def Run : Survey → Survey → Prop := Relation.ReflTransGen (Step hosts roots)

/-- Every record belongs to one material, and the generated material table holds the records of the
plain ones in order, each with its place. -/
structure Sound (s : Survey) : Prop where
  keys : s.registry.records.keys = s.order.map hosts.key
  nodup : (s.order.map hosts.key).Nodup
  reached : ∀ id ∈ s.order, hosts.Reached roots id
  stored : ∀ {key r}, s.registry.find? key = some r → r.key = key
  /-- Every record lists a slot at most once. -/
  distinct : ∀ {key r}, s.registry.find? key = some r → r.generatedOf.keys.Nodup
  generated : s.registry.generated.map some =
    (hosts.plains s.order).map fun id => s.registry.find? (hosts.key id)
  numbered : ∀ {i : Nat} {r}, s.registry.generated[i]? = some r → r.generatedOf = [(0, (i : Int))]
  /-- What a multi-material records are slots of its own, and what is in them is registered. -/
  linked : ∀ id ∈ s.order, ¬ hosts.IsPlain id → ∀ r, s.registry.find? (hosts.key id) = some r →
    ∀ e ∈ r.generatedOf, ∃ (slot : Nat) (sub : HostId), e.1 = slot ∧ hosts.Slot id slot sub ∧
      hosts.key sub ∈ s.order.map hosts.key

end

variable {α : Type} {hosts : HostTable α} {roots : List HostId} {s t : Survey}

theorem Extends.complete {a b : Registry} (h : a.Extends b) {id : HostId}
    (hcomplete : a.Complete hosts id) : b.Complete hosts id := by
  intro slot sub hslot
  exact h.exists_slot (hcomplete slot sub hslot)

theorem Step.extends (h : Step hosts roots s t) : s.registry.Extends t.registry := by
  cases h with
  | enroll materialId _ hnew => exact extends_enroll hnew
  | link _ _ _ _ _ _ => exact extends_link _ _ _

theorem Step.order_prefix (h : Step hosts roots s t) : s.order <+: t.order := by
  cases h with
  | enroll _ _ _ => exact List.prefix_append _ _
  | link _ _ _ _ _ _ => exact List.prefix_rfl

theorem Run.extends (h : Run hosts roots s t) : s.registry.Extends t.registry := by
  induction h with
  | refl => exact .refl _
  | tail _ hstep ih => exact ih.trans hstep.extends

theorem Run.order_prefix (h : Run hosts roots s t) : s.order <+: t.order := by
  induction h with
  | refl => exact List.prefix_rfl
  | tail _ hstep ih => exact ih.trans hstep.order_prefix

/-! ### Sound registries -/

namespace Sound

theorem mono {roots' : List HostId} (h : Sound hosts roots s)
    (hroots : ∀ id, hosts.Reached roots id → hosts.Reached roots' id) : Sound hosts roots' s :=
  { h with reached := fun id hid => hroots id (h.reached id hid) }

theorem mem_keys_iff (h : Sound hosts roots s) {key : MaterialKey} :
    key ∈ s.order.map hosts.key ↔ ∃ r, s.registry.find? key = some r := by
  rw [← h.keys]
  exact Table.mem_keys_iff

theorem key_injective (h : Sound hosts roots s) {a b : HostId} (ha : a ∈ s.order) (hb : b ∈ s.order)
    (hkey : hosts.key a = hosts.key b) : a = b :=
  List.inj_on_of_nodup_map h.nodup ha hb hkey

theorem key_notMem (h : Sound hosts roots s) {key : MaterialKey}
    (hnew : s.registry.find? key = none) : key ∉ s.order.map hosts.key := by
  rw [h.mem_keys_iff]
  rintro ⟨r, hr⟩
  rw [hnew] at hr
  contradiction

section

variable {order : List HostId} {registry : Registry} {id : HostId}

theorem find?_enroll_of_mem (h : Sound hosts roots ⟨order, registry⟩) (materialId : String)
    (hnew : registry.find? (hosts.key id) = none) {other : HostId} (hother : other ∈ order) :
    (registry.enroll (hosts.get id) materialId).find? (hosts.key other) =
      registry.find? (hosts.key other) := by
  rw [find?_enroll, if_neg]
  intro hkey
  exact h.key_notMem hnew (List.mem_map.mpr ⟨other, hother, hkey⟩)

theorem generated_enroll (h : Sound hosts roots ⟨order, registry⟩) (materialId : String)
    (hnew : registry.find? (hosts.key id) = none) :
    (registry.enroll (hosts.get id) materialId).generated.map some =
      (hosts.plains (order ++ [id])).map
        fun p => (registry.enroll (hosts.get id) materialId).find? (hosts.key p) := by
  have hold : (hosts.plains order).map
      (fun p => (registry.enroll (hosts.get id) materialId).find? (hosts.key p)) =
        registry.generated.map some := by
    rw [h.generated]
    apply List.map_congr_left
    intro p hp
    exact h.find?_enroll_of_mem materialId hnew (List.mem_of_mem_filter hp)
  by_cases hplain : hosts.IsPlain id
  · rw [generated_enroll_of_plain hplain, hosts.plains_append_of_isPlain order hplain,
      List.map_append, List.map_append, hold]
    simp [find?_enroll]
  · rw [generated_enroll_of_multi (HostTable.not_isPlain_iff.mp hplain),
      hosts.plains_append_of_not_isPlain order hplain, hold]

theorem enroll (h : Sound hosts roots ⟨order, registry⟩) (materialId : String)
    (hreached : hosts.Reached roots id) (hnew : registry.find? (hosts.key id) = none) :
    Sound hosts roots ⟨order ++ [id], registry.enroll (hosts.get id) materialId⟩ := by
  refine ⟨?_, ?_, ?_, stored_enroll h.stored, ?_, h.generated_enroll materialId hnew,
    numbered_enroll h.numbered, ?_⟩
  · rw [keys_enroll hnew, h.keys, List.map_append]
    rfl
  · rw [List.map_append]
    apply h.nodup.append (List.nodup_singleton _)
    exact List.disjoint_singleton.mpr (h.key_notMem hnew)
  · intro other hother
    rcases List.mem_append.mp hother with hother | hother
    · exact h.reached other hother
    · obtain rfl := List.mem_singleton.mp hother
      exact hreached
  · intro key r hr
    rw [find?_enroll] at hr
    split_ifs at hr
    · obtain rfl := Option.some.inj hr
      exact nodup_keys_firstRecord
    · exact h.distinct hr
  · intro other hother hmulti r hr e he
    rcases List.mem_append.mp hother with hother | hother
    · rw [h.find?_enroll_of_mem materialId hnew hother] at hr
      obtain ⟨slot, sub, hslot, hsub, hkey⟩ := h.linked other hother hmulti r hr e he
      refine ⟨slot, sub, hslot, hsub, ?_⟩
      rw [List.map_append]
      exact List.mem_append_left _ hkey
    · obtain rfl := List.mem_singleton.mp hother
      rw [find?_enroll, if_pos rfl] at hr
      obtain rfl := Option.some.inj hr
      rw [generatedOf_firstRecord_of_multi (HostTable.not_isPlain_iff.mp hmulti)] at he
      contradiction

theorem link (h : Sound hosts roots ⟨order, registry⟩) {sub : HostId} {slot : Nat} (index : Int)
    (hid : id ∈ order) (hslot : hosts.Slot id slot sub)
    (hsub : hosts.key sub ∈ order.map hosts.key) :
    Sound hosts roots ⟨order, registry.link (hosts.key id) slot index⟩ := by
  have hplain {p : HostId} (hp : p ∈ hosts.plains order) : hosts.key p ≠ hosts.key id := by
    obtain ⟨hmem, hplain⟩ := HostTable.mem_plains_iff.mp hp
    intro hkey
    obtain rfl := h.key_injective hmem hid hkey
    exact hslot.not_isPlain hplain
  refine ⟨?_, h.nodup, h.reached, stored_link h.stored, ?_, ?_, h.numbered, ?_⟩
  · have hkeys := Table.keys_modify registry.records (hosts.key id) fun r => r.add slot index
    exact hkeys.trans h.keys
  · intro key r hr
    rw [find?_link] at hr
    split_ifs at hr
    · obtain ⟨r', hr', rfl⟩ := Option.map_eq_some_iff.mp hr
      exact Table.nodup_keys_insertIfNew (h.distinct hr') _ _
    · exact h.distinct hr
  · apply h.generated.trans
    apply List.map_congr_left
    intro p hp
    rw [find?_link, if_neg (hplain hp)]
  · intro other hother hmulti r hr e he
    rw [find?_link] at hr
    split_ifs at hr with hkey
    · obtain ⟨r', hr', rfl⟩ := Option.map_eq_some_iff.mp hr
      obtain rfl := h.key_injective hother hid hkey
      rcases Table.mem_insertIfNew he with he | rfl
      · exact h.linked other hother hmulti r' hr' e he
      · exact ⟨slot, sub, rfl, hslot, hsub⟩
    · exact h.linked other hother hmulti r hr e he

end

theorem step (h : Sound hosts roots s) (hstep : Step hosts roots s t) : Sound hosts roots t := by
  cases hstep with
  | enroll materialId hreached hnew => exact h.enroll materialId hreached hnew
  | link hid hslot _ _ hr _ => exact h.link _ hid hslot (h.mem_keys_iff.mpr ⟨_, hr⟩)

theorem run (h : Sound hosts roots s) (hrun : Run hosts roots s t) : Sound hosts roots t := by
  induction hrun with
  | refl => exact h
  | tail _ hstep ih => exact ih.step hstep

theorem getElem?_generated (h : Sound hosts roots s) (i : Nat) :
    (s.registry.generated[i]?).map some =
      ((hosts.plains s.order)[i]?).map fun p => s.registry.find? (hosts.key p) := by
  rw [← List.getElem?_map, ← List.getElem?_map, h.generated]

theorem find?_of_generated (h : Sound hosts roots s) {i : Nat} {r : MaterialRecord}
    (hr : s.registry.generated[i]? = some r) : s.registry.find? r.key = some r := by
  have hplace := h.getElem?_generated i
  rw [hr, Option.map_some] at hplace
  obtain ⟨p, _, hfind⟩ := Option.map_eq_some_iff.mp hplace.symm
  rwa [h.stored hfind]

theorem exists_place (h : Sound hosts roots s) {p : HostId} (hp : p ∈ s.order)
    (hplain : hosts.IsPlain p) : ∃ (i : Nat) (r : MaterialRecord),
      s.registry.generated[i]? = some r ∧ s.registry.find? (hosts.key p) = some r := by
  obtain ⟨i, hi⟩ := List.getElem?_of_mem (HostTable.mem_plains_iff.mpr ⟨hp, hplain⟩)
  have hplace := h.getElem?_generated i
  rw [hi, Option.map_some] at hplace
  obtain ⟨r, hr, hfind⟩ := Option.map_eq_some_iff.mp hplace
  exact ⟨i, r, hr, hfind.symm⟩

/-- The record of a plain material does not change any more. -/
theorem find?_of_run (h : Sound hosts roots s) (hrun : Run hosts roots s t) {p : HostId}
    (hp : p ∈ s.order) (hplain : hosts.IsPlain p) :
    t.registry.find? (hosts.key p) = s.registry.find? (hosts.key p) := by
  obtain ⟨i, r, hi, hfind⟩ := h.exists_place hp hplain
  rw [hfind, ← h.stored hfind]
  exact (h.run hrun).find?_of_generated (hrun.extends.getElem?_generated hi)

end Sound

end Registry

end ShadeGraph
