import ShadeGraph.Proofs.Registry.Growth
import ShadeGraph.Proofs.Registry.Restore

/-!
# Reloaded registries

An attachment does not hold the generated material table, the slots by generated index, or how many
slots there are. A registry that was filled by registering materials loses nothing by that: its
records can be made again from their slots, and the greatest index is the last place in its table. So
one that was loaded from its attachment answers every question in the same way.
-/

namespace ShadeGraph

namespace Registry

variable {registry a b : Registry}

/-! ### Indices -/

theorem mem_indices_iff (hkeys : registry.records.keys.Nodup) {index : Int} :
    index ∈ registry.indices ↔
      ∃ key r, registry.find? key = some r ∧ index ∈ r.generatedOf.map (·.2) := by
  rw [indices, List.mem_flatMap]
  constructor
  · rintro ⟨r, hr, hindex⟩
    obtain ⟨⟨key, r⟩, he, rfl⟩ := List.mem_map.mp hr
    exact ⟨key, r, Table.get?_eq_some_of_mem hkeys he, hindex⟩
  · rintro ⟨key, r, hr, hindex⟩
    exact ⟨r, List.mem_map.mpr ⟨_, Table.mem_of_get?_eq_some hr, rfl⟩, hindex⟩

theorem materialCount_of_nonempty (h : registry.generated ≠ []) :
    registry.materialCount = registry.generated.length := by
  simp [materialCount, h]

/-- Without a table the greatest index counts. -/
theorem materialCount_of_max (hgenerated : registry.generated = []) {index : Int}
    (hmem : index ∈ registry.indices) (hmax : ∀ other ∈ registry.indices, other ≤ index) :
    registry.materialCount = index + 1 := by
  have hmax : registry.indices.max? = some index := List.max?_eq_some_iff.mpr ⟨hmem, hmax⟩
  simp [materialCount, hgenerated, hmax]

theorem lt_materialCount (hgenerated : registry.generated = []) {index : Int}
    (h : index ∈ registry.indices) : index < registry.materialCount := by
  obtain ⟨greatest, hgreatest⟩ := Option.isSome_iff_exists.mp (List.isSome_max?_of_mem h)
  obtain ⟨hmem, hmax⟩ := List.max?_eq_some_iff.mp hgreatest
  rw [materialCount_of_max hgenerated hmem hmax]
  exact Int.lt_add_one_of_le (hmax index h)

/-! ### Registries that answer alike -/

/-- All that one can ask of registries, except for the places of the generated material table. -/
structure Alike (a b : Registry) : Prop where
  recordList : a.recordList = b.recordList
  find? : ∀ key, a.find? key = b.find? key
  findId? : ∀ id, a.findId? id = b.findId? id
  materialCount : a.materialCount = b.materialCount
  toAttachment : ∀ versioned, a.toAttachment versioned = b.toAttachment versioned
  resolve : ∀ {α : Type} (hosts : HostTable α) (scene : HostScene) (allowUnsafe : Bool) (id : String),
    a.resolve hosts scene allowUnsafe id = b.resolve hosts scene allowUnsafe id
  remap : ∀ r mesh indices, a.remap r mesh indices = b.remap r mesh indices

theorem alike_of_records (hrecords : a.records = b.records)
    (hcount : a.materialCount = b.materialCount) : a.Alike b := by
  have hlist : a.recordList = b.recordList := by rw [recordList, recordList, hrecords]
  have hfind (id : String) : a.findId? id = b.findId? id := by rw [findId?, findId?, hlist]
  refine ⟨hlist, ?_, hfind, hcount, ?_, ?_, ?_⟩
  · intro key
    rw [find?, find?, hrecords]
  · intro versioned
    rw [toAttachment, toAttachment, hlist]
  · intro α hosts scene allowUnsafe id
    rw [resolve, resolve, hfind]
  · intro r mesh indices
    rw [remap, remap, hcount]

/-- Loading the records of a registry gives these records, each under its own key. -/
theorem records_load (hkeys : registry.records.keys.Nodup)
    (hstored : ∀ e ∈ registry.records, e.2.key = e.1) (target : Registry) :
    (target.load registry.recordList).records = registry.records := by
  have hsame : registry.recordList.map (·.key) = registry.records.keys := by
    rw [recordList, List.map_map]
    exact List.map_congr_left hstored
  have hentries : (registry.recordList.map fun r => (r.key, r)) = registry.records := by
    rw [recordList, List.map_map]
    conv_rhs => rw [← List.map_id registry.records]
    apply List.map_congr_left
    intro e he
    exact Prod.ext (hstored e he) rfl
  exact (Table.foldl_insert_of_nodup [] registry.recordList _ _ (hsame ▸ hkeys)).trans hentries

/-! ### What registering leaves -/

namespace Grown

variable {α : Type} {hosts : HostTable α} {roots order : List HostId} {start : Registry}

/-- With nothing to begin with, every key is that of a material. -/
theorem keys_of_empty (h : Grown hosts roots start ⟨order, registry⟩) (hstart : start.records = []) :
    registry.records.keys = order.map hosts.key := by
  have hkeys := h.keys
  rwa [hstart, Table.keys_nil, List.nil_append] at hkeys

theorem nodup_keys_of_empty (h : Grown hosts roots start ⟨order, registry⟩)
    (hstart : start.records = []) : registry.records.keys.Nodup := by
  rw [h.keys_of_empty hstart]
  exact h.nodup

theorem stored (h : Grown hosts roots start ⟨order, registry⟩) (hstart : start.records = []) :
    ∀ e ∈ registry.records, e.2.key = e.1 ∧ e.2.Built := by
  intro e he
  have hkey : e.1 ∈ registry.records.keys := List.mem_map_of_mem he
  have hfind : registry.find? e.1 = some e.2 :=
    Table.get?_eq_some_of_mem (h.nodup_keys_of_empty hstart) he
  rw [h.keys_of_empty hstart] at hkey
  obtain ⟨id, hid, hsame⟩ := List.mem_map.mp hkey
  obtain ⟨r, hr, hstored, hbuilt⟩ := h.record id hid
  rw [hsame] at hr hstored
  obtain rfl := Option.some.inj (hfind.symm.trans hr)
  exact ⟨hstored, hbuilt⟩

/-- The greatest index is the last place of the table. -/
theorem materialCount_load (h : Grown hosts roots start ⟨order, registry⟩)
    (hrecords : start.records = []) (hgenerated : start.generated = []) {loaded : Registry}
    (hloaded : loaded.records = registry.records) (hempty : loaded.generated = []) :
    loaded.materialCount = registry.materialCount := by
  have hindices : loaded.indices = registry.indices := by
    rw [indices, indices, recordList, recordList, hloaded]
  have hlength : registry.generated.length = (hosts.plains order).length := by
    simpa [hgenerated] using h.length
  by_cases hnone : registry.generated = []
  · rw [materialCount, materialCount, hindices, hempty, hnone]
  · have hpos : 0 < registry.generated.length := List.length_pos_iff.mpr hnone
    have hkeys := h.nodup_keys_of_empty hrecords
    have hlast : registry.generated.length - 1 < (hosts.plains order).length := by omega
    obtain ⟨r, hr, hplace⟩ := h.placed (List.getElem?_eq_getElem hlast)
    have hmem : (registry.generated.length : Int) - 1 ∈ loaded.indices := by
      rw [hindices, mem_indices_iff hkeys]
      refine ⟨_, r, hr, ?_⟩
      rw [hplace, hgenerated]
      simp only [List.map_cons, List.map_nil, List.length_nil, List.mem_singleton]
      omega
    have hmax : ∀ other ∈ loaded.indices, other ≤ (registry.generated.length : Int) - 1 := by
      intro other hother
      rw [hindices, mem_indices_iff hkeys] at hother
      rcases h.told (.inr hother) with (rfl | ⟨key, r, hr, _⟩) | ⟨_, hlt⟩
      · omega
      · rw [find?, hrecords] at hr
        contradiction
      · dsimp only at hlt
        omega
    rw [materialCount_of_max hempty hmem hmax, materialCount_of_nonempty hnone]
    omega

end Grown

end Registry

namespace Registrar

open Registry

variable {α : Type}

/-- The registry that a session is left with after registering these materials. -/
def registered (hosts : HostTable α) (ids : List HostId) (s : Registrar) : Registry :=
  ((ids.mapM (register hosts)).run s).2.registry

theorem grown_registered (hosts : HostTable α) (ids : List HostId) (s : Registrar) :
    ∃ order, Grown hosts ids s.registry ⟨order, registered hosts ids s⟩ := by
  obtain ⟨order, hadded⟩ := additions_registerAll fun id hid => ⟨id, hid, .refl⟩
  exact ⟨order, (Grown.refl _).additions hadded⟩

/-- Loading the attachment of materials that were registered gives back their records. -/
theorem loadAttachment_registered (hosts : HostTable α) (ids : List HostId) (s : Registrar)
    (hrecords : s.registry.records = []) {versioned : Bool} {bytes : List UInt8}
    (hlayout : (registered hosts ids s).TellsLayout versioned)
    (hbytes : (registered hosts ids s).toAttachment versioned = .ok bytes) (target : Registry) :
    target.loadAttachment bytes = .ok { target with
      records := (registered hosts ids s).records, generated := [] } := by
  obtain ⟨order, hgrown⟩ := grown_registered hosts ids s
  have hstored := hgrown.stored hrecords
  have hbuilt : ∀ r ∈ (registered hosts ids s).recordList, r.Built := by
    intro r hr
    obtain ⟨e, he, rfl⟩ := List.mem_map.mp hr
    exact (hstored e he).2
  have hread := read_toAttachment (fun r hr => (hbuilt r hr).nodup) hlayout hbytes
  have hsame : (registered hosts ids s).recordList.map MaterialRecord.rebuilt =
      (registered hosts ids s).recordList := by
    conv_rhs => rw [← List.map_id (registered hosts ids s).recordList]
    exact List.map_congr_left fun r hr => (hbuilt r hr).rebuilt_eq
  have hload := records_load (hgrown.nodup_keys_of_empty hrecords)
    (fun e he => (hstored e he).1) target
  rw [Registry.loadAttachment, hread, hsame, ← hload]
  rfl

/-- A registry that was loaded from what a session wrote answers like the one of the session. -/
theorem reloaded_alike (hosts : HostTable α) (ids : List HostId) (s : Registrar)
    (hrecords : s.registry.records = []) (hgenerated : s.registry.generated = [])
    {versioned : Bool} {bytes : List UInt8}
    (hlayout : (registered hosts ids s).TellsLayout versioned)
    (hbytes : (registered hosts ids s).toAttachment versioned = .ok bytes) (target : Registry) :
    ∃ reloaded, target.loadAttachment bytes = .ok reloaded ∧
      reloaded.Alike (registered hosts ids s) := by
  obtain ⟨order, hgrown⟩ := grown_registered hosts ids s
  refine ⟨_, loadAttachment_registered hosts ids s hrecords hlayout hbytes target, ?_⟩
  refine alike_of_records ?_ (hgrown.materialCount_load hrecords hgenerated ?_ ?_)
  all_goals rfl

/-- A multi-material with an empty slot in the middle lies behind an empty slot of another one. -/
def sparse : HostTable Unit :=
  ⟨#[{ handle := 1, name := "outer", slots := [none, some 1] },
    { handle := 2, name := "inner", slots := [some 2, none, some 3] }, { handle := 3, name := "red" },
    { handle := 4, name := "blue" }]⟩

/-- The records of both and of the two plain materials come back. -/
theorem reloaded_alike_sparse :
    ∃ bytes reloaded, (registered sparse [0] {}).toAttachment false = .ok bytes ∧
      ({} : Registry).loadAttachment bytes = .ok reloaded ∧
      reloaded.Alike (registered sparse [0] {}) := by
  have hlayout : (registered sparse [0] {}).TellsLayout false := .inr (by decide +kernel)
  have hwritten : ((registered sparse [0] {}).toAttachment false).isOk = true := by decide +kernel
  cases hbytes : (registered sparse [0] {}).toAttachment false with
  | error e =>
    rw [hbytes] at hwritten
    contradiction
  | ok bytes =>
    obtain ⟨reloaded, hload, halike⟩ := reloaded_alike sparse [0] {} rfl rfl hlayout hbytes {}
    exact ⟨bytes, reloaded, rfl, hload, halike⟩

end Registrar

end ShadeGraph
