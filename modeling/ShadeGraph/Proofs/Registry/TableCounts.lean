import ShadeGraph.Proofs.Attachment.Refusal
import ShadeGraph.Proofs.Registry.Sessions
import ShadeGraph.Proofs.Registry.SlotTables

/-!
# The size of the generated material table

A registry whose table is empty goes by the greatest index that its records tell. So the size that it
gives is that of its table just if the table has an entry or no record tells an index. Otherwise there
is nothing at any index: after the records of plain materials were loaded, and after registering
multi-materials that lead to others but to no plain one.
-/

namespace ShadeGraph

namespace Registry

/-- The generated material table has an entry for just the indices below its size, and the record
there has this index for its first slot. -/
structure Tabled (registry : Registry) : Prop where
  found : ∀ index, 0 ≤ index → index < registry.materialCount →
    ∃ r, registry.generatedMaterial index = .ok r ∧ r.generatedOf.get? 0 = some index
  refused : ∀ index, index < 0 ∨ registry.materialCount ≤ index →
    registry.generatedMaterial index = .error { index, count := registry.generated.length }

/-- Every record is stored once under its own key, the table numbers its records, and no index is
negative. -/
structure Filed (registry : Registry) : Prop where
  nodup : registry.records.keys.Nodup
  stored : ∀ {key r}, registry.find? key = some r → r.key = key
  numbered : ∀ {i : Nat} {r}, registry.generated[i]? = some r → r.generatedOf = [(0, (i : Int))]
  nonneg : ∀ {index : Int}, registry.Told index → 0 ≤ index

variable {α : Type} {hosts : HostTable α} {roots : List HostId} {registry : Registry} {s t : Survey}

/-! ### Sizes -/

theorem generatedMaterial_of_outside {index : Int}
    (h : index < 0 ∨ registry.generated.length ≤ index) : registry.generatedMaterial index =
      .error { index, count := registry.generated.length } := by
  have hnone : (if index < 0 then none else registry.generated[index.toNat]?) = none := by
    split_ifs with hneg
    · rfl
    · exact List.getElem?_eq_none (by omega)
  rw [generatedMaterial, hnone]

theorem materialCount_of_indices_nil (hgenerated : registry.generated = [])
    (hindices : registry.indices = []) : registry.materialCount = 0 := by
  simp [materialCount, hgenerated, hindices]

namespace Filed

theorem empty (hrecords : registry.records = []) (hgenerated : registry.generated = []) :
    registry.Filed where
  nodup := by simp [hrecords]
  stored := by simp [find?, hrecords]
  numbered := by simp [hgenerated]
  nonneg := by
    rintro index (rfl | ⟨key, r, hr, _⟩)
    · exact le_rfl
    · simp [find?, hrecords] at hr

/-- A table with an entry has as many as its size says. -/
theorem tabled_of_nonempty (h : registry.Filed) (hgenerated : registry.generated ≠ []) :
    registry.Tabled := by
  have hcount := materialCount_of_nonempty hgenerated
  constructor
  · intro index hlow hhigh
    rw [hcount] at hhigh
    have hlt : index.toNat < registry.generated.length := by omega
    have hget := List.getElem?_eq_getElem hlt
    refine ⟨_, generatedMaterial_eq_ok_iff.mpr ⟨index.toNat, by omega, hget⟩, ?_⟩
    rw [h.numbered hget, Table.get?_cons, if_pos rfl, Int.toNat_of_nonneg hlow]
  · intro index houtside
    rw [hcount] at houtside
    exact generatedMaterial_of_outside houtside

theorem tabled_iff (h : registry.Filed) :
    registry.Tabled ↔ registry.generated ≠ [] ∨ registry.indices = [] := by
  by_cases hgenerated : registry.generated = []
  · rw [or_iff_right (not_not_intro hgenerated)]
    constructor
    · intro htabled
      by_contra hindices
      obtain ⟨index, hindex⟩ := List.exists_mem_of_ne_nil _ hindices
      have hnonneg := h.nonneg (.inr ((mem_indices_iff h.nodup).mp hindex))
      have hlt := lt_materialCount hgenerated hindex
      obtain ⟨r, hr, _⟩ := htabled.found index hnonneg hlt
      obtain ⟨i, _, hget⟩ := generatedMaterial_eq_ok_iff.mp hr
      simp [hgenerated] at hget
    · intro hindices
      have hcount := materialCount_of_indices_nil hgenerated hindices
      constructor
      · intro index hlow hhigh
        omega
      · intro index houtside
        apply generatedMaterial_of_outside
        rw [hcount] at houtside
        simpa [hgenerated] using houtside
  · exact iff_of_true (h.tabled_of_nonempty hgenerated) (.inl hgenerated)

/-! ### What keeps records filed -/

theorem enroll (h : registry.Filed) {id : HostId} (materialId : String)
    (hnew : registry.find? (hosts.key id) = none) :
    (registry.enroll (hosts.get id) materialId).Filed where
  nodup := by
    rw [keys_enroll hnew]
    apply h.nodup.append (List.nodup_singleton _)
    exact List.disjoint_singleton.mpr (Table.get?_eq_none_iff_notMem.mp hnew)
  stored := stored_enroll h.stored
  numbered := numbered_enroll h.numbered
  nonneg := by
    intro index htold
    rcases told_enroll htold with htold | ⟨_, rfl⟩
    · exact h.nonneg htold
    · exact Int.natCast_nonneg _

theorem link (h : registry.Filed) (key : MaterialKey) (slot : Nat) {index : Int}
    (hindex : registry.Told index) : (registry.link key slot index).Filed where
  nodup := by
    have hkeys := Table.keys_modify registry.records key fun r => r.add slot index
    exact hkeys.symm ▸ h.nodup
  stored := stored_link h.stored
  numbered := h.numbered
  nonneg := by
    intro other htold
    rcases told_link htold with htold | rfl
    · exact h.nonneg htold
    · exact h.nonneg hindex

theorem addition (h : s.registry.Filed) (hstep : Addition hosts roots s t) : t.registry.Filed := by
  cases hstep with
  | enroll materialId _ hnew => exact h.enroll materialId hnew
  | link _ _ _ _ hindex => exact h.link _ _ hindex

theorem additions (h : s.registry.Filed) (hrun : Additions hosts roots s t) :
    t.registry.Filed := by
  induction hrun with
  | refl => exact h
  | tail _ hstep ih => exact ih.addition hstep

theorem records_load (h : registry.Filed) (target : Registry) :
    (target.load registry.recordList).records = registry.records := by
  apply Registry.records_load h.nodup
  intro e he
  exact h.stored (Table.get?_eq_some_of_mem h.nodup he)

/-- Loading brings all records, but no table. -/
theorem load (h : registry.Filed) (target : Registry) :
    (target.load registry.recordList).Filed := by
  have hfind (key : MaterialKey) :
      (target.load registry.recordList).find? key = registry.find? key := by
    rw [find?, h.records_load target, find?]
  have hgenerated : (target.load registry.recordList).generated = [] := rfl
  refine ⟨?_, ?_, ?_, ?_⟩
  · rw [h.records_load target]
    exact h.nodup
  · intro key r hr
    exact h.stored (hfind key ▸ hr)
  · simp [hgenerated]
  · intro index htold
    apply h.nonneg
    simpa only [Told, hfind] using htold

theorem tabled_load_iff (h : registry.Filed) (target : Registry) :
    (target.load registry.recordList).Tabled ↔ registry.indices = [] := by
  have hindices : (target.load registry.recordList).indices = registry.indices := by
    unfold indices
    rw [recordList, h.records_load target]
    rfl
  have hgenerated : (target.load registry.recordList).generated = [] := rfl
  rw [(h.load target).tabled_iff, hindices, or_iff_right (not_not_intro hgenerated)]

end Filed

end Registry

namespace Registrar

open Registry

variable {α : Type} {hosts : HostTable α} {roots : List HostId} {s : Registrar}

/-- What a session does to its registry: it registers materials of any host, clears the registry,
and loads the records of a registry with a history of its own, from a list or from an attachment. -/
inductive History (α : Type) : Registrar → Prop
  | start {s : Registrar} : s.registry.records = [] → s.registry.generated = [] → History α s
  | register {s : Registrar} (hosts : HostTable α) (id : HostId) : History α s →
    History α ((Registrar.register hosts id).run s).2
  | clear {s : Registrar} : History α s → History α { s with registry := s.registry.clear }
  | load {s writer : Registrar} : History α s → History α writer →
    History α { s with registry := s.registry.load writer.registry.recordList }
  | loadAttachment {s writer : Registrar} {bytes : List UInt8} : History α s → History α writer →
    (∀ rs, Attachment.read bytes = .ok rs → rs = writer.registry.recordList) →
    History α ((Registrar.loadAttachment bytes).run s).2

theorem filed_register (h : s.registry.Filed) (hosts : HostTable α) (id : HostId) :
    ((register hosts id).run s).2.registry.Filed := by
  have hreached : hosts.Reached [id] id := ⟨id, List.mem_singleton_self id, .refl⟩
  obtain ⟨⟨order, hadded⟩, _⟩ := enters_registerWithin hosts [id] (hosts.size + 1) id s hreached
  exact Filed.additions (s := ⟨[], s.registry⟩) h hadded

theorem filed_loadAttachment {writer : Registry} {bytes : List UInt8} (h : s.registry.Filed)
    (hwriter : writer.Filed)
    (hbytes : ∀ rs, Attachment.read bytes = .ok rs → rs = writer.recordList) :
    ((loadAttachment bytes).run s).2.registry.Filed := by
  cases hread : Attachment.read bytes with
  | ok rs =>
    obtain rfl := hbytes rs hread
    have hload : s.registry.loadAttachment bytes = .ok (s.registry.load writer.recordList) := by
      rw [Registry.loadAttachment, hread]
      rfl
    rw [run_loadAttachment_of_ok hload]
    exact hwriter.load s.registry
  | error e =>
    rw [Attachment.run_loadAttachment_of_error s hread]
    exact h

theorem History.filed (h : History α s) : s.registry.Filed := by
  induction h with
  | start hrecords hgenerated => exact .empty hrecords hgenerated
  | register hosts id _ ih => exact filed_register ih hosts id
  | clear _ _ => exact .empty rfl rfl
  | load _ _ _ ihwriter => exact ihwriter.load _
  | loadAttachment _ _ hbytes ih ihwriter => exact filed_loadAttachment ih ihwriter hbytes

theorem filed_registered (h : s.registry.Filed) (hosts : HostTable α) (ids : List HostId) :
    (registered hosts ids s).Filed := by
  have hids : ∀ id ∈ ids, hosts.Reached ids id := fun id hid => ⟨id, hid, .refl⟩
  have hadded : ∃ order, Additions hosts ids ⟨[], s.registry⟩ ⟨order, registered hosts ids s⟩ :=
    additions_registerAll hids
  obtain ⟨order, hadded⟩ := hadded
  exact Filed.additions (s := ⟨[], s.registry⟩) h hadded

/-! ### Registering alone -/

/-- With no plain material a record tells an index just for a slot that leads to another material. -/
theorem indices_eq_nil_iff {order : List HostId} {registry : Registry}
    (h : Settled hosts roots ⟨order, registry⟩) (hfiled : registry.Filed)
    (hplains : hosts.plains order = []) :
    registry.indices = [] ↔ ∀ id ∈ order, hosts.followed id = [] := by
  simp only [List.eq_nil_iff_forall_not_mem, mem_indices_iff hfiled.nodup]
  constructor
  · rintro hnone id hid ⟨slot, sub⟩ hslot
    obtain ⟨r, hr, hkey⟩ := h.complete id hid slot sub hslot
    obtain ⟨e, he, _⟩ := List.mem_map.mp hkey
    exact hnone e.2 ⟨_, r, hr, List.mem_map_of_mem he⟩
  · rintro hnone index ⟨key, r, hr, hindex⟩
    obtain ⟨e, he, rfl⟩ := List.mem_map.mp hindex
    obtain ⟨id, hid, rfl⟩ := List.mem_map.mp (h.sound.mem_keys_iff.mpr ⟨r, hr⟩)
    have hmulti : ¬ hosts.IsPlain id := by
      intro hplain
      have hmem := HostTable.mem_plains_iff.mpr ⟨hid, hplain⟩
      rw [hplains] at hmem
      exact List.not_mem_nil hmem
    obtain ⟨slot, sub, _, hslot, _⟩ := h.sound.linked id hid hmulti r hr e he
    exact hnone id hid (slot, sub) hslot

theorem tabled_registered_iff (hosts : HostTable α) (ids : List HostId)
    (hrecords : s.registry.records = []) (hgenerated : s.registry.generated = []) :
    (registered hosts ids s).Tabled ↔ hosts.plains (hosts.explore ids) ≠ [] ∨
      ∀ id ∈ hosts.explore ids, hosts.followed id = [] := by
  have hempty : Settled hosts ids ⟨[], s.registry⟩ := .empty hrecords hgenerated
  have hsettled : Settled hosts ids ⟨hosts.explore ids, registered hosts ids s⟩ :=
    (hempty.registerAll_explored fun id hid => ⟨id, hid, .refl⟩).2
  have hfiled := filed_registered (.empty hrecords hgenerated) hosts ids
  have hlength : (registered hosts ids s).generated.length =
      (hosts.plains (hosts.explore ids)).length := by
    simpa using congrArg List.length hsettled.sound.generated
  have hsame : (registered hosts ids s).generated = [] ↔ hosts.plains (hosts.explore ids) = [] := by
    rw [← List.length_eq_zero_iff, hlength, List.length_eq_zero_iff]
  rw [hfiled.tabled_iff, ne_eq, hsame]
  by_cases hplains : hosts.plains (hosts.explore ids) = []
  · rw [indices_eq_nil_iff hsettled hfiled hplains]
  · exact iff_of_true (.inl hplains) (.inl hplains)

/-- In every session the generated material table has the size that the registry gives just if the
table has an entry or no record tells an index; otherwise there is nothing at any index. So loading
the records of a session leaves the size right just if none of them tells an index, and registering
materials alone just if a plain one is among them or none has a slot that leads to another. -/
theorem table_counts (h : History α s) :
    (s.registry.Tabled ↔ s.registry.generated ≠ [] ∨ s.registry.indices = []) ∧
    (¬ s.registry.Tabled → 0 < s.registry.materialCount ∧
      ∀ index, s.registry.generatedMaterial index = .error { index, count := 0 }) ∧
    (∀ target : Registry, (target.load s.registry.recordList).Tabled ↔ s.registry.indices = []) ∧
    (s.registry.records = [] → s.registry.generated = [] →
      ∀ (hosts : HostTable α) (ids : List HostId), (registered hosts ids s).Tabled ↔
        hosts.plains (hosts.explore ids) ≠ [] ∨
          ∀ id ∈ hosts.explore ids, hosts.followed id = []) := by
  have hfiled := h.filed
  refine ⟨hfiled.tabled_iff, ?_, hfiled.tabled_load_iff, ?_⟩
  · rw [hfiled.tabled_iff, not_or, not_not]
    rintro ⟨hgenerated, hindices⟩
    obtain ⟨index, hindex⟩ := List.exists_mem_of_ne_nil _ hindices
    have hnonneg := hfiled.nonneg (.inr ((mem_indices_iff hfiled.nodup).mp hindex))
    refine ⟨hnonneg.trans_lt (lt_materialCount hgenerated hindex), ?_⟩
    intro other
    have houtside : other < 0 ∨ (s.registry.generated.length : Int) ≤ other := by
      rw [hgenerated, List.length_nil]
      omega
    rw [generatedMaterial_of_outside houtside, hgenerated]
    rfl
  · intro hrecords hgenerated hosts ids
    exact tabled_registered_iff hosts ids hrecords hgenerated

/-- A multi-material in another one that has nothing in it, and a plain material. -/
def hollowSlots : HostTable Unit :=
  ⟨#[{ handle := 1, name := "outer", slots := [some 1] },
    { handle := 2, name := "inner", slots := [none] }, { handle := 3, name := "red" }]⟩

/-- The size is wrong after loading the record of the plain material, and after registering the two
others without it. -/
theorem table_counts_hollowSlots :
    let red := ((register hollowSlots 2).run {}).2
    History Unit red ∧ red.registry.Tabled ∧
      ¬ (({} : Registry).load red.registry.recordList).Tabled ∧
      ¬ (registered hollowSlots [0] {}).Tabled ∧ (registered hollowSlots [0, 2] {}).Tabled := by
  intro red
  have hstart : History Unit {} := .start rfl rfl
  have hred : History Unit red := hstart.register hollowSlots 2
  obtain ⟨_, _, _, hregistered⟩ := table_counts hstart
  obtain ⟨htabled, _, hload, _⟩ := table_counts hred
  refine ⟨hred, ?_, ?_, ?_, ?_⟩
  · rw [htabled]
    decide +kernel
  · rw [hload]
    decide +kernel
  · rw [hregistered rfl rfl]
    decide
  · rw [hregistered rfl rfl]
    decide

end Registrar

end ShadeGraph
