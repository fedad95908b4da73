import ShadeGraph.Proofs.Registry.Resolution

/-!
# What loading keeps

An attachment is a list of records, while a registry has one record for each handle and name. So
loading keeps the last record of each key, in the place of the first. All that an attachment holds
is kept just if its records have different keys: then the same bytes are written again. A record
that is not the last one of its key is not found any more, neither by its key nor by its id.
-/

namespace ShadeGraph

/-! ### The last record of a key -/

/-- No record behind this one has its key. -/
def LastOfKey (rs : List MaterialRecord) (r : MaterialRecord) : Prop :=
  ∃ before after, rs = before ++ r :: after ∧ ∀ s ∈ after, s.key ≠ r.key

namespace LastOfKey

variable {rs : List MaterialRecord} {r : MaterialRecord}

theorem mem (h : LastOfKey rs r) : r ∈ rs := by
  obtain ⟨before, after, rfl, _⟩ := h
  exact List.mem_append_right _ List.mem_cons_self

theorem cons (h : LastOfKey rs r) (s : MaterialRecord) : LastOfKey (s :: rs) r := by
  obtain ⟨before, after, rfl, hafter⟩ := h
  exact ⟨s :: before, after, rfl, hafter⟩

theorem of_nodup (h : (rs.map (·.key)).Nodup) (hr : r ∈ rs) : LastOfKey rs r := by
  obtain ⟨before, after, rfl⟩ := List.append_of_mem hr
  refine ⟨before, after, rfl, fun s hs hkey => ?_⟩
  rw [List.map_append, List.map_cons] at h
  have hnew := (List.nodup_cons.mp (List.nodup_append'.mp h).2.1).1
  exact hnew (List.mem_map.mpr ⟨s, hs, hkey⟩)

end LastOfKey

/-- A key that occurs has a last record. -/
theorem exists_lastOfKey {rs : List MaterialRecord} {key : MaterialKey} (h : key ∈ rs.map (·.key)) :
    ∃ r, r.key = key ∧ LastOfKey rs r := by
  induction rs with
  | nil => exact absurd h List.not_mem_nil
  | cons r rs ih =>
    by_cases hlater : key ∈ rs.map (·.key)
    · obtain ⟨last, hkey, hlast⟩ := ih hlater
      exact ⟨last, hkey, hlast.cons r⟩
    · obtain rfl : key = r.key := (List.mem_cons.mp h).resolve_right hlater
      refine ⟨r, rfl, [], rs, rfl, fun s hs hkey => hlater ?_⟩
      exact List.mem_map.mpr ⟨s, hs, hkey⟩

/-! ### What is found -/

namespace Registry

variable {registry : Registry} {rs : List MaterialRecord} {r : MaterialRecord} {key : MaterialKey}

/-- Under each key stands the last record of it. -/
theorem find?_load_eq_some_iff :
    (registry.load rs).find? key = some r ↔ r.key = key ∧ LastOfKey rs r := by
  have hlast {r : MaterialRecord} (h : LastOfKey rs r) :
      (registry.load rs).find? r.key = some r := by
    obtain ⟨before, after, rfl, hafter⟩ := h
    rw [find?, load, List.foldl_append, List.foldl_cons,
      Table.get?_foldl_insert_of_notMem _ _ hafter, Table.get?_insert, if_pos rfl]
  constructor
  · intro h
    by_cases hmem : key ∈ rs.map (·.key)
    · obtain ⟨last, rfl, hr⟩ := exists_lastOfKey hmem
      obtain rfl := Option.some.inj ((hlast hr).symm.trans h)
      exact ⟨rfl, hr⟩
    · have hnone : (registry.load rs).find? key = none := by
        refine Table.get?_foldl_insert_of_notMem [] _ fun s hs hkey => hmem ?_
        exact List.mem_map.mpr ⟨s, hs, hkey⟩
      rw [hnone] at h
      cases h
  · rintro ⟨rfl, hr⟩
    exact hlast hr

end Registry

/-- A key has only one last record. -/
theorem LastOfKey.unique {rs : List MaterialRecord} {r s : MaterialRecord} (hr : LastOfKey rs r)
    (hs : LastOfKey rs s) (hkey : r.key = s.key) : r = s := by
  have hfirst : (({} : Registry).load rs).find? s.key = some r :=
    Registry.find?_load_eq_some_iff.mpr ⟨hkey, hr⟩
  have hsecond : (({} : Registry).load rs).find? s.key = some s :=
    Registry.find?_load_eq_some_iff.mpr ⟨rfl, hs⟩
  exact Option.some.inj (hfirst.symm.trans hsecond)

namespace Registry

variable {registry : Registry} {rs : List MaterialRecord} {r : MaterialRecord}

theorem nodup_keys_load (registry : Registry) (rs : List MaterialRecord) :
    (registry.load rs).records.keys.Nodup :=
  Table.nodup_keys_foldl_insert [] List.nodup_nil rs _ _

theorem find?_of_mem_load {e : MaterialKey × MaterialRecord}
    (he : e ∈ (registry.load rs).records) : (registry.load rs).find? e.1 = some e.2 :=
  Table.get?_eq_some_of_mem (nodup_keys_load registry rs) he

theorem mem_recordList_load_iff : r ∈ (registry.load rs).recordList ↔ LastOfKey rs r := by
  rw [recordList, List.mem_map]
  constructor
  · rintro ⟨e, he, rfl⟩
    exact (find?_load_eq_some_iff.mp (find?_of_mem_load he)).2
  · intro h
    have hfind : (registry.load rs).find? r.key = some r := find?_load_eq_some_iff.mpr ⟨rfl, h⟩
    exact ⟨(r.key, r), Table.mem_of_get?_eq_some hfind, rfl⟩

/-- The records that were loaded have different keys. -/
theorem nodup_recordList_load (registry : Registry) (rs : List MaterialRecord) :
    ((registry.load rs).recordList.map (·.key)).Nodup := by
  have hkeys : (registry.load rs).recordList.map (·.key) = (registry.load rs).records.keys := by
    rw [recordList, List.map_map]
    apply List.map_congr_left
    exact fun e he => (find?_load_eq_some_iff.mp (find?_of_mem_load he)).1
  rw [hkeys]
  exact nodup_keys_load registry rs

theorem recordList_load_eq_iff :
    (registry.load rs).recordList = rs ↔ (rs.map (·.key)).Nodup := by
  refine ⟨fun h => ?_, recordList_load⟩
  have hnodup := nodup_recordList_load registry rs
  rwa [h] at hnodup

/-- Where the ids are different, the last record of a key is found by its id. -/
theorem findId?_load_of_last (hids : (rs.map fun r => Text.lower r.materialId).Nodup)
    (h : LastOfKey rs r) (hid : r.materialId ≠ "") :
    (registry.load rs).findId? r.materialId = some r := by
  refine findId?_eq_some (mem_recordList_load_iff.mpr h) hid fun s hs hsame => ?_
  exact List.inj_on_of_nodup_map hids (mem_recordList_load_iff.mp hs).mem h.mem hsame

/-! ### Loading bytes -/

/-- A record with the handle, the name and the id of this one is found by its key and by its id. -/
structure Recovers (registry : Registry) (r : MaterialRecord) : Prop where
  byKey : ∃ s, registry.find? r.key = some s ∧ s.key = r.key ∧ s.materialId = r.materialId
  byId : ∃ s, registry.findId? r.materialId = some s ∧ s.key = r.key ∧ s.materialId = r.materialId

theorem recovers_load_iff (hids : (rs.map fun r => Text.lower r.materialId).Nodup) (hr : r ∈ rs)
    (hid : r.materialId ≠ "") : (registry.load rs).Recovers r ↔ LastOfKey rs r := by
  constructor
  · rintro ⟨⟨s, hs, _, hsame⟩, _⟩
    have hlast := (find?_load_eq_some_iff.mp hs).2
    rwa [← List.inj_on_of_nodup_map hids hlast.mem hr (congrArg Text.lower hsame)]
  · intro h
    exact ⟨⟨r, find?_load_eq_some_iff.mpr ⟨rfl, h⟩, rfl, rfl⟩,
      r, findId?_load_of_last hids h hid, rfl, rfl⟩

theorem loadAttachment_of_plain (registry : Registry) {bytes : List UInt8}
    (hplain : Attachment.isVersioned bytes = false) (hread : Attachment.decode bytes = .ok rs) :
    registry.loadAttachment bytes = .ok (registry.load rs) := by
  rw [loadAttachment, Attachment.read, hplain, if_neg Bool.false_ne_true, hread]
  rfl

/-- Only the list of records that was read is written as the same bytes. -/
theorem toAttachment_load_eq_iff {bytes : List UInt8} (hread : Attachment.decode bytes = .ok rs) :
    (registry.load rs).toAttachment false = .ok bytes ↔ (rs.map (·.key)).Nodup := by
  obtain ⟨hwrite, hbuilt⟩ := Attachment.decode_eq_ok_iff.mp hread
  refine Iff.trans ?_ (recordList_load_eq_iff : (registry.load rs).recordList = rs ↔ _)
  constructor
  · intro h
    have hback : Attachment.decode bytes = .ok (registry.load rs).recordList := by
      refine Attachment.decode_eq_ok_iff.mpr ⟨h, fun r hr => hbuilt r ?_⟩
      exact (mem_recordList_load_iff.mp hr).mem
    exact Except.ok.inj (hback.symm.trans hread)
  · intro h
    rw [toAttachment, if_neg Bool.false_ne_true, h, hwrite]

/-- Every plain attachment can be loaded. The registry writes the same bytes again just if no two of
the records have one handle and name. If the ids differ without their case, a record that has an id
is found again, by its key and by its id, just if it is the last one of its key; so all are found
where the keys are different. -/
theorem loadAttachment_recovers (registry : Registry) {bytes : List UInt8}
    (hplain : Attachment.isVersioned bytes = false) (hread : Attachment.decode bytes = .ok rs) :
    ∃ loaded, registry.loadAttachment bytes = .ok loaded ∧
      (loaded.toAttachment false = .ok bytes ↔ (rs.map (·.key)).Nodup) ∧
      ((rs.map fun r => Text.lower r.materialId).Nodup → ∀ r ∈ rs, r.materialId ≠ "" →
        (loaded.Recovers r ↔ LastOfKey rs r) ∧
          ((rs.map (·.key)).Nodup → loaded.Recovers r)) := by
  refine ⟨registry.load rs, loadAttachment_of_plain registry hplain hread,
    toAttachment_load_eq_iff hread, fun hids r hr hid => ?_⟩
  have hlast : (registry.load rs).Recovers r ↔ LastOfKey rs r := recovers_load_iff hids hr hid
  exact ⟨hlast, fun hkeys => hlast.mpr (.of_nodup hkeys hr)⟩

/-- A record of the material with handle 1 and the name A. -/
def twin (materialId : String) : MaterialRecord :=
  { handle := 1, materialId, name := .ofString "A" }

/-- Of two records of one material, the first one is lost. -/
theorem loadAttachment_recovers_twins :
    ∃ bytes, Attachment.isVersioned bytes = false ∧
      Attachment.decode bytes = .ok [twin "x", twin "y"] ∧
      ∃ loaded, ({} : Registry).loadAttachment bytes = .ok loaded ∧
        loaded.toAttachment false ≠ .ok bytes ∧
        ¬ loaded.Recovers (twin "x") ∧ loaded.Recovers (twin "y") := by
  obtain ⟨bytes, hbytes⟩ : ∃ bytes, Attachment.encode [twin "x", twin "y"] = .ok bytes :=
    ⟨_, rfl⟩
  have hbuilt (id : String) : (twin id).Built := ⟨[], List.nodup_nil, rfl⟩
  have hplain : Attachment.isVersioned bytes = false :=
    Attachment.isVersioned_encode hbytes (Attachment.count_ne_magic (by decide))
  have hread : Attachment.decode bytes = .ok [twin "x", twin "y"] :=
    Attachment.decode_eq_ok_iff.mpr ⟨hbytes, by simp [hbuilt]⟩
  obtain ⟨loaded, hload, hwritten, hfound⟩ := loadAttachment_recovers {} hplain hread
  have hids : ([twin "x", twin "y"].map fun r => Text.lower r.materialId).Nodup := by
    decide +kernel
  have hsecond : LastOfKey [twin "x", twin "y"] (twin "y") :=
    ⟨[twin "x"], [], rfl, by simp⟩
  have hfirst : ¬ LastOfKey [twin "x", twin "y"] (twin "x") := by
    intro hlast
    have hsame : twin "x" = twin "y" := hlast.unique hsecond rfl
    exact absurd hsame (by decide)
  refine ⟨bytes, hplain, hread, loaded, hload, ?_, ?_, ?_⟩
  · rw [ne_eq, hwritten]
    decide
  · rwa [(hfound hids (twin "x") (by simp) (by decide)).1]
  · rwa [(hfound hids (twin "y") (by simp) (by decide)).1]

end Registry

end ShadeGraph
