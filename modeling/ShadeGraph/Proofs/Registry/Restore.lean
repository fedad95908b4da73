import ShadeGraph.Exchange.Scene
import ShadeGraph.Proofs.Attachment.RoundTrip
import ShadeGraph.Proofs.Registry.HostScene

/-!
# Matching materials again

An attachment that was written from a registry gives back its records, in order and under their keys.
As long as ids can be told apart without their case, an id finds its own record, and the record finds
the live material with its handle and name. So nothing has to be guessed and nothing is told.
-/

namespace ShadeGraph

/-- No id is empty, and no two are one up to case. -/
structure DistinctIds (rs : List MaterialRecord) : Prop where
  nonempty : ∀ r ∈ rs, r.materialId ≠ ""
  nodup : (rs.map fun r => Text.lower r.materialId).Nodup

/-! ### Reading what was written -/

namespace MaterialRecord

theorem key_rebuilt {r : MaterialRecord} (h : r.generatedOf.keys.Nodup) : r.rebuilt.key = r.key := by
  have hsame := agrees_rebuilt h
  rw [key, key, ← hsame.handle, ← hsame.name]

theorem materialId_rebuilt {r : MaterialRecord} (h : r.generatedOf.keys.Nodup) :
    r.rebuilt.materialId = r.materialId := (agrees_rebuilt h).materialId.symm

end MaterialRecord

namespace Attachment

/-- The magic number is greater than this many records. -/
theorem count_ne_magic {n : Nat} (h : n < 2 ^ 30) : n % 2 ^ 32 ≠ Bytes.toNat magic := by
  have hmagic : Bytes.toNat magic = 1296910163 := by decide
  omega

theorem read_encode {rs : List MaterialRecord} {bytes : List UInt8}
    (hdistinct : ∀ r ∈ rs, r.generatedOf.keys.Nodup)
    (hlayout : rs.length % 2 ^ 32 ≠ Bytes.toNat magic) (h : encode rs = .ok bytes) :
    read bytes = .ok (rs.map MaterialRecord.rebuilt) := by
  rw [read, isVersioned_encode h hlayout]
  refine decode_eq_ok_iff.mpr ⟨?_, built_of_mem_map_rebuilt hdistinct⟩
  rw [← encode_congr (forall₂_agrees_rebuilt hdistinct), h]

theorem read_encodeVersioned {rs : List MaterialRecord} {bytes : List UInt8}
    (hdistinct : ∀ r ∈ rs, r.generatedOf.keys.Nodup) (h : encodeVersioned rs = .ok bytes) :
    read bytes = .ok (rs.map MaterialRecord.rebuilt) := by
  rw [read, if_pos (isVersioned_encodeVersioned h)]
  refine decodeVersioned_eq_ok_iff.mpr ⟨?_, built_of_mem_map_rebuilt hdistinct⟩
  rw [← encodeVersioned_congr (forall₂_agrees_rebuilt hdistinct), h]

end Attachment

namespace Registry

variable {registry : Registry}

/-- The first bytes of the attachment tell its layout. Without a header they are the number of
records. -/
def TellsLayout (registry : Registry) (versioned : Bool) : Prop :=
  versioned = true ∨ registry.recordList.length % 2 ^ 32 ≠ Bytes.toNat Attachment.magic

theorem read_toAttachment {versioned : Bool} {bytes : List UInt8}
    (hdistinct : ∀ r ∈ registry.recordList, r.generatedOf.keys.Nodup)
    (hlayout : registry.TellsLayout versioned)
    (h : registry.toAttachment versioned = .ok bytes) :
    Attachment.read bytes = .ok (registry.recordList.map MaterialRecord.rebuilt) := by
  cases versioned with
  | true => exact Attachment.read_encodeVersioned hdistinct h
  | false => exact Attachment.read_encode hdistinct (hlayout.resolve_left Bool.false_ne_true) h

theorem recordList_load {rs : List MaterialRecord} (hkeys : (rs.map (·.key)).Nodup) :
    (registry.load rs).recordList = rs := by
  rw [load, recordList, Table.foldl_insert_of_nodup [] rs _ _ hkeys, List.nil_append, List.map_map]
  exact List.map_id rs

namespace Sound

variable {α : Type} {hosts : HostTable α} {roots : List HostId} {t : Survey}

theorem find?_of_mem (h : Sound hosts roots t) {e : MaterialKey × MaterialRecord}
    (he : e ∈ t.registry.records) : t.registry.find? e.1 = some e.2 := by
  apply Table.get?_eq_some_of_mem _ he
  rw [h.keys]
  exact h.nodup

theorem mem_recordList (h : Sound hosts roots t) {r : MaterialRecord}
    (hr : r ∈ t.registry.recordList) : t.registry.find? r.key = some r := by
  obtain ⟨e, he, rfl⟩ := List.mem_map.mp hr
  have hfind := h.find?_of_mem he
  rwa [h.stored hfind]

theorem nodup_recordList (h : Sound hosts roots t) : (t.registry.recordList.map (·.key)).Nodup := by
  have hkeys : t.registry.recordList.map (·.key) = t.registry.records.keys := by
    rw [recordList, List.map_map]
    apply List.map_congr_left
    exact fun e he => h.stored (h.find?_of_mem he)
  rw [hkeys, h.keys]
  exact h.nodup

end Sound

/-! ### Finding records -/

/-- A record is found by its id if no other one has this id in any case. -/
theorem findId?_eq_some {r : MaterialRecord} (hr : r ∈ registry.recordList)
    (hid : r.materialId ≠ "")
    (honly : ∀ s ∈ registry.recordList,
      Text.lower s.materialId = Text.lower r.materialId → s = r) :
    registry.findId? r.materialId = some r := by
  have hsame : Identity.sameId r.materialId r.materialId = true := by
    simp [Identity.sameId, hid]
  have hfound : (registry.findId? r.materialId).isSome :=
    List.find?_isSome.mpr ⟨r, hr, hsame⟩
  obtain ⟨found, hfound⟩ := Option.isSome_iff_exists.mp hfound
  have hlower : Text.lower found.materialId = Text.lower r.materialId := by
    have hid := List.find?_some hfound
    simp only [Identity.sameId, Bool.and_eq_true, beq_iff_eq] at hid
    exact hid.2
  rw [hfound, honly found (List.mem_of_find?_eq_some hfound) hlower]

end Registry

/-! ### Finding live materials -/

section

variable {α : Type} {hosts : HostTable α} {live : HostScene} {allowUnsafe : Bool}

theorem Registry.resolve_of_recorded {registry : Registry} {id : String} {r : MaterialRecord}
    {p : HostId} (hfind : registry.findId? id = some r)
    (hrecorded : live.recorded? hosts r = some p) :
    registry.resolve hosts live allowUnsafe id = (some p, []) := by
  simp only [resolve, hfind, hrecorded]

theorem HostScene.recorded?_of_key {r : MaterialRecord} {p : HostId} (hkey : r.key = hosts.key p)
    (hget : live.get? (hosts.get p).handle = some p) : live.recorded? hosts r = some p := by
  have hhandle : r.handle = (hosts.get p).handle := congrArg MaterialKey.handle hkey
  have hname : (hosts.get p).key.name = r.name := congrArg MaterialKey.name hkey.symm
  rw [recorded?, hhandle, hget, Option.filter_some, if_pos (decide_eq_true hname)]

/-- The id of a record that was written and read finds the live material of the record. -/
theorem Registry.resolve_load {registry : Registry} {rs : List MaterialRecord}
    (hkeys : (rs.map (·.key)).Nodup) (hdistinct : ∀ r ∈ rs, r.generatedOf.keys.Nodup)
    (hids : DistinctIds rs) {r : MaterialRecord} (hr : r ∈ rs) {p : HostId}
    (hkey : r.key = hosts.key p) (hget : live.get? (hosts.get p).handle = some p) :
    (registry.load (rs.map MaterialRecord.rebuilt)).resolve hosts live allowUnsafe r.materialId =
      (some p, []) := by
  have hsame {β : Type} (f : MaterialRecord → β) (hf : ∀ r ∈ rs, f r.rebuilt = f r) :
      (rs.map MaterialRecord.rebuilt).map f = rs.map f := by
    rw [List.map_map]
    exact List.map_congr_left hf
  have hload : (registry.load (rs.map MaterialRecord.rebuilt)).recordList =
      rs.map MaterialRecord.rebuilt := by
    apply recordList_load
    rwa [hsame _ fun r hr => MaterialRecord.key_rebuilt (hdistinct r hr)]
  have hloaded : DistinctIds (registry.load (rs.map MaterialRecord.rebuilt)).recordList := by
    rw [hload]
    constructor
    · rw [List.forall_mem_map]
      intro r hr
      rw [MaterialRecord.materialId_rebuilt (hdistinct r hr)]
      exact hids.nonempty r hr
    · rw [hsame]
      · exact hids.nodup
      · exact fun r hr => congrArg Text.lower (MaterialRecord.materialId_rebuilt (hdistinct r hr))
  have hmem : r.rebuilt ∈ (registry.load (rs.map MaterialRecord.rebuilt)).recordList := by
    rw [hload]
    exact List.mem_map_of_mem hr
  have hfind := findId?_eq_some hmem (hloaded.nonempty _ hmem) fun s hs hsame =>
    List.inj_on_of_nodup_map hloaded.nodup hs hmem hsame
  rw [MaterialRecord.materialId_rebuilt (hdistinct r hr)] at hfind
  apply resolve_of_recorded hfind
  exact HostScene.recorded?_of_key ((MaterialRecord.key_rebuilt (hdistinct r hr)).trans hkey) hget

namespace Registrar

variable {s : Registrar}

theorem run_resolve {id : String} {m : Option HostId}
    (h : s.registry.resolve hosts live allowUnsafe id = (m, [])) :
    (resolve hosts live allowUnsafe id).run s = (m, s) := by
  simp only [resolve, StateT.run_bind, StateT.run_get, pure_bind, h]
  rfl

/-- Ids that lead to live materials without a message are matched with them, one after the other. -/
theorem run_foldlM_resolve {ids : List String} {ps : List HostId} (t : Resolved)
    (h : List.Forall₂ (fun id p =>
      s.registry.resolve hosts live allowUnsafe id = (some p, [])) ids ps)
    (hnodup : (t.keys ++ ids).Nodup) :
    (ids.foldlM (fun t id => return Table.insert t id (← resolve hosts live allowUnsafe id))
      t).run s = (t ++ ids.zip (ps.map some), s) := by
  induction h generalizing t with
  | nil =>
    rw [List.zip_nil_left, List.append_nil]
    rfl
  | @cons id p ids ps hid _ ih =>
    have hnew : id ∉ Table.keys t := by
      intro hmem
      have hfirst := (List.nodup_append'.mp hnodup).2.2
      exact hfirst hmem List.mem_cons_self
    have hrest : ((t ++ [(id, some p)]).keys ++ ids).Nodup := by
      rw [Table.keys_append, List.append_assoc]
      exact hnodup
    have hinsert := Table.insert_of_notMem hnew (some p)
    have hstep := ih (t.insert id (some p)) (by rwa [hinsert])
    rw [List.foldlM_cons, StateT.run_bind, StateT.run_bind, run_resolve hid]
    apply hstep.trans
    rw [hinsert, List.append_assoc]
    rfl

/-- What an attachment holds matches the materials of a scene. -/
theorem run_restore {scene : ExchangeScene} {bytes : List UInt8} {rs : List MaterialRecord}
    {ps : List HostId} (hmap : scene.identityMap? = some bytes)
    (hread : Attachment.read bytes = .ok rs)
    (h : List.Forall₂ (fun id p =>
      (s.registry.load rs).resolve hosts live allowUnsafe id = (some p, [])) scene.materialIds ps)
    (hnodup : scene.materialIds.Nodup) :
    (restore hosts live scene allowUnsafe).run s =
      (.ok (scene.materialIds.zip (ps.map some)), { s with registry := s.registry.load rs }) := by
  have hload : s.registry.loadAttachment bytes = .ok (s.registry.load rs) := by
    rw [Registry.loadAttachment, hread]
    rfl
  have hfold := run_foldlM_resolve (s := { s with registry := s.registry.load rs }) [] h hnodup
  have hmatch : (Except.ok (ε := Attachment.FormatError) <$> scene.materialIds.foldlM
      (fun t id => return Table.insert t id (← resolve hosts live allowUnsafe id)) []).run
        { s with registry := s.registry.load rs } =
      (.ok (scene.materialIds.zip (ps.map some)), { s with registry := s.registry.load rs }) := by
    rw [StateT.run_map, hfold]
    rfl
  simp only [restore, hmap, StateT.run_bind, StateT.run_get, pure_bind, hload]
  exact hmatch

end Registrar

end

end ShadeGraph
