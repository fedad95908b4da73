import Mathlib.Order.Bounds.Basic
import ShadeGraph.Proofs.Registry.Reload
import ShadeGraph.Proofs.Registry.Sessions

/-!
# Slots of faces

Faces travel with generated indices and come back to slots. Several slots may share a generated
material, so a face need not come back to the slot that it had, but it comes back to the first slot
with its material. Whatever was registered, no index that a record tells is out of range.
-/

namespace ShadeGraph

namespace MaterialRecord

/-- The slots are in ascending order, and an index leads back to the first slot that tells it. -/
structure Ascends (r : MaterialRecord) : Prop where
  ascending : r.generatedOf.keys.Pairwise (· < ·)
  counted : ∀ slot ∈ r.generatedOf.keys, slot < r.slotCount
  positive : ∀ slot ∈ r.generatedOf.keys, 0 ≤ slot
  back : ∀ index, r.hostOf.get? index = (r.generatedOf.find? fun e => e.2 = index).map (·.1)

namespace Ascends

variable {r : MaterialRecord}

theorem of_empty (hgenerated : r.generatedOf = []) (hhost : r.hostOf = []) : r.Ascends := by
  constructor <;> simp [hgenerated, hhost]

/-- A slot behind all others keeps the order. -/
theorem add (h : r.Ascends) {slot : Nat}
    (hlast : ∀ other ∈ r.generatedOf.keys, other < (slot : Int))
    (index : Int) : (r.add slot index).Ascends := by
  have hnew : (slot : Int) ∉ r.generatedOf.keys := fun hmem => lt_irrefl _ (hlast slot hmem)
  have hentries := generatedOf_add (Table.contains_eq_false_iff.mpr hnew) index
  have hcount : ((r.add slot index).slotCount : Int) = max (r.slotCount : Int) (slot + 1) := by
    simp [MaterialRecord.add]
  constructor
  · rw [hentries, Table.keys_append, List.pairwise_append]
    refine ⟨h.ascending, List.pairwise_singleton _ _, ?_⟩
    intro other hother last hmem
    rw [List.mem_singleton.mp hmem]
    exact hlast other hother
  · rw [hentries, Table.keys_append, List.forall_mem_append, hcount]
    refine ⟨fun other hother => lt_max_of_lt_left (h.counted other hother), ?_⟩
    simp
  · rw [hentries, Table.keys_append, List.forall_mem_append]
    exact ⟨h.positive, by simp⟩
  · intro other
    have hhost : (r.add slot index).hostOf = r.hostOf.insertIfNew index slot := rfl
    rw [hhost, hentries, Table.get?_insertIfNew, h.back, h.back, List.find?_append]
    by_cases hother : other = index
    · subst hother
      cases r.generatedOf.find? fun e => e.2 = other <;> simp
    · cases r.generatedOf.find? fun e => e.2 = other <;> simp [hother, Ne.symm hother]

theorem nodup (h : r.Ascends) : r.generatedOf.keys.Nodup := h.ascending.imp ne_of_lt

theorem generatedIndex_eq_iff (h : r.Ascends) {slot index : Int} (hslot : slot ∈ r.generatedOf.keys) :
    r.generatedIndex slot = index ↔ (slot, index) ∈ r.generatedOf := by
  have hcount : r.slotCount ≠ 0 := by
    have hpositive := h.positive slot hslot
    have hcounted := h.counted slot hslot
    omega
  obtain ⟨told, htold⟩ := Table.mem_keys_iff.mp hslot
  rw [generatedIndex, if_neg hcount, htold, Option.getD_some]
  constructor
  · rintro rfl
    exact Table.mem_of_get?_eq_some htold
  · intro hmem
    exact Option.some.inj (htold.symm.trans (Table.get?_eq_some_of_mem h.nodup hmem))

/-- The way back from a slot leads to the first slot with the same index. -/
theorem isLeast_hostIndex (h : r.Ascends) {slot : Int} (hslot : slot ∈ r.generatedOf.keys) :
    IsLeast {other | other ∈ r.generatedOf.keys ∧ r.generatedIndex other = r.generatedIndex slot}
      (r.hostIndex (r.generatedIndex slot)) := by
  generalize hindex : r.generatedIndex slot = index
  have hentry := (h.generatedIndex_eq_iff hslot).mp hindex
  obtain ⟨first, hfirst⟩ : ∃ e, r.generatedOf.find? (fun e => e.2 = index) = some e :=
    Option.isSome_iff_exists.mp (List.find?_isSome.mpr ⟨_, hentry, by simp⟩)
  have hback : r.hostIndex index = first.1 := by rw [hostIndex, h.back, hfirst]; rfl
  obtain ⟨htold, before, behind, hsplit, hbefore⟩ := List.find?_eq_some_iff_append.mp hfirst
  have htold : first.2 = index := by simpa using htold
  have hmem : (first.1, index) ∈ r.generatedOf := by
    rw [hsplit, ← htold]
    exact List.mem_append_right _ List.mem_cons_self
  have hkey : first.1 ∈ r.generatedOf.keys := List.mem_map.mpr ⟨_, hmem, rfl⟩
  rw [hback]
  refine ⟨⟨hkey, (h.generatedIndex_eq_iff hkey).mpr hmem⟩, ?_⟩
  rintro other ⟨hother, hsame⟩
  have hother := (h.generatedIndex_eq_iff hother).mp hsame
  -- An entry with the index is the one that was found, or stands behind it.
  rw [hsplit] at hother
  rcases List.mem_append.mp hother with hother | hother
  · simpa using hbefore _ hother
  · rcases List.mem_cons.mp hother with heq | hother
    · exact (congrArg Prod.fst heq).ge
    · have hascending := h.ascending
      rw [hsplit, Table.keys_append, Table.keys_cons, List.pairwise_append] at hascending
      exact ((List.pairwise_cons.mp hascending.2.1).1 other (List.mem_map_of_mem hother)).le

end Ascends

end MaterialRecord

namespace Registry

variable {α : Type} {hosts : HostTable α} {roots order : List HostId} {s t : Survey}
variable {start registry : Registry}

theorem ascends_firstRecord {m : HostMaterial α} {materialId : String} :
    (registry.firstRecord m materialId).Ascends := by
  unfold firstRecord
  split_ifs
  · exact .of_empty rfl rfl
  · refine MaterialRecord.Ascends.add (.of_empty rfl rfl) ?_ _
    simp [HostMaterial.record]

/-- A step of registering links the slots of a material in ascending order. -/
theorem Addition.ascends (h : Addition hosts roots s t)
    (hs : ∀ {key r}, s.registry.find? key = some r → r.Ascends) {key : MaterialKey}
    {r : MaterialRecord} (hr : t.registry.find? key = some r) : r.Ascends := by
  cases h with
  | enroll materialId _ _ =>
    rw [find?_enroll] at hr
    split_ifs at hr
    · obtain rfl := Option.some.inj hr
      exact ascends_firstRecord
    · exact hs hr
  | link _ _ hlinked hlast _ =>
    rw [find?_link] at hr
    split_ifs at hr with hkey
    · obtain ⟨old, hold, rfl⟩ := Option.map_eq_some_iff.mp hr
      obtain rfl := Option.some.inj ((hkey ▸ hlinked).symm.trans hold)
      exact (hs hold).add hlast _
    · exact hs hr

theorem Additions.ascends (h : Additions hosts roots s t)
    (hs : ∀ {key r}, s.registry.find? key = some r → r.Ascends) {key : MaterialKey}
    {r : MaterialRecord} (hr : t.registry.find? key = some r) : r.Ascends := by
  induction h generalizing key r with
  | refl => exact hs hr
  | tail _ hstep ih => exact hstep.ascends ih hr

/-- Zero, which stands for a slot without a material, is in range as soon as some slot tells it. -/
theorem Grown.inRange (h : Grown hosts roots start ⟨order, registry⟩) (hrecords : start.records = [])
    (hgenerated : start.generated = []) : registry.InRange := by
  intro index hindex
  have htold := (mem_indices_iff (h.nodup_keys_of_empty hrecords)).mp hindex
  have hbounds : index = 0 ∨ 0 ≤ index ∧ index < registry.generated.length := by
    rcases h.told (.inr htold) with (rfl | ⟨key, r, hr, _⟩) | ⟨hlow, hhigh⟩
    · exact .inl rfl
    · rw [find?, hrecords] at hr
      contradiction
    · rw [hgenerated] at hlow
      exact .inr ⟨hlow, hhigh⟩
  have hlow : 0 ≤ index := by omega
  refine ⟨hlow, ?_⟩
  by_cases hnone : registry.generated = []
  · exact lt_materialCount hnone hindex
  · have hpos : 0 < registry.generated.length := List.length_pos_iff.mpr hnone
    have hfull : registry.materialCount = registry.generated.length := by
      simp [materialCount, hnone]
    omega

/-! ### The way back -/

theorem remap_eq_ok (r : MaterialRecord) (mesh : String) {indices : List Int}
    (h : ∀ index ∈ indices, 0 ≤ index ∧ index < registry.materialCount) :
    registry.remap r mesh indices = .ok (indices.map r.hostIndex) := by
  unfold remap
  induction indices with
  | nil => rfl
  | cons index indices ih =>
    obtain ⟨hindex, hindices⟩ := List.forall_mem_cons.mp h
    rw [List.mapM_cons, if_pos hindex, ih hindices]
    rfl

theorem remap_eq_error (r : MaterialRecord) (mesh : String) {indices : List Int} {index : Int}
    (h : indices.find? (fun g => g < 0 || registry.materialCount ≤ g) = some index) :
    registry.remap r mesh indices = .error { index, count := registry.materialCount, mesh } := by
  unfold remap
  induction indices with
  | nil => exact absurd h (by simp)
  | cons first indices ih =>
    rw [List.find?_cons] at h
    rw [List.mapM_cons]
    split at h
    · rename_i hout
      obtain rfl := Option.some.inj h
      rw [if_neg]
      · rfl
      · simp at hout
        omega
    · rename_i hin
      rw [if_pos, ih h]
      · rfl
      · simp at hin
        omega

end Registry

namespace Registrar

open Registry

variable {α : Type}

theorem run_remap (r : MaterialRecord) (mesh : String) (indices : List Int) (s : Registrar) :
    (remap r mesh indices).run s =
      (s.registry.remap r mesh indices,
        match s.registry.remap r mesh indices with
        | .ok _ => s
        | .error e => { s with journal := s.journal.error e.report }) := by
  simp only [remap, StateT.run_bind, StateT.run_get, pure_bind]
  cases s.registry.remap r mesh indices <;> rfl

/-- Whatever was registered, the slots of a record go out as generated indices and come back as the
first slots with these indices, which go out as the same indices again. The first index that is not
in the generated material table is an error, of which nothing remains but its message. -/
theorem remap_stable (hosts : HostTable α) (ids : List HostId) (s : Registrar)
    (hrecords : s.registry.records = []) (hgenerated : s.registry.generated = []) :
    let later := ((ids.mapM (register hosts)).run s).2
    (∀ r ∈ later.registry.recordList, ∀ (mesh : String) (slots : List Int),
      (∀ slot ∈ slots, slot ∈ r.generatedOf.keys) →
        ∃ back, (remap r mesh (slots.map r.generatedIndex)).run later = (.ok back, later) ∧
          List.Forall₂ (fun slot first => IsLeast {other | other ∈ r.generatedOf.keys ∧
            r.generatedIndex other = r.generatedIndex slot} first) slots back ∧
          back.map r.generatedIndex = slots.map r.generatedIndex) ∧
    ∀ (r : MaterialRecord) (mesh : String) (indices : List Int) (index : Int),
      indices.find? (fun g => g < 0 || later.registry.materialCount ≤ g) = some index →
        let e : MaterialIndexError := { index, count := later.registry.materialCount, mesh }
        (remap r mesh indices).run later =
          (.error e, { later with journal := later.journal.error e.report }) := by
  intro later
  obtain ⟨order, hadded⟩ :
      ∃ order, Additions hosts ids ⟨[], s.registry⟩ ⟨order, later.registry⟩ :=
    additions_registerAll fun id hid => ⟨id, hid, .refl⟩
  have hgrown := (Grown.refl s.registry).additions hadded
  have hnone {key : MaterialKey} {r : MaterialRecord} : s.registry.find? key ≠ some r := by
    rw [find?, hrecords, Table.get?_nil]
    exact (Option.some_ne_none r).symm
  constructor
  · intro r hr mesh slots hslots
    obtain ⟨⟨key, r⟩, hentry, rfl⟩ := List.mem_map.mp hr
    have hfind : later.registry.find? key = some r :=
      Table.get?_eq_some_of_mem (hgrown.nodup_keys_of_empty hrecords) hentry
    have hascends : r.Ascends := hadded.ascends (fun h => absurd h hnone) hfind
    have hleast {slot : Int} (hslot : slot ∈ slots) := hascends.isLeast_hostIndex (hslots slot hslot)
    have hrange : ∀ index ∈ slots.map r.generatedIndex,
        0 ≤ index ∧ index < later.registry.materialCount := by
      intro index hindex
      obtain ⟨slot, hslot, rfl⟩ := List.mem_map.mp hindex
      have hmem := (hascends.generatedIndex_eq_iff (hslots slot hslot)).mp rfl
      apply hgrown.inRange hrecords hgenerated
      rw [mem_indices_iff (hgrown.nodup_keys_of_empty hrecords)]
      exact ⟨key, r, hfind, List.mem_map_of_mem hmem⟩
    refine ⟨(slots.map r.generatedIndex).map r.hostIndex, ?_, ?_, ?_⟩
    · rw [run_remap, remap_eq_ok r mesh hrange]
    · rw [List.map_map, List.forall₂_map_right_iff, List.forall₂_same]
      exact fun slot hslot => hleast hslot
    · rw [List.map_map, List.map_map]
      exact List.map_congr_left fun slot hslot => (hleast hslot).1.2
  · intro r mesh indices index hindex
    rw [run_remap, remap_eq_error r mesh hindex]

/-- A plain material lies in two slots of another one, whose last slot leads to empty slots only. -/
def repeatedSlots : HostTable Unit :=
  ⟨#[{ handle := 1, name := "outer", slots := [some 1, some 2, none, some 1, some 3] },
    { handle := 2, name := "red" }, { handle := 3, name := "blue" },
    { handle := 4, name := "inner", slots := [none] }]⟩

/-- All slots with the index 0 come back as the first one; there is no material 2. -/
theorem remap_stable_repeatedSlots :
    let later := (([0].mapM (register repeatedSlots)).run {}).2
    ∃ r ∈ later.registry.recordList, ∃ back,
      [4, 1, 3].map r.generatedIndex = [0, 1, 0] ∧
      (remap r "floor" [0, 1, 0]).run later = (.ok back, later) ∧
      back.map r.generatedIndex = [0, 1, 0] ∧
      ((remap r "floor" [1, 2, -1]).run later).1 = .error ⟨2, 2, "floor"⟩ := by
  intro later
  obtain ⟨hback, hout⟩ := remap_stable repeatedSlots [0] {} rfl rfl
  obtain ⟨r, hr, hindices, hslots, hcount⟩ : ∃ r ∈ later.registry.recordList,
      [4, 1, 3].map r.generatedIndex = [0, 1, 0] ∧ (∀ slot ∈ [4, 1, 3], slot ∈ r.generatedOf.keys) ∧
        later.registry.materialCount = 2 := by decide +kernel
  obtain ⟨back, hrun, _, hsame⟩ := hback r hr "floor" [4, 1, 3] hslots
  rw [hindices] at hrun hsame
  have herror := hout r "floor" [1, 2, -1] 2 (by rw [hcount]; decide)
  rw [hcount] at herror
  exact ⟨r, hr, back, hindices, hrun, hsame, congrArg Prod.fst herror⟩

end Registrar

end ShadeGraph
